import Scriptlet.Proofs.Code.Bodies
import Scriptlet.Proofs.Code.Files
import Scriptlet.Proofs.SumType.Naming
import Scriptlet.Proofs.SumType.Trees

/-!
# Pieces of generated code

Every piece of generated code is one declaration of Go, and this declaration is the one that is
meant by it.
-/

namespace Scriptlet

namespace SumType

open Code
open Code.GoReader

/-- The characters of something between braces, in lines of their own. -/
theorem chars_braced {keyword head : String} {comment : Option String} {items : List String}
    (visible : items.all endsVisibly = true) :
    (Piece.rows keyword comment ((Generation.braced head items).map Row.ofLine)).chars =
      (comment.toList.flatMap fun line => line.toList ++ ['\n']) ++
        ((head ++ " " ++ braceOpen ++ "\n").toList ++
          (items.flatMap (fun item => '\t' :: (item.toList ++ ['\n'])) ++ ['}', '\n'])) := by
  have lines : (Generation.braced head items).all endsVisibly = true := by
    simp only [Generation.braced, List.all_append, Bool.and_eq_true]
    refine ⟨⟨?_, ?_⟩, by decide⟩
    · rw [List.all_cons, endsVisibly_append (by decide)]
      rfl
    · rw [List.all_map, List.all_eq_true]
      exact fun item member => endsVisibly_append (List.all_eq_true.mp visible item member)
  rw [Piece.chars_rows lines]
  simp [charsOf, Generation.braced, List.flatMap_map]

/-- Items that have symbols have at least as many as there are items. -/
theorem length_le_length_flatMap {α β : Type} (symbols : α → List β)
    (filled : ∀ item, 0 < (symbols item).length) (items : List α) :
    items.length ≤ (items.flatMap symbols).length := by
  induction items with
  | nil => exact Nat.le_refl _
  | cons item items ih =>
    have first := filled item
    rw [List.flatMap_cons, List.length_append, List.length_cons]
    omega

/-- What can be seen of the parameters and the results of a function. -/
abbrev signatureView : Members GoExpr × Members GoExpr → Members GoExpr × Members GoExpr :=
  Prod.map (Members.erase GoExpr.erase) (Members.erase GoExpr.erase)

variable {sum : String}

/-- The interface of a sum type. -/
theorem declares_sumInterface (named : isName sum = true) :
    Declares (Generation.sumInterface sum).chars (Tree.sumInterface sum) := by
  have visible : ["is_" ++ sum ++ "()"].all endsVisibly = true := by
    rw [List.all_cons, endsVisibly_append (by decide)]
    rfl
  rw [Generation.sumInterface, chars_braced visible]
  refine ⟨"type", _, .of_chunks [.keyword "type", .blank, .name sum, .blank, .keyword "interface",
    .blank, .sign '{', .newline, .tab, .name ("is_" ++ sum), .sign '(', .sign ')', .newline,
    .sign '}', .newline] rfl ?_ ?_ rfl, rfl, ?_⟩
  · simp [Chunk.names, named, isName_marker named]
  · simp [Chunk.chars]
  · intro steps tail enough _
    obtain ⟨steps, rfl⟩ : ∃ fewer, steps = fewer + 5 := Nat.exists_eq_add_of_le' (by omega)
    have read : outcome signatureView (signature 4) ([.sign "(", .sign ")"] ++ [.lineEnd]) =
        some (({}, {}), [.lineEnd]) := rfl
    have signed : Takes false signatureView (signature steps) [.sign "(", .sign ")"]
        (.lineEnd :: .sign braceClose :: .lineEnd :: tail) ({}, {}) :=
      .of_next (uniform (by simp at enough; omega)).signature read (by simp)
    exact ((Takes.many_cons rfl signed.method (.many_nil rfl steps)).interface.declaredType
      (by decide) (by decide)).typeDeclaration

/-- The method by which a variant belongs to a sum type. -/
theorem declares_markerMethod {variant : Variant} (named : isName sum = true)
    (valid : isName variant.name = true) :
    Declares (Generation.markerMethod sum variant).chars (Tree.markerMethod sum variant) := by
  have filled : ("func (v " ++ variant.name ++ ") is_" ++ sum ++ "()").isEmpty = false := by
    simp
  rw [Generation.markerMethod, Piece.chars, Piece.lines, Row.align_cell filled (by decide)]
  refine ⟨"func", _, .of_chunks [.keyword "func", .blank, .sign '(', .name "v", .blank,
    .name variant.name, .sign ')', .blank, .name ("is_" ++ sum), .sign '(', .sign ')', .blank,
    .sign '{', .sign '}', .newline] rfl ?_ ?_ rfl, rfl, ?_⟩
  · simp [Chunk.names, valid, isName_marker named]
    decide +kernel
  · simp [Chunk.chars, charsOf]
  · intro steps tail enough notName
    have atMost : 8 ≤ steps := by omega
    exact .of_outcomes (fun _ => declaration_follows atMost) (by with_unfolding_all rfl)
      (fun _ => by with_unfolding_all rfl) notName

section Visitors

variable {variants : List Variant}

/-- The symbols of the method of a visitor for a variant. -/
def visitSymbols (variant : Variant) : List Symbol :=
  [.name ("Visit" ++ variant.name), .sign "(", .name variant.name, .sign ")", .sign "(", .name "R",
    .sign ",", .name "error", .sign ")", .lineEnd]

private theorem spells_visitMethod {variant : Variant} (valid : isName variant.name = true) :
    SpellsLines ('\t' :: (("Visit" ++ variant.name ++ "(" ++ variant.name ++
      ") (R, error)").toList ++ ['\n'])) (visitSymbols variant) := by
  refine .of_chunks [.tab, .name ("Visit" ++ variant.name), .sign '(', .name variant.name, .sign ')',
    .blank, .sign '(', .name "R", .sign ',', .blank, .name "error", .sign ')', .newline] rfl ?_ ?_ rfl
  · simp [Chunk.names, valid, isName_visit valid]
    decide +kernel
  · simp [Chunk.chars]

private theorem takes_visitMethod {steps : Nat} (enough : 8 ≤ steps) (variant : Variant)
    (tail : List Symbol) :
    Takes false (Member.erase GoExpr.erase) (element (steps + 1)) (visitSymbols variant) tail
      (Tree.visitMethod variant) := by
  have read : outcome signatureView (signature 8) ([.sign "(", .name variant.name, .sign ")",
      .sign "(", .name "R", .sign ",", .name "error", .sign ")"] ++ [.lineEnd]) =
      some (({ list := Tree.unnamed [.ofName variant.name] }, Tree.visitResults), [.lineEnd]) := rfl
  have signed : Takes false signatureView (signature steps) _ (.lineEnd :: tail) _ :=
    .of_next (uniform enough).signature read nofun
  exact signed.method

private theorem takes_visitMethods {steps : Nat} (enough : 8 ≤ steps) (limit : Nat)
    (atMost : variants.length ≤ limit) {tail : List Symbol}
    (ends : tail.head?.any startsElement = false) :
    Takes false (List.map (Member.erase GoExpr.erase))
      (many startsElement (element (steps + 1)) limit) (variants.flatMap visitSymbols) tail
      (variants.map Tree.visitMethod) := by
  induction variants generalizing limit with
  | nil => exact .many_nil ends limit
  | cons variant variants ih =>
    rw [List.length_cons] at atMost
    obtain ⟨limit, rfl⟩ := Nat.exists_eq_add_of_le' (Nat.le_trans (Nat.le_add_left 1 _) atMost)
    exact .many_cons rfl (takes_visitMethod enough variant _) (ih limit (by omega))

/-- The interface of visitors of a sum type. -/
theorem declares_visitorInterface (named : isName sum = true)
    (valid : ∀ variant ∈ variants, isName variant.name = true) :
    Declares (Generation.visitorInterface sum variants).chars
      (Tree.visitorInterface sum variants) := by
  have visible : (variants.map fun variant =>
      "Visit" ++ variant.name ++ "(" ++ variant.name ++ ") (R, error)").all endsVisibly = true := by
    rw [List.all_map, List.all_eq_true]
    exact fun variant _ => endsVisibly_append (by decide)
  rw [Generation.visitorInterface, chars_braced visible]
  refine ⟨"type", .name (sum ++ "Visitor") :: (.sign "[" :: ([.name "R", .name "any", .sign "]"] ++
    .keyword "interface" :: .sign braceOpen :: (variants.flatMap visitSymbols ++ [.sign braceClose])) ++
      [.lineEnd]), ?_, rfl, ?_⟩
  · have opening : SpellsLines ("type " ++ sum ++ "Visitor[R any] interface" ++ " " ++ braceOpen ++ "\n").toList
        [.keyword "type", .name (sum ++ "Visitor"), .sign "[", .name "R", .name "any", .sign "]",
          .keyword "interface", .sign braceOpen] := by
      refine .of_chunks [.keyword "type", .blank, .name (sum ++ "Visitor"), .sign '[', .name "R",
        .blank, .name "any", .sign ']', .blank, .keyword "interface", .blank, .sign '{',
        .newline] rfl ?_ ?_ rfl
      · simp [Chunk.names, isName_visitor named]
        decide +kernel
      · simp [Chunk.chars]
    have methods : SpellsLines (variants.flatMap fun variant => '\t' :: (("Visit" ++ variant.name ++
        "(" ++ variant.name ++ ") (R, error)").toList ++ ['\n'])) (variants.flatMap visitSymbols) :=
      .flatMap fun variant member => spells_visitMethod (valid variant member)
    have closing : SpellsLines ['}', '\n'] [.sign braceClose, .lineEnd] :=
      .of_chunks [.sign '}', .newline] rfl rfl rfl rfl
    have comment : SpellsLines (("// " ++ sum ++ "Visitor has one method per " ++ sum ++
        " variant.").toList ++ ['\n']) [] := by
      refine .comment (sum.toList ++ ("Visitor has one method per ".toList ++ (sum.toList ++
        " variant.".toList))) (by simp) ?_
      simp only [List.all_append, all_canRemark_of_isWord (isWord_of_isName named)]
      decide +kernel
    have all := comment.append (opening.append (methods.append closing))
    simpa [List.flatMap_map] using all
  · intro steps tail enough _
    simp only [List.length_append, List.length_cons, List.length_nil] at enough
    obtain ⟨steps, rfl⟩ : ∃ fewer, steps = fewer + 6 := Nat.exists_eq_add_of_le' (by omega)
    have count : variants.length ≤ (variants.flatMap visitSymbols).length :=
      length_le_length_flatMap visitSymbols (fun _ => Nat.succ_pos _) variants
    have read : outcome (Sum.map (Members.erase GoExpr.erase) GoExpr.erase) (parametersOrArray 8)
        ([.name "R", .name "any", .sign "]"] ++ [.keyword "interface"]) =
        some (.inl Tree.resultParameter, [.keyword "interface"]) := rfl
    have methods : Takes false (List.map (Member.erase GoExpr.erase))
        (many startsElement (element (steps + 2)) (steps + 2)) (variants.flatMap visitSymbols)
        (.sign braceClose :: .lineEnd :: tail) (variants.map Tree.visitMethod) :=
      takes_visitMethods (by omega) (steps + 2) (by omega) rfl
    have parameters : Takes false (Sum.map (Members.erase GoExpr.erase) GoExpr.erase)
        (parametersOrArray (steps + 3)) [.name "R", .name "any", .sign "]"]
        (.keyword "interface" :: .sign braceOpen :: (variants.flatMap visitSymbols ++
          [.sign braceClose]) ++ .lineEnd :: tail) (.inl Tree.resultParameter) :=
      .of_next (uniform (by omega)).parametersOrArray read (by simp)
    exact (parameters.declaredType_parameters methods.interface (by decide)).typeDeclaration

/-- The symbols of the case of a variant. -/
def caseSymbols (variant : Variant) : List Symbol :=
  [.keyword "case", .name variant.name, .sign ":", .keyword "return", .name "v", .sign ".",
    .name ("Visit" ++ variant.name), .sign "(", .name "n", .sign ")", .lineEnd]

private theorem spells_dispatchCase {variant : Variant} (valid : isName variant.name = true) :
    SpellsLines ((Generation.dispatchLines variant).flatMap fun line =>
      '\t' :: (line.toList ++ ['\n'])) (caseSymbols variant) := by
  refine .of_chunks [.tab, .keyword "case", .blank, .name variant.name, .sign ':', .newline, .tab,
    .tab, .keyword "return", .blank, .name "v", .sign '.', .name ("Visit" ++ variant.name),
    .sign '(', .name "n", .sign ')', .newline] rfl ?_ ?_ rfl
  · simp [Chunk.names, valid, isName_visit valid]
    decide +kernel
  · simp [Chunk.chars, Generation.dispatchLines]

private theorem takes_dispatchCase {steps : Nat} (enough : 16 ≤ steps) (variant : Variant)
    {tail : List Symbol}
    (ends : tail.head? = some (.keyword "case") ∨ tail.head? = some (.sign braceClose)) :
    Takes false GoStmt.erase (clause steps) (caseSymbols variant) tail
      (Tree.dispatchCase variant) := by
  cases tail with
  | nil => simp at ends
  | cons next tail =>
    obtain rfl | rfl := ends.imp Option.some.inj Option.some.inj
    · exact .of_next (uniform enough).clause (by with_unfolding_all rfl) nofun
    · exact .of_next (uniform enough).clause (by with_unfolding_all rfl) nofun

private theorem takes_dispatchCases {steps : Nat} (enough : 16 ≤ steps) (limit : Nat)
    (atMost : variants.length ≤ limit) {tail : List Symbol}
    (ends : tail.head? = some (.sign braceClose)) :
    Takes false (List.map GoStmt.erase)
      (many (fun symbol => endsStatements symbol && symbol ≠ .sign braceClose) (clause steps) limit)
      (variants.flatMap caseSymbols) tail (variants.map Tree.dispatchCase) := by
  induction variants generalizing limit with
  | nil => exact .many_nil (by rw [ends]; rfl) limit
  | cons variant variants ih =>
    rw [List.length_cons] at atMost
    obtain ⟨limit, rfl⟩ := Nat.exists_eq_add_of_le' (Nat.le_trans (Nat.le_add_left 1 _) atMost)
    refine .many_cons rfl (takes_dispatchCase enough variant ?_) (ih limit (by omega))
    cases variants with
    | nil => exact .inr ends
    | cons next others => exact .inl rfl

/-- The symbols of the switch on the variant at hand. -/
def switchSymbols (variants : List Variant) : List Symbol :=
  .keyword "switch" :: .name "n" ::
      [.sign ":=", .name "node", .sign ".", .sign "(", .keyword "type", .sign ")"] ++
    (.sign braceOpen :: (variants.flatMap caseSymbols ++ [.sign braceClose]) ++ [.lineEnd])

private theorem spells_dispatch (valid : ∀ variant ∈ variants, isName variant.name = true) :
    SpellsLines ((["switch n := node.(type) " ++ braceOpen] ++ variants.flatMap Generation.dispatchLines ++
      [braceClose]).flatMap fun line => '\t' :: (line.toList ++ ['\n'])) (switchSymbols variants) := by
  have opening : SpellsLines ('\t' :: ("switch n := node.(type) " ++ braceOpen ++ "\n").toList)
      [.keyword "switch", .name "n", .sign ":=", .name "node", .sign ".", .sign "(",
        .keyword "type", .sign ")", .sign braceOpen] :=
    .of_chunks [.tab, .keyword "switch", .blank, .name "n", .blank, .define, .blank, .name "node",
      .sign '.', .sign '(', .keyword "type", .sign ')', .blank, .sign '{', .newline] rfl
      (by decide +kernel) (by simp [Chunk.chars]) rfl
  have cases : SpellsLines (variants.flatMap fun variant =>
      (Generation.dispatchLines variant).flatMap fun line => '\t' :: (line.toList ++ ['\n']))
      (variants.flatMap caseSymbols) :=
    .flatMap fun variant member => spells_dispatchCase (valid variant member)
  have closing : SpellsLines ['\t', '}', '\n'] [.sign braceClose, .lineEnd] :=
    .of_chunks [.tab, .sign '}', .newline] rfl rfl rfl rfl
  simpa [switchSymbols, List.flatMap_assoc] using opening.append (cases.append closing)

private theorem takes_dispatch {steps : Nat} (enough : 16 ≤ steps) (atMost : variants.length ≤ steps)
    (tail : List Symbol) :
    Takes false GoStmt.erase (statement (steps + 2)) (switchSymbols variants) tail
      (Tree.dispatch variants) := by
  have head : Takes true GoStmt.erase (headStmt steps)
      (.name "n" :: [.sign ":=", .name "node", .sign ".", .sign "(", .keyword "type", .sign ")"])
      ((.sign braceOpen :: (variants.flatMap caseSymbols ++ [.sign braceClose]) ++ [.lineEnd]) ++ tail)
      (.assign (Tree.unnamed [.ofName "n"]) {} ":="
        (Tree.unnamed [.asserted (.ofName "node") {} none {}])) :=
    .of_next (uniform enough).headStmt (by with_unfolding_all rfl) nofun
  exact .typeSwitch nofun rfl rfl head (takes_dispatchCases enough steps atMost rfl).cases

/-- The symbols of the result that comes with an error. -/
def zeroSymbols : List Symbol :=
  [.keyword "var", .name "zero", .name "R", .lineEnd]

/-- The symbols of the error for a value that is of no variant. -/
def unknownSymbols (package sum : String) : List Symbol :=
  [.keyword "return", .name "zero", .sign ",", .name package, .sign ".", .name "Errorf", .sign "(",
    .text (Quoted.text ("unknown " ++ sum ++ " variant %T")), .sign ",", .name "node", .sign ")",
    .lineEnd]

private theorem spells_unknown {package : String} (known : isName package = true) (sum : String) :
    SpellsLines (["var zero R", "return zero, " ++ package ++ ".Errorf(" ++
        Quoted.text ("unknown " ++ sum ++ " variant %T") ++ ", node)"].flatMap fun line =>
      '\t' :: (line.toList ++ ['\n'])) (zeroSymbols ++ unknownSymbols package sum) := by
  refine .of_chunks [.tab, .keyword "var", .blank, .name "zero", .blank, .name "R", .newline, .tab,
    .keyword "return", .blank, .name "zero", .sign ',', .blank, .name package, .sign '.',
    .name "Errorf", .sign '(', .quoted ("unknown " ++ sum ++ " variant %T"), .sign ',', .blank,
    .name "node", .sign ')', .newline] rfl ?_ ?_ rfl
  · simp [Chunk.names, known]
    decide +kernel
  · simp [Chunk.chars]

/-- The lines of the body of the function. -/
def bodyLines (package sum : String) (variants : List Variant) : List String :=
  ["switch n := node.(type) " ++ braceOpen] ++ variants.flatMap Generation.dispatchLines ++
    [braceClose, "var zero R",
      "return zero, " ++ package ++ ".Errorf(" ++ Quoted.text ("unknown " ++ sum ++ " variant %T") ++
        ", node)"]

/-- The symbols of the body of the function. -/
def bodySymbols (package sum : String) (variants : List Variant) : List Symbol :=
  switchSymbols variants ++ (zeroSymbols ++ unknownSymbols package sum)

private theorem endsVisibly_bodyLines (package sum : String) (variants : List Variant) :
    (bodyLines package sum variants).all endsVisibly = true := by
  simp only [bodyLines, List.all_append, List.all_flatMap, Bool.and_eq_true]
  refine ⟨⟨by decide, List.all_eq_true.mpr fun variant _ => ?_⟩, ?_⟩
  · simp only [Generation.dispatchLines, List.all_cons, List.all_nil, Bool.and_true,
      Bool.and_eq_true]
    exact ⟨endsVisibly_append (by decide), endsVisibly_append (by decide)⟩
  · simp only [List.all_cons, List.all_nil, Bool.and_true, Bool.and_eq_true]
    exact ⟨by decide, by decide, endsVisibly_append (by decide)⟩

private theorem spells_body {package : String} (known : isName package = true) (sum : String)
    (valid : ∀ variant ∈ variants, isName variant.name = true) :
    SpellsLines ((bodyLines package sum variants).flatMap fun line => '\t' :: (line.toList ++ ['\n']))
      (bodySymbols package sum variants) := by
  have parts : bodyLines package sum variants =
      (["switch n := node.(type) " ++ braceOpen] ++ variants.flatMap Generation.dispatchLines ++ [braceClose]) ++
        ["var zero R", "return zero, " ++ package ++ ".Errorf(" ++
          Quoted.text ("unknown " ++ sum ++ " variant %T") ++ ", node)"] := by
    simp [bodyLines]
  rw [parts, List.flatMap_append]
  exact (spells_dispatch valid).append (spells_unknown known sum)

private theorem takes_body {steps : Nat} (enough : 16 ≤ steps) (atMost : variants.length ≤ steps)
    (package sum : String) (limit : Nat) (tail : List Symbol) :
    Takes false (List.map GoStmt.erase) (many (!endsStatements ·) (statement (steps + 2)) (limit + 3))
      (bodySymbols package sum variants) (.sign braceClose :: tail)
      [Tree.dispatch variants, Tree.zeroResult, Tree.unknownVariant package sum] := by
  have result : Takes false GoStmt.erase (statement (steps + 2)) zeroSymbols
      (unknownSymbols package sum ++ .sign braceClose :: tail) Tree.zeroResult :=
    .of_next (uniform (show 16 ≤ steps + 2 by omega)).statement (by with_unfolding_all rfl) nofun
  have unknown : Takes false GoStmt.erase (statement (steps + 2)) (unknownSymbols package sum)
      (.sign braceClose :: tail) (Tree.unknownVariant package sum) :=
    .of_next (uniform (show 16 ≤ steps + 2 by omega)).statement (by with_unfolding_all rfl) nofun
  refine .many_cons rfl (takes_dispatch enough atMost _) (.many_cons rfl result ?_)
  rw [← List.append_nil (unknownSymbols package sum)]
  exact .many_cons rfl unknown (.many_nil rfl limit)

/-- The symbols of the parameters and the results of the function. -/
def signatureSymbols (sum : String) : List Symbol :=
  [.sign "(", .name "node", .name sum, .sign ",", .name "v", .name (sum ++ "Visitor"), .sign "[",
    .name "R", .sign "]", .sign ")", .sign "(", .name "R", .sign ",", .name "error", .sign ")"]

private theorem spells_head (named : isName sum = true) :
    SpellsLines ("func Visit" ++ sum ++ "[R any](node " ++ sum ++ ", v " ++ sum ++
        "Visitor[R]) (R, error)" ++ " " ++ braceOpen ++ "\n").toList
      (.keyword "func" :: .name ("Visit" ++ sum) :: .sign "[" ::
        ([.name "R", .name "any", .sign "]"] ++ (signatureSymbols sum ++ [.sign braceOpen]))) := by
  refine .of_chunks [.keyword "func", .blank, .name ("Visit" ++ sum), .sign '[', .name "R", .blank,
    .name "any", .sign ']', .sign '(', .name "node", .blank, .name sum, .sign ',', .blank, .name "v",
    .blank, .name (sum ++ "Visitor"), .sign '[', .name "R", .sign ']', .sign ')', .blank, .sign '(',
    .name "R", .sign ',', .blank, .name "error", .sign ')', .blank, .sign '{', .newline] rfl ?_ ?_ rfl
  · simp [Chunk.names, named, isName_visit named, isName_visitor named]
    decide +kernel
  · simp [Chunk.chars]

private theorem takes_signature {steps : Nat} (enough : 16 ≤ steps) (sum : String) (tail : List Symbol) :
    Takes false signatureView (signature steps) (signatureSymbols sum) (.sign braceOpen :: tail)
      ({ list := [.ofNames ["node"] (.ofName sum), .ofNames ["v"] (Tree.visitor sum)] },
        Tree.visitResults) :=
  .of_next (uniform enough).signature (by with_unfolding_all rfl) nofun

private theorem takes_resultParameter {steps : Nat} (enough : 8 ≤ steps) (place : Code.Place)
    (tail : List Symbol) :
    Takes false (Members.erase GoExpr.erase) (typeParameters place [] steps)
      [.name "R", .name "any", .sign "]"] (.sign "(" :: tail) Tree.resultParameter := by
  have read : outcome (Members.erase GoExpr.erase) (typeParameters {} [] 8)
      ([.name "R", .name "any", .sign "]"] ++ [.sign "("]) =
      some (Tree.resultParameter, [.sign "("]) := rfl
  exact .of_next ((uniform enough).typeParameters rfl) read nofun

/-- The function that calls the method of a visitor for the variant at hand. -/
theorem declares_visitFunction {imports : List Import} (named : isName sum = true)
    (valid : ∀ variant ∈ variants, isName variant.name = true)
    (known : isName (Import.nameOf imports "fmt") = true) :
    Declares (Generation.visitFunction imports sum variants).chars
      (Tree.visitFunction imports sum variants) := by
  have lines : Generation.visitFunction imports sum variants = .rows "func"
      (some ("// Visit" ++ sum ++ " dispatches node to the method of v handling its variant."))
      ((Generation.braced ("func Visit" ++ sum ++ "[R any](node " ++ sum ++ ", v " ++ sum ++
        "Visitor[R]) (R, error)") (bodyLines (Import.nameOf imports "fmt") sum variants)).map
          Row.ofLine) := rfl
  rw [lines, chars_braced (endsVisibly_bodyLines _ sum variants), Tree.visitFunction]
  generalize Import.nameOf imports "fmt" = package at known
  refine ⟨"func", .name ("Visit" ++ sum) :: .sign "[" :: ([.name "R", .name "any", .sign "]"] ++
    (signatureSymbols sum ++ (.sign braceOpen :: (bodySymbols package sum variants ++ [.sign braceClose]) ++
      [.lineEnd]))), ?_, rfl, ?_⟩
  · have body := spells_body known sum valid
    have closing : SpellsLines ['}', '\n'] [.sign braceClose, .lineEnd] :=
      .of_chunks [.sign '}', .newline] rfl rfl rfl rfl
    have comment : SpellsLines (("// Visit" ++ sum ++
        " dispatches node to the method of v handling its variant.").toList ++ ['\n']) [] := by
      refine .comment ("Visit".toList ++ (sum.toList ++
        " dispatches node to the method of v handling its variant.".toList)) (by simp) ?_
      simp only [List.all_append, all_canRemark_of_isWord (isWord_of_isName named)]
      decide +kernel
    have all := comment.append ((spells_head named).append (body.append closing))
    simpa using all
  · intro steps tail enough _
    simp only [List.length_append, List.length_cons, List.length_nil] at enough
    have count : variants.length ≤ (variants.flatMap caseSymbols).length :=
      length_le_length_flatMap caseSymbols (fun _ => Nat.succ_pos _) variants
    have inside : (variants.flatMap caseSymbols).length ≤ (bodySymbols package sum variants).length := by
      simp only [bodySymbols, switchSymbols, List.length_append, List.length_cons]
      omega
    obtain ⟨steps, rfl⟩ : ∃ fewer, steps = fewer + 3 := Nat.exists_eq_add_of_le' (by omega)
    have atMost : variants.length ≤ steps + 1 := by omega
    have body := takes_body (by omega) atMost package sum steps (.lineEnd :: tail)
    exact .functionDeclaration (fun place => takes_resultParameter (by omega) place _)
      (takes_signature (by omega) sum _) body.block

end Visitors

section Imports

variable {imports : List Import} {entry : Import}

private theorem perm_insert (entry : Import) (entries : List Import) :
    (Import.insert entry entries).Perm (entry :: entries) := by
  induction entries with
  | nil => exact .refl _
  | cons other entries ih =>
    rw [Import.insert]
    split
    · exact (ih.cons other).trans (.swap ..)
    · exact .refl _

/-- Sorting neither loses nor adds an import. -/
theorem perm_sort (imports : List Import) : (Import.sort imports).Perm imports := by
  induction imports with
  | nil => exact .refl _
  | cons entry imports ih => exact (perm_insert entry _).trans (ih.cons entry)

/-- The symbols of an import behind the keyword. -/
def importSymbols (entry : Import) : List Symbol :=
  (if entry.named then some entry.name else none).toList.map .name ++
    [.text (Quoted.text entry.path), .lineEnd]

private theorem endsVisibly_text (content : String) : endsVisibly (Quoted.text content) = true := by
  rw [endsVisibly, Quoted.text, String.toList_ofList, List.getLast?_concat]
  rfl

/-- The line of an import ends with something that can be seen. -/
theorem endsVisibly_render (entry : Import) : endsVisibly entry.render = true :=
  endsVisibly_append (endsVisibly_text entry.path)

/-- The line of an import spells its symbols. -/
theorem spells_render (named : isName entry.name = true) (ends : Bool) :
    Spells ends true (entry.render.toList ++ ['\n']) (importSymbols entry) := by
  obtain ⟨path, name, _ | _⟩ := entry
  · have apart : Chunk.areApart [.quoted path, .newline] = true := rfl
    have spells : Spells ends true _ (importSymbols ⟨path, name, false⟩) :=
      Chunk.spells apart rfl ends true
    simpa [Chunk.chars, Import.render] using spells
  · have apart : Chunk.areApart [.name name, .blank, .quoted path, .newline] = true := rfl
    have spells : Spells ends true _ (importSymbols ⟨path, name, true⟩) :=
      Chunk.spells apart (by simpa [Chunk.names] using named) ends true
    simpa [Chunk.chars, Import.render] using spells

/-- The symbols of an import leave nothing open. -/
theorem closed_importSymbols (front : List Symbol) (entry : Import) :
    ((front ++ importSymbols entry).getLast?.map Symbol.canEnd).getD false = false := by
  simp [importSymbols, List.getLast?_append, Symbol.canEnd]

/-- The symbols of an import are read as the import. -/
theorem takes_import (steps : Nat) (entry : Import) (tail : List Symbol) :
    Takes false GoSpec.erase (spec "import" (steps + 1)) (importSymbols entry) tail
      (Tree.importSpec entry) := by
  have read : Takes false GoSpec.erase (spec "import" (steps + 1)) (importSymbols entry) tail _ :=
    .importSpec (if entry.named then some entry.name else none) (Quoted.text entry.path)
  obtain ⟨path, name, _ | _⟩ := entry <;> exact read

/-- The symbols of an import do not start with a sign. -/
theorem importSymbols_eq_cons (entry : Import) :
    ∃ symbol more, importSymbols entry = symbol :: more ∧ ∀ spelling, symbol ≠ .sign spelling := by
  obtain ⟨path, name, _ | _⟩ := entry <;> exact ⟨_, _, rfl, nofun⟩

private theorem takes_imports (steps : Nat) (entries : List Import) (limit : Nat)
    (atMost : entries.length ≤ limit) {tail : List Symbol}
    (ends : tail.head? = some (.sign ")")) :
    Takes false (List.map GoSpec.erase) (many (· ≠ .sign ")") (spec "import" (steps + 1)) limit)
      (entries.flatMap importSymbols) tail (entries.map Tree.importSpec) := by
  induction entries generalizing limit with
  | nil => exact .many_nil (by rw [ends]; rfl) limit
  | cons entry entries ih =>
    rw [List.length_cons] at atMost
    obtain ⟨limit, rfl⟩ := Nat.exists_eq_add_of_le' (Nat.le_trans (Nat.le_add_left 1 _) atMost)
    have first := takes_import steps entry (entries.flatMap importSymbols ++ tail)
    obtain ⟨symbol, more, same, notSign⟩ := importSymbols_eq_cons entry
    rw [same] at first
    rw [List.flatMap_cons, same]
    exact .many_cons (by simpa using notSign ")") first (ih limit (by omega))

/-- A single import. -/
theorem imports_single (named : isName entry.name = true) :
    Imports (("import " ++ entry.render).toList ++ ['\n'])
      (.group "import" {} none [Tree.importSpec entry]) := by
  refine ⟨"import", importSymbols entry, ⟨?_, closed_importSymbols [.keyword "import"] entry⟩, rfl, ?_⟩
  · have chars : ("import " ++ entry.render).toList ++ ['\n'] =
        "import".toList ++ ' ' :: (entry.render.toList ++ ['\n']) := by
      simp
    rw [chars]
    exact .word (by decide +kernel) (by decide +kernel) (.blank (.inl rfl) (spells_render named _))
  · intro steps tail enough _
    obtain ⟨steps, rfl⟩ : ∃ fewer, steps = fewer + 2 := Nat.exists_eq_add_of_le' (by omega)
    have inner := takes_import steps entry tail
    obtain ⟨symbol, more, same, notSign⟩ := importSymbols_eq_cons entry
    rw [same] at inner ⊢
    exact inner.importDeclaration (notSign "(")

/-- Imports between parentheses. -/
theorem imports_group {entries : List Import} (named : ∀ entry ∈ entries, isName entry.name = true) :
    Imports ("import (\n".toList ++ (entries.flatMap (fun entry =>
        '\t' :: (entry.render.toList ++ ['\n'])) ++ [')', '\n']))
      (.group "import" {} (some ({}, {})) (entries.map Tree.importSpec)) := by
  refine ⟨"import", .sign "(" :: (entries.flatMap importSymbols ++ [.sign ")", .lineEnd]), ?_, rfl, ?_⟩
  · have opening : SpellsLines "import (\n".toList [.keyword "import", .sign "("] :=
      .of_chunks [.keyword "import", .blank, .sign '(', .newline] rfl rfl (by simp [Chunk.chars]) rfl
    have lines : SpellsLines (entries.flatMap fun entry => '\t' :: (entry.render.toList ++ ['\n']))
        (entries.flatMap importSymbols) :=
      .flatMap fun entry member => ⟨.blank (.inr rfl) (spells_render (named entry member) _),
        closed_importSymbols [] entry⟩
    have closing : SpellsLines [')', '\n'] [.sign ")", .lineEnd] :=
      .of_chunks [.sign ')', .newline] rfl rfl rfl rfl
    exact opening.append (lines.append closing)
  · intro steps tail enough _
    simp only [List.length_append, List.length_cons, List.length_nil] at enough
    have count : entries.length ≤ (entries.flatMap importSymbols).length :=
      length_le_length_flatMap importSymbols (by simp [importSymbols]) entries
    obtain ⟨steps, rfl⟩ : ∃ fewer, steps = fewer + 2 := Nat.exists_eq_add_of_le' (by omega)
    exact (takes_imports steps entries (steps + 1) (by omega) rfl).importGroup

/-- The piece with the imports says which packages are imported. -/
theorem imports_importPieces (named : ∀ entry ∈ imports, isName entry.name = true) :
    List.Forall₂ (fun piece tree => Imports piece.chars tree) (Generation.importPieces imports)
      (Tree.importDeclarations imports) := by
  have known : ∀ entry ∈ Import.sort imports, isName entry.name = true :=
    fun entry member => named entry ((perm_sort imports).mem_iff.mp member)
  unfold Generation.importPieces Tree.importDeclarations Import.renderAll
  rw [← (perm_sort imports).isEmpty_eq]
  generalize Import.sort imports = entries at known
  obtain _ | ⟨entry, _ | ⟨second, others⟩⟩ := entries
  · exact .nil
  · refine .cons ?_ .nil
    have visible : ["import " ++ entry.render].all endsVisibly = true := by
      rw [List.all_cons, endsVisibly_append (endsVisibly_render entry)]
      rfl
    rw [Piece.chars_rows visible]
    simpa [charsOf] using imports_single (known entry (List.mem_cons_self ..))
  · refine .cons ?_ .nil
    have visible : (["import ("] ++ (entry :: second :: others).map (fun entry =>
        "\t" ++ entry.render) ++ [")"]).all endsVisibly = true := by
      simp only [List.all_append, List.all_map, Bool.and_eq_true]
      refine ⟨⟨by decide, List.all_eq_true.mpr fun entry _ => ?_⟩, by decide⟩
      exact endsVisibly_append (endsVisibly_render entry)
    show Imports (Piece.rows "import" none (List.map Row.ofLine _)).chars _
    rw [Piece.chars_rows visible]
    simpa [charsOf, List.flatMap_map] using imports_group known

end Imports

end SumType

end Scriptlet

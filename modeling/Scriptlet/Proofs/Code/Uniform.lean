import Scriptlet.Proofs.Code.Following

/-!
# Rules that do not depend on places

Every rule of the grammar follows itself with more steps. It reads the same wherever the
symbols stand, whatever is behind those that it takes, and however many steps are left.
-/

namespace Scriptlet

namespace Code

namespace GoReader

/-- Every rule follows itself with more steps. -/
structure Uniform (tail : List Symbol) (steps more : Nat) : Prop where
  expr (least : Nat) : Follows tail GoExpr.erase (expr least steps) (expr least more)
  binaryTail (least : Nat) {left left' : GoExpr} (alike : left.erase = left'.erase) :
    Follows tail GoExpr.erase (binaryTail least left steps) (binaryTail least left' more)
  unary : Follows tail GoExpr.erase (unary steps) (unary more)
  operand : Follows tail GoExpr.erase (operand steps) (operand more)
  primaryTail {inner inner' : GoExpr} (alike : inner.erase = inner'.erase) :
    Follows tail GoExpr.erase (primaryTail inner steps) (primaryTail inner' more)
  callTail : Follows tail (Prod.map (List.map (Member.erase GoExpr.erase)) (Option.map fun _ => ()))
    (callTail steps) (callTail more)
  indexTail {inner inner' : GoExpr} (alike : inner.erase = inner'.erase) :
    Follows tail GoExpr.erase (indexTail inner steps) (indexTail inner' more)
  bound : Follows tail (Option.map (Member.erase GoExpr.erase)) (bound steps) (bound more)
  part : Follows tail GoExpr.erase (part steps) (part more)
  partContent : Follows tail GoExpr.erase (partContent steps) (partContent more)
  type : Follows tail GoExpr.erase (type steps) (type more)
  namedType {first first' : Label} (alike : first.erase = first'.erase) :
    Follows tail GoExpr.erase (namedType first steps) (namedType first' more)
  arrayTail {place place' : Place} :
    Follows tail GoExpr.erase (arrayTail place steps) (arrayTail place' more)
  arrayOrArguments {name name' : Label} (alike : name.erase = name'.erase) :
    Follows tail (Prod.map (Option.map Label.erase) GoExpr.erase) (arrayOrArguments name steps)
      (arrayOrArguments name' more)
  signature : Follows tail (Prod.map (Members.erase GoExpr.erase) (Members.erase GoExpr.erase))
    (signature steps) (signature more)
  parameter : Follows tail Entry.erase (parameter steps) (parameter more)
  namedFields : Follows tail (Prod.map (List.map Label.erase) GoExpr.erase) (namedFields steps)
    (namedFields more)
  field : Follows tail (Member.erase GoExpr.erase) (field steps) (field more)
  element : Follows tail (Member.erase GoExpr.erase) (element steps) (element more)
  unionTail {left left' : GoExpr} (alike : left.erase = left'.erase) :
    Follows tail GoExpr.erase (unionTail left steps) (unionTail left' more)
  term : Follows tail GoExpr.erase (term steps) (term more)
  constraint {name name' : Label} (alike : name.erase = name'.erase) :
    Follows tail Entry.erase (constraint name steps) (constraint name' more)
  typeParameters {opening opening' : Place} {entries entries' : List Entry}
    (alike : entries.map Entry.erase = entries'.map Entry.erase) :
    Follows tail (Members.erase GoExpr.erase) (typeParameters opening entries steps)
      (typeParameters opening' entries' more)
  moreParameters {opening opening' : Place} {first first' : Entry}
    (alike : first.erase = first'.erase) :
    Follows tail (Members.erase GoExpr.erase) (moreParameters opening first steps)
      (moreParameters opening' first' more)
  parametersOrArray : Follows tail (Sum.map (Members.erase GoExpr.erase) GoExpr.erase)
    (parametersOrArray steps) (parametersOrArray more)
  declaredType : Follows tail (Prod.map (Members.erase GoExpr.erase) (Prod.map id GoExpr.erase))
    (declaredType steps) (declaredType more)
  spec (keyword : String) : Follows tail GoSpec.erase (spec keyword steps) (spec keyword more)
  declarations (keyword : String) :
    Follows tail GoDecl.erase (declarations keyword steps) (declarations keyword more)
  short (labels ranges : Bool) :
    Follows tail Short.erase (short labels ranges steps) (short labels ranges more)
  headStmt : Follows tail GoStmt.erase (headStmt steps) (headStmt more)
  statement : Follows tail GoStmt.erase (statement steps) (statement more)
  simpleStmt : Follows tail GoStmt.erase (simpleStmt steps) (simpleStmt more)
  conditional : Follows tail GoStmt.erase (conditional steps) (conditional more)
  switch : Follows tail GoStmt.erase (switch steps) (switch more)
  clause : Follows tail GoStmt.erase (clause steps) (clause more)
  ready : Follows tail GoStmt.erase (ready steps) (ready more)
  loop : Follows tail GoStmt.erase (loop steps) (loop more)

variable {tail : List Symbol} {steps more : Nat}

namespace Uniform

/-- One more step for expressions of a least strength. -/
theorem expr_succ (rules : Uniform tail steps more) (least : Nat) :
    Follows tail GoExpr.erase (GoReader.expr least (steps + 1))
      (GoReader.expr least (more + 1)) := by
  rw [GoReader.expr, GoReader.expr]
  exact rules.unary.bind fun _ _ alike => rules.binaryTail least alike

/-- One more step for what follows the left side of an operator. -/
theorem binaryTail_succ (rules : Uniform tail steps more) (least : Nat) {left left' : GoExpr}
    (alike : left.erase = left'.erase) :
    Follows tail GoExpr.erase (GoReader.binaryTail least left (steps + 1))
      (GoReader.binaryTail least left' (more + 1)) := by
  rw [GoReader.binaryTail, GoReader.binaryTail]
  refine .bind_id .peek fun next => ?_
  split
  · split
    · refine .ite Iff.rfl ?_ (.pure alike)
      refine .bind_id (.sign _) fun _ => .bind .lastPlace fun _ _ _ =>
        (rules.expr _).bind fun right right' same => rules.binaryTail least ?_
      simp [GoExpr.erase, alike, same]
    · exact .pure alike
  · exact .pure alike

/-- One more step for operators in front of an operand. -/
theorem unary_succ (rules : Uniform tail steps more) :
    Follows tail GoExpr.erase (GoReader.unary (steps + 1)) (GoReader.unary (more + 1)) := by
  rw [GoReader.unary, GoReader.unary]
  refine .bind .nextPlace fun place place' _ => .bind_id .peek fun next => ?_
  split
  · exact .bind_id (.sign _) fun _ => rules.unary.bind fun _ _ alike =>
      .pure (by simp [GoExpr.erase, alike])
  · refine .bind_id (.sign _) fun _ => rules.unary.bind fun inner inner' alike => ?_
    refine .ite (by rw [GoExpr.eq_of_erase GoExpr.isChannel_erase alike]) (.lift ?_)
      (.pure (by simp [GoExpr.erase, alike]))
    rw [map_receiving, map_receiving, alike]
  · refine .ite Iff.rfl ?_ (rules.operand.bind fun _ _ alike => rules.primaryTail alike)
    exact .bind_id (.sign _) fun _ => rules.unary.bind fun _ _ alike =>
      .pure (by simp [GoExpr.erase, alike])
  · exact rules.operand.bind fun _ _ alike => rules.primaryTail alike

/-- One more step for operands. -/
theorem operand_succ (rules : Uniform tail steps more) (atMost : steps ≤ more) :
    Follows tail GoExpr.erase (GoReader.operand (steps + 1)) (GoReader.operand (more + 1)) := by
  rw [GoReader.operand, GoReader.operand]
  refine .bind .nextPlace fun place place' _ => .bind_id .peek fun next => ?_
  split
  · exact .bind .label fun label label' alike => .pure (by simp [GoExpr.erase, alike])
  · refine .bind_id (.sign _) fun _ => ((rules.expr 1).within false).guarded.bind_pair ?_
    intro inner inner' guards _ alike same
    obtain rfl : guards = _ := same
    exact .bind_id (.sign _) fun _ => .bind .lastPlace fun _ _ _ =>
      .pure (by rw [GoExpr.erase_grouped, GoExpr.erase_grouped, alike])
  · refine .bind_id (.keyword _) fun _ => rules.signature.bind_pair ?_
    intro parameters parameters' results results' alike same
    refine .bind_id .peek fun next => ?_
    refine .ite Iff.rfl ((rules.statement.block atMost).bind fun body body' same' => ?_) ?_
    · exact .pure (by simp [GoExpr.erase, alike, same, same'])
    · exact .pure (by simp [GoExpr.erase, alike, same])
  · split
    · exact .bind_id (.take _) fun _ => .pure rfl
    · exact .bind_id (.take _) fun _ => .pure rfl
    · exact .bind_id (.take _) fun _ => .pure rfl
    · exact rules.type
  · exact .failure

/-- One more step for what is selected, called or indexed. -/
theorem primaryTail_succ (rules : Uniform tail steps more) (atMost : steps ≤ more)
    {inner inner' : GoExpr} (alike : inner.erase = inner'.erase) :
    Follows tail GoExpr.erase (GoReader.primaryTail inner (steps + 1))
      (GoReader.primaryTail inner' (more + 1)) := by
  rw [GoReader.primaryTail, GoReader.primaryTail]
  refine .bind_id .peek fun next => ?_
  split
  · refine .bind_id (.sign _) fun _ => .bind_id (.optional _) fun opens => ?_
    refine .ite Iff.rfl ?_ ?_
    · refine .bind .lastPlace fun _ _ _ => ?_
      refine .bind_id (.optional _) fun asks => ?_
      extract_lets goOn goOn'
      have joined (asked asked' : Option GoExpr)
          (same : asked.map GoExpr.erase = asked'.map GoExpr.erase) :
          Follows tail GoExpr.erase (goOn asked) (goOn' asked') :=
        .bind_id (.sign _) fun _ => .bind .lastPlace fun _ _ _ => rules.primaryTail (by
          simp [GoExpr.erase, alike, same])
      refine .ite Iff.rfl (joined none none rfl) ?_
      exact rules.type.bind fun type type' same => joined (some type) (some type') (congrArg some same)
    · exact .bind .label fun label label' same => rules.primaryTail (by
        simp [GoExpr.erase, alike, same])
  · exact .bind_id (.sign _) fun _ => ((rules.indexTail alike).within false).bind
      fun _ _ same => rules.primaryTail same
  · refine .bind_id (.sign _) fun _ => .bind .lastPlace fun _ _ _ =>
      (rules.callTail.within false).bind_pair ?_
    intro list list' dots dots' same same'
    refine .bind .lastPlace fun _ _ _ => rules.primaryTail ?_
    cases dots <;> cases dots' <;> simp_all [GoExpr.erase, Members.erase]
  · refine .bind .get fun rest rest' same => ?_
    refine .ite ?_ ?_ (.pure alike)
    · rw [same, ← startsParts_erase, GoExpr.erase_ungrouped, alike, ← GoExpr.erase_ungrouped,
        startsParts_erase]
    extract_lets goOn goOn'
    have joined : Follows tail GoExpr.erase (goOn ()) (goOn' ()) := by
      refine .bind_id (.sign _) fun _ =>
        ((rules.part.membersUpTo atMost).within false).guarded.bind_pair ?_
      intro parts parts' _ _ same' _
      have named : inner.isTypeName = inner'.isTypeName := GoExpr.eq_of_erase GoExpr.isTypeName_erase alike
      rw [named]
      exact .bind_id (.note _) fun _ => rules.primaryTail (by simp [GoExpr.erase, alike, same'])
    exact .ite (by rw [GoExpr.eq_of_erase GoExpr.isGroup_erase alike]) .failure joined
  · exact .pure alike

/-- One more step for the arguments of a call. -/
theorem callTail_succ (rules : Uniform tail steps more) :
    Follows tail (Prod.map (List.map (Member.erase GoExpr.erase)) (Option.map fun _ => ()))
      (GoReader.callTail (steps + 1)) (GoReader.callTail (more + 1)) := by
  rw [GoReader.callTail, GoReader.callTail]
  refine .bind_id (.optional _) fun closes => .ite Iff.rfl (.pure rfl) ?_
  refine (rules.expr 1).member.bind fun first first' alike => ?_
  refine .bind_id (.optional _) fun spreads => .ite Iff.rfl ?_ ?_
  · exact .bind .lastPlace fun _ _ _ => .bind_id (.optional _) fun _ => .bind_id (.sign _) fun _ =>
      .pure (by simp [alike])
  · refine .bind_id (.optional _) fun goesOn => .ite Iff.rfl ?_ ?_
    · refine rules.callTail.bind_pair fun list list' dots dots' same same' => ?_
      exact .pure (by simp [alike, same, same'])
    · exact .bind_id (.sign _) fun _ => .pure (by simp [alike])

/-- Members that may be missing are alike if there are as many. -/
theorem length_eq_of_bounds {bounds bounds' : List (Option (Member GoExpr))}
    (alike : bounds.map (Option.map (Member.erase GoExpr.erase)) =
      bounds'.map (Option.map (Member.erase GoExpr.erase))) : bounds.length = bounds'.length := by
  simpa using congrArg List.length alike

private theorem all_isSome_eq_of_bounds {bounds bounds' : List (Option (Member GoExpr))}
    (alike : bounds.map (Option.map (Member.erase GoExpr.erase)) =
      bounds'.map (Option.map (Member.erase GoExpr.erase))) :
    bounds.all Option.isSome = bounds'.all Option.isSome := by
  simpa [List.all_map, Function.comp_def] using congrArg (List.all · Option.isSome) alike

private theorem content_eq_of_bound {bound bound' : Option (Member GoExpr)}
    (alike : bound.map (Member.erase GoExpr.erase) = bound'.map (Member.erase GoExpr.erase)) :
    (bound.map (·.content)).map GoExpr.erase = (bound'.map (·.content)).map GoExpr.erase := by
  simpa [Option.map_map, Function.comp_def] using congrArg (Option.map (·.content)) alike

private theorem contents_eq_of_bounds {bounds bounds' : List (Option (Member GoExpr))}
    (alike : bounds.map (Option.map (Member.erase GoExpr.erase)) =
      bounds'.map (Option.map (Member.erase GoExpr.erase))) :
    (bounds.map (Option.map (·.content))).map (Option.map GoExpr.erase) =
      (bounds'.map (Option.map (·.content))).map (Option.map GoExpr.erase) := by
  simpa [List.map_map, Function.comp_def, Option.map_map] using
    congrArg (List.map (Option.map (·.content))) alike

/-- One more step for indices, slices and type arguments. -/
theorem indexTail_succ (rules : Uniform tail steps more) (atMost : steps ≤ more)
    {inner inner' : GoExpr} (alike : inner.erase = inner'.erase) :
    Follows tail GoExpr.erase (GoReader.indexTail inner (steps + 1))
      (GoReader.indexTail inner' (more + 1)) := by
  rw [GoReader.indexTail, GoReader.indexTail]
  refine .bind .lastPlace fun _ _ _ => rules.bound.bind fun first first' same => ?_
  refine .bind_id .peek fun next => ?_
  split
  · have further : Follows tail (Option.map (Member.erase GoExpr.erase))
        (do GoReader.sign ":"; GoReader.bound steps) (do GoReader.sign ":"; GoReader.bound more) :=
      .bind_id (.sign _) fun _ => rules.bound
    refine (further.many (Nat.le_refl 3)).bind fun others others' same' => ?_
    refine .bind_id (.sign _) fun _ => .ite ?_ (.bind .lastPlace fun _ _ _ => .pure ?_) .failure
    · rw [length_eq_of_bounds same', all_isSome_eq_of_bounds same']
    · simp [GoExpr.erase, alike, contents_eq_of_bounds same', content_eq_of_bound same]
  · refine (Follows.lift same).bind fun first first' same => ?_
    refine .bind_id (.optional _) fun goesOn => ?_
    extract_lets goOn goOn'
    have joined (others others' : List (Member GoExpr))
        (same' : others.map (Member.erase GoExpr.erase) = others'.map (Member.erase GoExpr.erase)) :
        Follows tail GoExpr.erase (goOn others) (goOn' others') :=
      .bind .lastPlace fun _ _ _ => .pure (by
        simp [GoExpr.erase, Members.erase, alike, same, same'])
    refine .ite Iff.rfl ((rules.type.member.separated atMost).bind joined) ?_
    exact .bind_id (.sign _) fun _ => joined [] [] rfl

/-- One more step for a bound of a slice. -/
theorem bound_succ (rules : Uniform tail steps more) :
    Follows tail (Option.map (Member.erase GoExpr.erase)) (GoReader.bound (steps + 1))
      (GoReader.bound (more + 1)) := by
  rw [GoReader.bound, GoReader.bound]
  refine .bind_id .peek fun next => .ite Iff.rfl (.pure rfl) ?_
  exact (rules.expr 1).member.bind fun _ _ alike => .pure (by simp [alike])

/-- One more step for a part of a value. -/
theorem part_succ (rules : Uniform tail steps more) :
    Follows tail GoExpr.erase (GoReader.part (steps + 1)) (GoReader.part (more + 1)) := by
  rw [GoReader.part, GoReader.part]
  refine rules.partContent.bind fun key key' alike => ?_
  refine .bind_id (.optional _) fun hasKey => .ite Iff.rfl ?_ (.pure alike)
  exact .bind .lastPlace fun _ _ _ => rules.partContent.bind fun _ _ same =>
    .pure (by simp [GoExpr.erase, alike, same])

/-- One more step for the content of a part. -/
theorem partContent_succ (rules : Uniform tail steps more) (atMost : steps ≤ more) :
    Follows tail GoExpr.erase (GoReader.partContent (steps + 1))
      (GoReader.partContent (more + 1)) := by
  rw [GoReader.partContent, GoReader.partContent]
  refine .bind_id (.optional _) fun opens => .ite Iff.rfl ?_ (rules.expr 1)
  exact (rules.part.membersUpTo atMost).bind fun _ _ alike => .pure (by simp [GoExpr.erase, alike])

/-- One more step for types. -/
theorem type_succ (rules : Uniform tail steps more) (atMost : steps ≤ more) :
    Follows tail GoExpr.erase (GoReader.type (steps + 1)) (GoReader.type (more + 1)) := by
  rw [GoReader.type, GoReader.type]
  refine .bind .nextPlace fun place place' _ => .bind_id .peek fun next => ?_
  split
  · exact .bind .label fun _ _ alike => rules.namedType alike
  · exact .bind_id (.sign _) fun _ => rules.arrayTail
  · exact .bind_id (.sign _) fun _ => rules.type.bind fun _ _ alike =>
      .pure (by simp [GoExpr.erase, alike])
  · exact .bind_id (.sign _) fun _ => rules.type.bind fun _ _ alike =>
      .bind_id (.sign _) fun _ => .bind .lastPlace fun _ _ _ =>
        .pure (by rw [GoExpr.erase_grouped, GoExpr.erase_grouped, alike])
  · exact .bind_id (.sign _) fun _ => .bind_id (.keyword _) fun _ =>
      rules.type.bind fun _ _ alike => .pure (by simp [GoExpr.erase, alike])
  · refine .bind_id (.keyword _) fun _ => .bind_id (.optional _) fun sends => ?_
    extract_lets goOn goOn'
    have joined (direction direction' : Direction) (same : direction.erase = direction'.erase) :
        Follows tail GoExpr.erase (goOn direction) (goOn' direction') :=
      rules.type.bind fun _ _ alike => .pure (by simp [GoExpr.erase, same, alike])
    refine .ite Iff.rfl ?_ (joined .both .both rfl)
    exact .bind .lastPlace fun place place' _ => joined (.send place) (.send place') rfl
  · exact .bind_id (.keyword _) fun _ => .bind_id (.sign _) fun _ =>
      rules.type.bind fun _ _ alike => .bind_id (.sign _) fun _ =>
        rules.type.bind fun _ _ same => .pure (by simp [GoExpr.erase, alike, same])
  · exact .bind_id (.keyword _) fun _ => rules.signature.bind_pair fun _ _ _ _ alike same =>
      .pure (by simp [GoExpr.erase, alike, same])
  · exact .bind_id (.keyword _) fun _ => (rules.field.many atMost).braced.bind fun _ _ alike =>
      .pure (by simp [GoExpr.erase, alike])
  · exact .bind_id (.keyword _) fun _ => (rules.element.many atMost).braced.bind fun _ _ alike =>
      .pure (by simp [GoExpr.erase, alike])
  · exact .failure

/-- One more step for types with a name. -/
theorem namedType_succ (rules : Uniform tail steps more) (atMost : steps ≤ more)
    {first first' : Label} (alike : first.erase = first'.erase) :
    Follows tail GoExpr.erase (GoReader.namedType first (steps + 1))
      (GoReader.namedType first' (more + 1)) := by
  rw [GoReader.namedType, GoReader.namedType]
  refine .bind_id (.optional _) fun qualified => ?_
  extract_lets goOn goOn'
  have joined (named named' : GoExpr) (same : named.erase = named'.erase) :
      Follows tail GoExpr.erase (goOn named) (goOn' named') := by
    refine .bind_id (.optional _) fun opens => .ite Iff.rfl ?_ (.pure same)
    refine ((rules.type.membersUpTo atMost).within false).bind fun arguments arguments' same' => ?_
    refine .ite ?_ .failure (.pure (by simp [GoExpr.erase, same, same']))
    rw [Members.isEmpty_eq_of_erase same']
  refine .ite Iff.rfl ?_ (joined (.name first) (.name first') (by simp [GoExpr.erase, alike]))
  exact .bind .label fun label label' same =>
    joined (.selected (.name first) label) (.selected (.name first') label') (by
      simp [GoExpr.erase, alike, same])

/-- One more step for arrays behind their bracket. -/
theorem arrayTail_succ (rules : Uniform tail steps more) {place place' : Place} :
    Follows tail GoExpr.erase (GoReader.arrayTail place (steps + 1))
      (GoReader.arrayTail place' (more + 1)) := by
  rw [GoReader.arrayTail, GoReader.arrayTail]
  refine .bind_id .peek fun next => ?_
  extract_lets goOn goOn'
  have joined (length length' : Option GoExpr)
      (alike : length.map GoExpr.erase = length'.map GoExpr.erase) :
      Follows tail GoExpr.erase (goOn length) (goOn' length') :=
    .bind_id (.sign _) fun _ => rules.type.bind fun _ _ same => .pure (by
      simp [GoExpr.erase, alike, same])
  split
  · exact joined none none rfl
  · exact .bind_id (.sign _) fun _ => .bind .lastPlace fun place place' _ =>
      joined (some (.dots place none)) (some (.dots place' none)) rfl
  · exact ((rules.expr 1).within false).bind fun length length' alike =>
      joined (some length) (some length') (congrArg some alike)

/-- One more step for a bracket that starts an array or type arguments. -/
theorem arrayOrArguments_succ (rules : Uniform tail steps more) (atMost : steps ≤ more)
    {name name' : Label} (alike : name.erase = name'.erase) :
    Follows tail (Prod.map (Option.map Label.erase) GoExpr.erase)
      (GoReader.arrayOrArguments name (steps + 1))
      (GoReader.arrayOrArguments name' (more + 1)) := by
  rw [GoReader.arrayOrArguments, GoReader.arrayOrArguments]
  refine .bind .lastPlace fun opening opening' _ => .bind_id (.optional _) fun closes => ?_
  refine .ite Iff.rfl (rules.type.bind fun _ _ same => .pure (by
    simp [GoExpr.erase, alike, same])) ?_
  refine ((rules.expr 1).member.within false).bind fun first first' same => ?_
  refine .bind_id .peek fun next => ?_
  extract_lets isSingle goOn goOn'
  refine .bind_id (.optional _) fun goesOn => ?_
  have joined (others others' : List (Member GoExpr))
      (same' : others.map (Member.erase GoExpr.erase) = others'.map (Member.erase GoExpr.erase)) :
      Follows tail (Prod.map (Option.map Label.erase) GoExpr.erase) (goOn others)
        (goOn' others') := by
    refine .bind .lastPlace fun closing closing' _ => .bind_id .peek fun next => ?_
    refine .ite ?_ (.ite Iff.rfl ?_ .failure) (.pure ?_)
    · rw [show others.isEmpty = others'.isEmpty by simpa using congrArg List.isEmpty same']
    · have content : first.content.erase = first'.content.erase := congrArg (·.content) same
      exact rules.type.bind fun _ _ same => .pure (by simp [GoExpr.erase, alike, same, content])
    · simp [GoExpr.erase, Members.erase, alike, same, same']
  refine .ite Iff.rfl (((rules.expr 1).member.separated atMost).within false |>.bind joined) ?_
  exact .bind_id (.sign _) fun _ => joined [] [] rfl

/-- One more step for parameters and results. -/
theorem signature_succ (rules : Uniform tail steps more) (atMost : steps ≤ more) :
    Follows tail (Prod.map (Members.erase GoExpr.erase) (Members.erase GoExpr.erase))
      (GoReader.signature (steps + 1)) (GoReader.signature (more + 1)) := by
  rw [GoReader.signature, GoReader.signature]
  refine (rules.parameter.parameters atMost).bind fun taken taken' alike => ?_
  refine .bind_id .peek fun next => .ite Iff.rfl ?_ ?_
  · exact (rules.parameter.parameters atMost).bind fun _ _ same => .pure (by simp [alike, same])
  · refine .bind_id .peek fun next => .ite Iff.rfl ?_ (.pure (by simp [alike]))
    refine rules.type.member.bind fun result result' same => .pure (Prod.ext alike ?_)
    simp only [Member.erase, Member.mk.injEq] at same
    simp [Members.erase, Member.erase, GoExpr.erase_ungrouped, same]

/-- One more step for a parameter. -/
theorem parameter_succ (rules : Uniform tail steps more) :
    Follows tail Entry.erase (GoReader.parameter (steps + 1)) (GoReader.parameter (more + 1)) := by
  rw [GoReader.parameter, GoReader.parameter]
  refine .bind .nextPlace fun first first' _ => .bind_id .peek fun next => ?_
  extract_lets goOn goOn'
  have joined (entry entry' : Entry) (alike : entry.erase = entry'.erase) :
      Follows tail Entry.erase (goOn entry) (goOn' entry') :=
    .bind .lastLine fun _ _ _ => .pure alike
  split
  · refine .bind .label fun name name' alike => .bind_id .peek fun next => ?_
    split
    · exact (rules.namedType alike).bind fun _ _ same => joined _ _ (by simp [Entry.erase, same])
    · refine .bind_id (.sign _) fun _ => (rules.arrayOrArguments alike).bind_pair ?_
      intro name name' type type' alike same
      exact joined _ _ (by simp [Entry.erase, alike, same])
    · exact .bind_id (.sign _) fun _ => .bind .lastPlace fun _ _ _ => rules.type.bind fun _ _ same =>
        joined _ _ (by simp [Entry.erase, GoExpr.erase, alike, same])
    · refine .ite Iff.rfl ?_ (joined _ _ (by simp [Entry.erase, alike]))
      exact rules.type.bind fun _ _ same => joined _ _ (by simp [Entry.erase, alike, same])
    · exact .failure
  · exact .bind_id (.sign _) fun _ => rules.type.bind fun _ _ same =>
      joined _ _ (by simp [Entry.erase, GoExpr.erase, same])
  · exact rules.type.bind fun _ _ same => joined _ _ (by simp [Entry.erase, same])

/-- One more step for the terms of a union. -/
theorem unionTail_succ (rules : Uniform tail steps more) {left left' : GoExpr}
    (alike : left.erase = left'.erase) :
    Follows tail GoExpr.erase (GoReader.unionTail left (steps + 1))
      (GoReader.unionTail left' (more + 1)) := by
  rw [GoReader.unionTail, GoReader.unionTail]
  refine .bind_id (.optional _) fun goesOn => .ite Iff.rfl ?_ (.pure alike)
  exact .bind .lastPlace fun _ _ _ => rules.term.bind fun _ _ same => rules.unionTail (by
    simp [GoExpr.erase, alike, same])

/-- One more step for a term of a union. -/
theorem term_succ (rules : Uniform tail steps more) :
    Follows tail GoExpr.erase (GoReader.term (steps + 1)) (GoReader.term (more + 1)) := by
  rw [GoReader.term, GoReader.term]
  refine .bind .nextPlace fun _ _ _ => .bind_id (.optional _) fun tilde => ?_
  exact .ite Iff.rfl (rules.type.bind fun _ _ alike => .pure (by simp [GoExpr.erase, alike]))
    rules.type

/-- One more step for fields with names. -/
theorem namedFields_succ (rules : Uniform tail steps more) (atMost : steps ≤ more) :
    Follows tail (Prod.map (List.map Label.erase) GoExpr.erase) (GoReader.namedFields (steps + 1))
      (GoReader.namedFields (more + 1)) := by
  rw [GoReader.namedFields, GoReader.namedFields]
  refine .bind .nextPlace fun first first' _ => .bind_id (.optional _) fun pointed =>
    .ite Iff.rfl ?_ ?_
  · exact .bind .label fun name name' alike => (rules.namedType alike).bind fun _ _ same =>
      .pure (by simp [GoExpr.erase, same])
  · refine .bind .label fun name name' alike => .bind_id .peek fun next => ?_
    have embedded : Follows tail (Prod.map (List.map Label.erase) GoExpr.erase)
        (pure ([], .name name)) (pure ([], .name name')) :=
      .pure (by simp [GoExpr.erase, alike])
    split
    · exact (rules.namedType alike).bind fun _ _ same => .pure (by simp [same])
    · exact embedded
    · exact embedded
    · exact embedded
    · exact embedded
    · refine .bind_id (.sign _) fun _ => (rules.arrayOrArguments alike).bind_pair ?_
      intro name name' type type' alike same
      exact .pure (by cases name <;> cases name' <;> simp_all)
    · refine (Follows.moreNames atMost).bind fun names names' others => ?_
      exact rules.type.bind fun _ _ same => .pure (by simp [alike, others, same])

/-- One more step for a field. -/
theorem field_succ (rules : Uniform tail steps more) :
    Follows tail (Member.erase GoExpr.erase) (GoReader.field (steps + 1))
      (GoReader.field (more + 1)) := by
  rw [GoReader.field, GoReader.field]
  refine .bind .nextPlace fun first first' _ => rules.namedFields.bind_pair ?_
  intro names names' content content' alike same
  exact .bind .tag? fun tag tag' tagged => .bind .lastLine fun _ _ _ => .bind .finish fun _ _ _ =>
    .pure (by simp [Member.erase, alike, same, tagged])

/-- One more step for an element of an interface. -/
theorem element_succ (rules : Uniform tail steps more) (atMost : steps ≤ more) :
    Follows tail (Member.erase GoExpr.erase) (GoReader.element (steps + 1))
      (GoReader.element (more + 1)) := by
  rw [GoReader.element, GoReader.element]
  refine .bind .nextPlace fun first first' _ => .bind .peekTwo fun next next' seen => ?_
  extract_lets goOn goOn'
  have joined (names names' : List Label) (content content' : GoExpr)
      (alike : names.map Label.erase = names'.map Label.erase)
      (same : content.erase = content'.erase) :
      Follows tail (Member.erase GoExpr.erase) (goOn (names, content)) (goOn' (names', content')) :=
    .bind .lastLine fun _ _ _ => .bind .finish fun _ _ _ =>
      .pure (by simp [Member.erase, alike, same])
  cases named : behindName? next with
  | some start =>
    obtain ⟨spelling, symbol⟩ := start
    obtain rfl := eq_of_behindName? named
    obtain rfl := eq_of_behindName? (seen.symm.trans named)
    split
    · refine .bind .label fun name name' alike => .bind .nextPlace fun _ _ _ =>
        rules.signature.bind_pair ?_
      intro parameters parameters' results results' same same'
      exact joined _ _ _ _ (by simp [alike]) (by simp [GoExpr.erase, same, same'])
    · refine .bind .label fun name name' alike => .bind_id (.sign _) fun _ =>
        .bind .lastPlace fun opening opening' _ =>
          ((rules.expr 1).member.within false).bind fun argument argument' same => ?_
      extract_lets next next'
      have instantiated (others others' : List (Member GoExpr))
          (same' : others.map (Member.erase GoExpr.erase) =
            others'.map (Member.erase GoExpr.erase)) :
          Follows tail (Member.erase GoExpr.erase) (next others) (next' others') := by
        refine .bind .lastPlace fun _ _ _ => (rules.unionTail ?_).bind fun _ _ same =>
          joined [] [] _ _ rfl same
        simp [GoExpr.erase, Members.erase, alike, same, same']
      refine .bind_id (.optional _) fun goesOn => .ite Iff.rfl ?_ ?_
      · exact ((rules.type.member.separated atMost).within false).bind instantiated
      · exact .bind_id (.sign _) fun _ => instantiated [] [] rfl
    · exact rules.term.bind fun _ _ same => (rules.unionTail same).bind fun _ _ same =>
        joined [] [] _ _ rfl same
  | none =>
    have types : Follows tail (Member.erase GoExpr.erase)
        (do goOn ([], ← GoReader.unionTail (← GoReader.term steps) steps))
        (do goOn' ([], ← GoReader.unionTail (← GoReader.term more) more)) :=
      rules.term.bind fun _ _ same => (rules.unionTail same).bind fun _ _ same =>
        joined [] [] _ _ rfl same
    -- Only a name with something behind it starts anything else.
    have named' := seen.symm.trans named
    split
    · cases named
    · cases named
    · split
      · cases named'
      · cases named'
      · exact types

/-- One more step for the constraint of a type parameter. -/
theorem constraint_succ (rules : Uniform tail steps more) {name name' : Label}
    (alike : name.erase = name'.erase) :
    Follows tail Entry.erase (GoReader.constraint name (steps + 1))
      (GoReader.constraint name' (more + 1)) := by
  rw [GoReader.constraint, GoReader.constraint]
  refine .bind_id .peek fun next => ?_
  extract_lets goOn goOn'
  have joined (entry entry' : Entry) (alike : entry.erase = entry'.erase) :
      Follows tail Entry.erase (goOn entry) (goOn' entry') :=
    .bind .lastLine fun _ _ _ => .pure alike
  split
  · refine .bind_id (.sign _) fun _ => (rules.arrayOrArguments alike).bind_pair ?_
    intro name name' type type' alike same
    exact (rules.unionTail same).bind fun _ _ same => joined _ _ (by
      simp [Entry.erase, alike, same])
  · refine .ite Iff.rfl ?_ (joined _ _ (by simp [Entry.erase, alike]))
    exact rules.term.bind fun _ _ same => (rules.unionTail same).bind fun _ _ same =>
      joined _ _ (by simp [Entry.erase, alike, same])
  · exact .failure

/-- One more step for type parameters. -/
theorem typeParameters_succ (rules : Uniform tail steps more) (atMost : steps ≤ more)
    {opening opening' : Place} {entries entries' : List Entry}
    (alike : entries.map Entry.erase = entries'.map Entry.erase) :
    Follows tail (Members.erase GoExpr.erase)
      (GoReader.typeParameters opening entries (steps + 1))
      (GoReader.typeParameters opening' entries' (more + 1)) := by
  rw [GoReader.typeParameters, GoReader.typeParameters]
  have entry : Follows tail Entry.erase (do GoReader.constraint (← GoReader.label) steps)
      (do GoReader.constraint (← GoReader.label) more) :=
    .bind .label fun _ _ same => rules.constraint same
  refine (entry.parametersUpTo alike atMost).bind fun parameters parameters' same => ?_
  refine .ite ?_ .failure (.pure same)
  rw [Members.isEmpty_eq_of_erase same, Members.anyUnnamed_eq_of_erase same]

/-- One more step for type parameters behind the first one. -/
theorem moreParameters_succ (rules : Uniform tail steps more) {opening opening' : Place}
    {first first' : Entry} (alike : first.erase = first'.erase) :
    Follows tail (Members.erase GoExpr.erase) (GoReader.moreParameters opening first (steps + 1))
      (GoReader.moreParameters opening' first' (more + 1)) := by
  rw [GoReader.moreParameters, GoReader.moreParameters]
  refine .bind_id (.optional _) fun hasMore => .bind_id .peek fun next => ?_
  exact .ite Iff.rfl .failure (rules.typeParameters (by simp [alike]))

/-- One more step for a bracket that starts type parameters or an array. -/
theorem parametersOrArray_succ (rules : Uniform tail steps more) :
    Follows tail (Sum.map (Members.erase GoExpr.erase) GoExpr.erase)
      (GoReader.parametersOrArray (steps + 1)) (GoReader.parametersOrArray (more + 1)) := by
  rw [GoReader.parametersOrArray, GoReader.parametersOrArray]
  refine .bind .lastPlace fun opening opening' _ => .bind_id .peek fun next => ?_
  split
  · refine .bind .label fun name name' alike => .bind_id .peek fun next => ?_
    extract_lets goOn goOn'
    have joined (expr expr' : GoExpr) (same : expr.erase = expr'.erase) :
        Follows tail (Sum.map (Members.erase GoExpr.erase) GoExpr.erase) (goOn expr)
          (goOn' expr') := by
      refine .bind_id .peek fun next => ?_
      have array : Follows tail (Sum.map (Members.erase GoExpr.erase) GoExpr.erase)
          (do
            GoReader.sign "]"
            pure (Sum.inr (GoExpr.array opening (some expr) (← GoReader.type steps))))
          (do
            GoReader.sign "]"
            pure (Sum.inr (GoExpr.array opening' (some expr') (← GoReader.type more)))) :=
        .bind_id (.sign _) fun _ => rules.type.bind fun _ _ alike => .pure (by
          simp [GoExpr.erase, same, alike])
      have named : (expr.splitName (next = some (.sign ","))).map GoExpr.eraseNamed =
          (expr'.splitName (next = some (.sign ","))).map GoExpr.eraseNamed := by
        rw [← GoExpr.splitName_erase, ← GoExpr.splitName_erase, same]
      generalize expr.splitName (next = some (.sign ",")) = split at named ⊢
      generalize expr'.splitName (next = some (.sign ",")) = split' at named ⊢
      obtain _ | ⟨label, _ | type⟩ := split <;> obtain _ | ⟨label', _ | type'⟩ := split' <;>
        simp only [Option.map_none, Option.map_some, GoExpr.eraseNamed, Option.some.injEq,
          Prod.mk.injEq, reduceCtorEq, and_false] at named
      · exact array
      · refine .ite Iff.rfl array ?_
        exact (rules.constraint named.1).bind fun _ _ same =>
          (rules.moreParameters same).bind fun _ _ same => .pure (by simp [same])
      · refine (rules.unionTail named.2).bind fun _ _ same => .bind .lastLine fun _ _ _ =>
          (rules.moreParameters ?_).bind fun _ _ same => .pure (by simp [same])
        simp [Entry.erase, named.1, same]
    refine .ite Iff.rfl (joined (.name name) (.name name') (by simp [GoExpr.erase, alike]))
      (.bind ?_ joined)
    refine .within false ((rules.primaryTail ?_).bind fun _ _ same => rules.binaryTail 1 same)
    simp [GoExpr.erase, alike]
  · exact rules.arrayTail.bind fun _ _ same => .pure (by simp [same])

end Uniform

end GoReader

end Code

end Scriptlet

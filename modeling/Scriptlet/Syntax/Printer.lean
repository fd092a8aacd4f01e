import Scriptlet.Syntax.Tree
import Scriptlet.Text.Chars

/-!
# Printer

The canonical source text of a tree: one statement a line, a tab for each level
of braces, and parentheses only where operators would group differently without
them. A tree with a gap has no source text.
-/

namespace Scriptlet

namespace Expr

/-- Whether an operand has to stand in parentheses. A bare operand must bind at
least as tightly as the operator outside, and a right operand more tightly,
because operators group to the left. -/
def needsParens (outer : Operator) (isRight : Bool) : Expr → Bool
  | .binary _ inner _ _ =>
    inner.precedence < outer.precedence ||
      (isRight && inner.precedence == outer.precedence)
  | _ => false

/-- Puts a text in parentheses if asked to. -/
def wrap (inParens : Bool) (text : Bytes) : Bytes :=
  if inParens then Bytes.ofString "(" ++ text ++ Bytes.ofString ")" else text

/-- The source text of an expression, or the sort of its first gap. -/
def format : Expr → Except NodeSort Bytes
  | .number value _ => .ok (Bytes.ofChars (Decimal.chars value.toInt))
  | .string value _ => .ok (Bytes.ofString "\"" ++ value ++ Bytes.ofString "\"")
  | .variableRef name _ => .ok (Bytes.ofString name)
  | .binary left operator right _ => do
    let leftText ← left.format
    let rightText ← right.format
    pure (wrap (left.needsParens operator false) leftText ++
      Bytes.ofString (" " ++ operator.sign ++ " ") ++
      wrap (right.needsParens operator true) rightText)
  | .gap => .error .expression

end Expr

namespace Stmt

/-- A line of source text inside some levels of braces. -/
def line (indent : Nat) (content : Bytes) : Bytes :=
  Bytes.ofChars (List.replicate indent '\t') ++ content ++ Bytes.ofString "\n"

/-- The line that opens a block behind a condition. -/
def opening (indent : Nat) (word : String) (condition : Bytes) : Bytes :=
  line indent (Bytes.ofString (word ++ " (") ++ condition ++ Bytes.ofString (") " ++ braceOpen))

/-- The line that closes a block. -/
def closing (indent : Nat) : Bytes :=
  line indent (Bytes.ofString braceClose)

mutual

/-- The source text of a statement inside some levels of braces, or the sort of
its first gap. -/
def format (indent : Nat) : Stmt → Except NodeSort Bytes
  | .assign name value _ => do
    let text ← value.format
    pure (line indent (Bytes.ofString (name ++ " = ") ++ text ++ Bytes.ofString ";"))
  | .print value _ => do
    let text ← value.format
    pure (line indent (Bytes.ofString "print " ++ text ++ Bytes.ofString ";"))
  | .ifThen condition body _ => do
    let test ← condition.format
    let inner ← formatAll (indent + 1) body
    pure (opening indent "if" test ++ inner ++ closing indent)
  | .ifElse condition body otherwise _ => do
    let test ← condition.format
    let inner ← formatAll (indent + 1) body
    let other ← formatAll (indent + 1) otherwise
    pure (opening indent "if" test ++ inner ++
      line indent (Bytes.ofString (braceClose ++ " else " ++ braceOpen)) ++ other ++ closing indent)
  | .whileDo condition body _ => do
    let test ← condition.format
    let inner ← formatAll (indent + 1) body
    pure (opening indent "while" test ++ inner ++ closing indent)
  | .gap => .error .statement

/-- The source text of statements in order. -/
def formatAll (indent : Nat) : List Stmt → Except NodeSort Bytes
  | [] => .ok []
  | statement :: others => do
    let first ← format indent statement
    let rest ← formatAll indent others
    pure (first ++ rest)

end

end Stmt

namespace Program

/-- The canonical source text of a program. -/
def format (program : Program) : Except NodeSort Bytes :=
  Stmt.formatAll 0 program

end Program

end Scriptlet

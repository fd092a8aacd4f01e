import Scriptlet.Diagnostic
import Scriptlet.Run.Environment
import Scriptlet.Syntax.Tree

/-!
# Evaluation of expressions

Operands are evaluated from left to right, then their types are checked, then
the operator is applied. Integers wrap around at 64 bits; division rounds toward
zero.
-/

namespace Scriptlet

/-- Why a run stops before its end. -/
inductive RunFailure where
  /-- An error that the language defines. -/
  | runtime (error : RuntimeError)
  /-- The program is missing a node. -/
  | missing (sort : NodeSort)
  /-- The program has an operator that the language does not define. -/
  | unknownOperator (operator : Operator)
  /-- The output takes no more lines. -/
  | outputClosed
deriving DecidableEq, Repr

namespace RunFailure

def message : RunFailure → String
  | .runtime error => error.message
  | .missing sort => sort.missingMessage
  | .unknownOperator operator => "unknown operator " ++ operator.sign
  | .outputClosed => "closed"

end RunFailure

namespace Operator

/-- The result of an operator on two integers. -/
def apply (operator : Operator) (left right : Int64) (span : Span) : Except RunFailure Value :=
  match operator with
  | .add => .ok (.integer (left + right))
  | .sub => .ok (.integer (left - right))
  | .mul => .ok (.integer (left * right))
  | .div =>
    if right = 0 then
      .error (.runtime ⟨.divisionByZero, "", span⟩)
    else
      .ok (.integer (left / right))
  | .unknown _ => .error (.unknownOperator operator)

/-- The result of an operator on two values, which must be integers. -/
def applyValues (operator : Operator) (left right : Value) (span : Span) :
    Except RunFailure Value :=
  match left, right with
  | .integer l, .integer r => operator.apply l r span
  | _, _ =>
    .error (.runtime ⟨.typeMismatch,
      "cannot apply " ++ operator.sign ++ " to " ++ left.typeName ++ " and " ++ right.typeName,
      span⟩)

end Operator

namespace Expr

/-- The value of an expression. -/
def eval (env : Environment) : Expr → Except RunFailure Value
  | .number value _ => .ok (.integer value)
  | .string value _ => .ok (.text value)
  | .variableRef name span =>
    match env.get? name with
    | some value => .ok value
    | none => .error (.runtime ⟨.undefinedVariable, name, span⟩)
  | .binary left operator right span => do
    let leftValue ← left.eval env
    let rightValue ← right.eval env
    operator.applyValues leftValue rightValue span
  | .gap => .error (.missing .expression)

/-- Whether an expression holds as a condition: it must be an integer, and any but
zero holds. -/
def holds (env : Environment) (condition : Expr) : Except RunFailure Bool := do
  match ← condition.eval env with
  | .integer held => pure (held != 0)
  | value =>
    .error (.runtime ⟨.typeMismatch,
      "condition must be an integer, got " ++ value.typeName, condition.span⟩)

end Expr

end Scriptlet

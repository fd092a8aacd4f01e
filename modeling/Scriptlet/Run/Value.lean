import Scriptlet.Text.Bytes
import Scriptlet.Text.Decimal

/-!
# Values

What variables hold and programs print: 64-bit integers and byte texts. A
variable bound from outside may also hold no value at all.
-/

namespace Scriptlet

/-- A value of the language. -/
inductive Value where
  | integer (number : Int64)
  | text (bytes : Bytes)
  /-- A binding without a value, which no program makes by itself. -/
  | absent
deriving DecidableEq, Repr, Inhabited

namespace Value

/-- The type of a value as messages name it. -/
def typeName : Value → String
  | .integer _ => "integer"
  | .text _ => "string"
  | .absent => "unknown"

/-- A value as it is printed. There is no text for an absent value. Printing one would be a
fault of the interpreter itself, and here shows as an empty text. -/
def display : Value → Bytes
  | .integer number => Bytes.ofChars (Decimal.chars number.toInt)
  | .text bytes => bytes
  | .absent => []

end Value

end Scriptlet

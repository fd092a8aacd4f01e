import Scriptlet.Text.Bytes

/-!
# Log

Parts of the program report what they do. A line is shown if its level is not
beyond the one that was asked for.
-/

namespace Scriptlet

/-- The levels of log lines, from the gravest to the most detailed. -/
inductive LogLevel where
  | critical
  | error
  | warning
  | notice
  | info
  | debug
  | trace
deriving DecidableEq, Repr

namespace LogLevel

/-- The place of a level among all levels. -/
def rank : LogLevel → Nat
  | .critical => 0
  | .error => 1
  | .warning => 2
  | .notice => 3
  | .info => 4
  | .debug => 5
  | .trace => 6

/-- The letter of a level in log lines. -/
def letter : LogLevel → String
  | .critical => "C"
  | .error => "E"
  | .warning => "W"
  | .notice => "N"
  | .info => "I"
  | .debug => "D"
  | .trace => "T"

/-- A character in upper case, as far as level names need it. A small `i` without
dot becomes a capital one. -/
def upper (char : Char) : Char :=
  if char = '\u0131' then 'I' else char.toUpper

/-- The level with a given name, letter or number, in any case. -/
def ofName? (name : String) : Option LogLevel :=
  match String.ofList (name.toList.map upper) with
  | "CRITICAL" => some .critical
  | "C" => some .critical
  | "ERROR" => some .error
  | "E" => some .error
  | "0" => some .error
  | "WARNING" => some .warning
  | "W" => some .warning
  | "1" => some .warning
  | "NOTICE" => some .notice
  | "N" => some .notice
  | "2" => some .notice
  | "INFO" => some .info
  | "I" => some .info
  | "3" => some .info
  | "DEBUG" => some .debug
  | "D" => some .debug
  | "4" => some .debug
  | "TRACE" => some .trace
  | "T" => some .trace
  | "5" => some .trace
  | _ => none

end LogLevel

/-- A line of the log: its level, the part of the program that reports, and what
it says. -/
structure LogLine where
  level : LogLevel
  part : String
  message : Bytes
deriving DecidableEq, Repr

namespace LogLine

/-- A line with a string for its message. -/
def ofString (level : LogLevel) (part message : String) : LogLine where
  level := level
  part := part
  message := Bytes.ofString message

/-- A line as it is shown. A message that ends its line by itself is left so. -/
def render (line : LogLine) : Bytes :=
  let newline := Bytes.ofString "\n"
  let stop := if newline.isSuffixOf line.message then [] else newline
  Bytes.ofString (line.level.letter ++ " | " ++ line.part ++ ": ") ++ line.message ++ stop

/-- The lines that are shown at a level. -/
def renderAll (level : LogLevel) (lines : List LogLine) : Bytes :=
  (lines.filter fun line => line.level.rank ≤ level.rank).flatMap render

end LogLine

end Scriptlet

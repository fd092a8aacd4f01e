import Scriptlet.Text.Base64
import Scriptlet.Text.Glyph
import Scriptlet.Yaml.Fault

/-!
# Tags of scalars

A tag tells the type of a scalar. The tags of the usual types have a long form and
a short one. A scalar with such a tag must be spelled like a scalar of that type;
one with another tag is left alone.
-/

namespace Scriptlet

namespace Yaml

/-- What the long forms of the usual tags start with. -/
def tagStart : String := "tag:yaml.org,2002:"

/-- The long form of a tag. -/
def longTag (tag : String) : String :=
  match tag.toList with
  | '!' :: '!' :: name => tagStart ++ String.ofList name
  | _ => tag

/-- The short form of a tag. -/
def shortTag (tag : String) : String :=
  if tagStart.toList.isPrefixOf tag.toList then
    "!!" ++ String.ofList (tag.toList.drop tagStart.length)
  else
    tag

namespace ScalarType

/-- The type that a tag stands for. -/
def ofTag? (tag : String) : Option ScalarType :=
  [.null, .bool, .int, .float, .timestamp, .text].find? fun type => longTag type.tag == tag

/-- Whether a scalar that is spelled like one of a type can be of another type. Any
scalar can be a text, and an integer can be a fraction. -/
def isAlso (found wanted : ScalarType) : Bool :=
  found = wanted || wanted = .text || (found = .int && wanted = .float)

/-- The type of a scalar, if it is one of the usual types. Without a tag, the
spelling of a bare scalar tells it, and any other is a text. -/
def ofScalar (tag : String) (bare : Bool) (content : String) : Except Fault (Option ScalarType) :=
  if tag = "" then
    .ok (some (if bare then Scalar.typeOf true content else .text))
  else
    match ofTag? tag with
    | none => .ok none
    | some .text => .ok (some .text)
    | some wanted =>
      let found := Scalar.typeOf (wanted = .timestamp) content
      if found.isAlso wanted then
        .ok (some wanted)
      else
        .error (.wrongType found content (shortTag tag))

end ScalarType

/-- The tag of bytes. -/
def bytesTag : String := longTag "!!binary"

/-- The text that a scalar stands for, if it does not stand for nothing. A scalar
with the tag of bytes stands for the text that they encode, and any other for its
spelling. -/
def scalarText? (tag : String) (bare : Bool) (content : String) : Except Fault (Option String) :=
  if tag = bytesTag then
    match Base64.decode? content with
    | some bytes => .ok (some (Glyph.spelling (Glyph.decode bytes)))
    | none => .error .badBytes
  else do
    match ← ScalarType.ofScalar tag bare content with
    | some .null => .ok none
    | _ => .ok (some content)

end Yaml

end Scriptlet

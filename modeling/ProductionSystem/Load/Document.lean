import ProductionSystem.Load.Problem

/-!
Rule files as documents: a name, and the statements. Both may be missing or null. The document is an
object with the members `name` and `ops`, others are passed over, or an array of those two.
-/

namespace ProductionSystem

/-- A rule file before its statements are looked at. -/
structure Document where
  name : Option String := none
  ops : Option (List Json) := none

namespace Document

/-- A name that may be null. -/
def name? : Json → Parsed (Option String)
  | .null => .ok none
  | .str text => .ok (some text)
  | json => .error (.shape json "a string")

/-- Statements that may be null. -/
def ops? : Json → Parsed (Option (List Json))
  | .null => .ok none
  | .arr items => .ok (some items)
  | json => .error (.shape json "a sequence")

/-- Takes in a member of an object. -/
def withMember (document : Document) (member : String × Json) : Parsed Document :=
  if member.1 = "name" then (name? member.2).map fun name => { document with name }
  else if member.1 = "ops" then (ops? member.2).map fun ops => { document with ops }
  else .ok document

def ofJson : Json → Parsed Document
  | .obj members => members.foldlM withMember {}
  | .arr [] => .error (.tooShort 0)
  | .arr [name] => do
    let _ ← name? name
    .error (.tooShort 1)
  | .arr (name :: ops :: rest) => do
    let name ← name? name
    let ops ← ops? ops
    if rest.isEmpty then pure { name, ops } else .error (.tooLong (rest.length + 2))
  | json => .error (.shape json "struct Document")

end Document

end ProductionSystem

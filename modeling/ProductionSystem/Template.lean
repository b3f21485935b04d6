import ProductionSystem.Fact

/-!
Templates: the fields of a fact type, in the order of their declaration, each with its default.
-/

namespace ProductionSystem

/-- The schema of a fact type. -/
structure Template where
  type : String
  defaults : Fields := []
  deriving DecidableEq

namespace Template

/-- Declares a field. Declared again, a field keeps its position and takes the new default. -/
def withField (template : Template) (name : String) (default : Value) : Template :=
  { template with defaults := Slots.put name default template.defaults }

/-- Declares a field that has no value by default. -/
def withAbsent (template : Template) (name : String) : Template := template.withField name .nil

def hasField (template : Template) (name : String) : Bool := Slots.has name template.defaults

/-- The fields in the order of their declaration. -/
def fieldNames (template : Template) : List String := Slots.names template.defaults

/-- Overwrites the defaults in order, up to the first name that is no field. -/
def override (type : String) : Fields → List (String × Value) → Except ErrorKind Fields
  | fields, [] => .ok fields
  | fields, (name, value) :: rest =>
    match Slots.assign? name value fields with
    | some fields => override type fields rest
    | none => .error (.field type name)

/-- Creates a fact with the defaults, some of them overridden. -/
def instantiate (template : Template) (id : FactId) (overrides : List (String × Value)) :
    Except ErrorKind Fact :=
  (override template.type template.defaults overrides).map fun fields =>
    { id, type := template.type, fields }

end Template

end ProductionSystem

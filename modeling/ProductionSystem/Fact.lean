import ProductionSystem.Error
import ProductionSystem.Slots
import ProductionSystem.Value

/-!
Facts: typed records with named fields. The fields of a fact are fixed when it is created, only
their values change. Overwriting several fields is all or nothing.
-/

namespace ProductionSystem

structure FactId where
  number : UInt64
  deriving DecidableEq

namespace FactId

def text (id : FactId) : String := "#" ++ toString id.number.toNat

def literal (id : FactId) : String := "FactId(" ++ toString id.number.toNat ++ ")"

end FactId

abbrev Fields := Slots Value

/-- A typed record. It is retracted once it was removed from working memory. -/
structure Fact where
  id : FactId
  type : String
  fields : Fields
  retracted : Bool := false
  deriving DecidableEq

namespace Fact

/-- The value of a field; a field that the fact does not have is absent. -/
def get (fact : Fact) (field : String) : Value := (Slots.get? field fact.fields).getD .nil

/-- Do two instances count as the same fact? They do if they have the same id. -/
def same (a b : Fact) : Bool := a.id = b.id

def hasField (fact : Fact) (field : String) : Bool := Slots.has field fact.fields

/-- Overwrites one field. -/
def set (fact : Fact) (field : String) (value : Value) : Except ErrorKind Fact :=
  match Slots.assign? field value fact.fields with
  | some fields => .ok { fact with fields }
  | none => .error (.field fact.type field)

/-- The first field of a list that the fact does not have. -/
def unknownField? (fact : Fact) (values : List (String × Value)) : Option String :=
  (values.find? fun entry => !fact.hasField entry.1).map (·.1)

/-- Overwrites fields in order, passing over those that the fact does not have. -/
def overwrite (fields : Fields) (values : List (String × Value)) : Fields :=
  values.foldl (fun fields entry => (Slots.assign? entry.1 entry.2 fields).getD fields) fields

/-- Overwrites several fields, or none if the fact lacks one of them. -/
def setMany (fact : Fact) (values : List (String × Value)) : Except ErrorKind Fact :=
  match fact.unknownField? values with
  | some field => .error (.field fact.type field)
  | none => .ok { fact with fields := overwrite fact.fields values }

/-- The plain text of a fact shows the fields that have a value. -/
def text (fact : Fact) : String :=
  "(" ++ fact.type ++
    String.join ((fact.fields.filter fun entry => !entry.2.isNil).map fun entry =>
      " ^" ++ entry.1 ++ " " ++ entry.2.text) ++ ")"

/-- The literal text of a fact shows its id and all fields. -/
def literal (fact : Fact) : String :=
  "(" ++ fact.type ++ " " ++ fact.id.text ++
    String.join (fact.fields.map fun entry => " " ++ entry.1 ++ "=" ++ entry.2.literal) ++ ")"

end Fact

end ProductionSystem

import ProductionSystem.Load.Problem
import ProductionSystem.Registry
import ProductionSystem.Rule

/-!
The statements of a rule file: the declaration of a fact type, a fact, or a rule. In conditions and
actions a string that names a variable stands for the variable, and in a condition null stands for
the absent value.
-/

namespace ProductionSystem

inductive Statement where
  | literalize (template : Template)
  | make (type : String) (values : List (String × Value))
  | rule (rule : Rule)
  /-- A statement that is passed over: too short, or of an unknown kind. -/
  | skipped

namespace Statement

mutual

/-- The value of a document without objects. -/
def value : Json → Parsed Value
  | .null => .ok .nil
  | .bool b => .ok (.bool b)
  | .int n =>
    if n ≤ Int64.maxValue.toInt then .ok (.int (Int64.ofInt n)) else .ok (.float (Binary64.ofNat n.toNat))
  | .float bits => .ok (.float bits)
  | .str text => .ok (.str text)
  | .arr items => (values items).map .list
  | .obj members => .error (.objectValue (.obj members))

def values : List Json → Parsed (List Value)
  | [] => .ok []
  | item :: items => do
    let v ← value item
    let vs ← values items
    pure (v :: vs)

end

/-- The string that a part of the file has to be. -/
def string (part : FilePart) : Json → Parsed String
  | .str text => .ok text
  | json => .error (.notString part json)

/-- The items of the array that a part of the file has to be. -/
def array (part : FilePart) : Json → Parsed (List Json)
  | .arr items => .ok items
  | json => .error (.notArray part json)

/-- Field names and documents in turn, for a list of even length. -/
def pairs : List Json → Parsed (List (String × Json))
  | name :: item :: rest => do
    let name ← string .field name
    let rest ← pairs rest
    pure ((name, item) :: rest)
  | _ => .ok []

/-- Field names and documents in turn. A last name without a document is seen before any wrong name. -/
def fieldPairs (items : List Json) : Parsed (List (String × Json)) :=
  if items.length % 2 = 1 then .error .fieldWithoutValue else pairs items

/-- Declares fields: one without a default, or the members of an object with theirs. -/
def declare (template : Template) : Json → Parsed Template
  | .str name => .ok (template.withAbsent name)
  | .obj members =>
    members.foldlM (fun template member => (value member.2).map (template.withField member.1 ·)) template
  | json => .error (.fieldDeclaration json)

/-- The declaration of a fact type: its name, then its fields. -/
def ofLiteralize (type : Json) (fields : List Json) : Parsed Template := do
  let type ← string .type type
  fields.foldlM declare { type }

/-- A fact: its type, then fields each with a value. -/
def ofMake (type : Json) (fields : List Json) : Parsed (String × List (String × Value)) := do
  let type ← string .type type
  let pairs ← fieldPairs fields
  let values ← pairs.mapM fun pair => (value pair.2).map (pair.1, ·)
  pure (type, values)

/-- What a test demands. -/
def pattern : Json → Parsed Pattern
  | .null => .ok .absent
  | .str text => .ok (if isVariableName text then .variable text else .literal (.str text))
  | json => (value json).map .literal

/-- A parameter of an action. -/
def param : Json → Parsed Param
  | .str text => .ok (if isVariableName text then .variable text else .literal (.str text))
  | json => (value json).map .literal

/-- A condition: a fact type, then fields each with a test. -/
def condition (rule : String) (json : Json) : Parsed Condition := do
  match ← array .condition json with
  | [] => .error (.emptyCondition rule)
  | type :: tests =>
    let type ← string .type type
    let pairs ← fieldPairs tests
    let tests ← pairs.mapM fun pair => (pattern pair.2).map (pair.1, ·)
    pure { type, tests }

/-- The commands whose first parameter names a variable and does not stand for its value. -/
def namingCommands : List String := [Builtin.bind.name]

/-- Takes a variable in the first place as its name. -/
def nameFirst : List Param → List Param
  | .variable name :: rest => .literal (.str name) :: rest
  | params => params

/-- An action: the name of a command, then its parameters. -/
def action (registry : Registry) (rule : String) (json : Json) : Parsed Action := do
  match ← array .action json with
  | [] => .error (.emptyAction rule)
  | name :: params =>
    let name ← string .command name
    match registry.get? name with
    | none => .error (.unknownCommand name)
    | some command =>
      let params ← params.mapM param
      pure { command, params := if name ∈ namingCommands then nameFirst params else params }

/-- A rule: its name, its conditions and its actions; what follows is passed over. -/
def ofRule (registry : Registry) (name : Json) (parts : List Json) : Parsed Rule := do
  let name ← string .ruleName name
  match parts with
  | [] => .error (.noConditions name)
  | [_] => .error (.noActions name)
  | conditions :: actions :: _ =>
    let conditions ← (← array .conditions conditions).mapM (condition name)
    let actions ← (← array .actions actions).mapM (action registry name)
    pure { name, conditions, actions }

/-- The statement that an array of a rule file stands for. -/
def ofItems (registry : Registry) : List Json → Parsed Statement
  | .str "literalize" :: type :: fields => (ofLiteralize type fields).map .literalize
  | .str "make" :: type :: fields => (ofMake type fields).map fun (type, values) => .make type values
  | .str "p" :: name :: parts => (ofRule registry name parts).map .rule
  | _ => .ok .skipped

/-- The statement that a part of a rule file stands for. -/
def ofJson (registry : Registry) : Json → Parsed Statement
  | .arr items => ofItems registry items
  | _ => .error .statementNotArray

end Statement

end ProductionSystem

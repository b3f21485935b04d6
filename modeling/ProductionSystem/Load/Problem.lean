import ProductionSystem.Json
import ProductionSystem.Text.Quoted

/-!
What can be wrong with a rule file.
-/

namespace ProductionSystem

/-- Why a file cannot be read. -/
inductive ReadFailure where
  | notFound
  | notDirectory
  | isDirectory
  | nameTooLong
  | nulInName
  | notUtf8
  | other (message : String)
  deriving DecidableEq

namespace ReadFailure

def message : ReadFailure → String
  | notFound => "No such file or directory (os error 2)"
  | notDirectory => "Not a directory (os error 20)"
  | isDirectory => "Is a directory (os error 21)"
  | nameTooLong => "File name too long (os error 36)"
  | nulInName => "file name contained an unexpected NUL byte"
  | notUtf8 => "stream did not contain valid UTF-8"
  | other message => message

end ReadFailure

/-- A part of a rule file. -/
inductive FilePart where
  | type
  | field
  | ruleName
  | conditions
  | condition
  | actions
  | action
  | command
  deriving DecidableEq

namespace FilePart

def text : FilePart → String
  | type => "type"
  | field => "field"
  | ruleName => "rule name"
  | conditions => "conditions"
  | condition => "condition"
  | actions => "actions"
  | action => "action"
  | command => "command"

end FilePart

/-- What is wrong with a rule file. -/
inductive LoadProblem where
  | unreadable (path : String) (reason : ReadFailure)
  | notJson
  /-- The document or a part of it has another shape than the one expected. -/
  | shape (got : Json) (expected : String)
  /-- An array that stands for a document has too few items. -/
  | tooShort (length : Nat)
  /-- An array that stands for a document has too many items. -/
  | tooLong (length : Nat)
  | noStatements
  | statementNotArray
  | notString (part : FilePart) (got : Json)
  | notArray (part : FilePart) (got : Json)
  | objectValue (got : Json)
  | fieldDeclaration (got : Json)
  | fieldWithoutValue
  | noConditions (rule : String)
  | noActions (rule : String)
  | emptyCondition (rule : String)
  | emptyAction (rule : String)
  | unknownCommand (name : String)

namespace LoadProblem

/-- A document in short: scalars in full, of arrays and objects only what they are. -/
def outline : Json → String
  | .null => "null"
  | .bool b => "boolean `" ++ (Json.bool b).text ++ "`"
  | .int n => "integer `" ++ (Json.int n).text ++ "`"
  | .float bits => "floating point `" ++ (Json.float bits).text ++ "`"
  | .str text => "string " ++ Text.quoted text
  | .arr _ => "sequence"
  | .obj _ => "map"

def message : LoadProblem → String
  | unreadable path reason => "cannot read " ++ path ++ ": " ++ reason.message
  | notJson => "invalid JSON"
  | shape got expected => "invalid rule file: invalid type: " ++ outline got ++ ", expected " ++ expected
  | tooShort length =>
    "invalid rule file: invalid length " ++ toString length ++ ", expected struct Document with 2 elements"
  | tooLong length =>
    "invalid rule file: invalid length " ++ toString length ++ ", expected fewer elements in array"
  | noStatements => "missing ops section"
  | statementNotArray => "statement is not an array"
  | notString part got => "expected " ++ part.text ++ " string, got " ++ got.text
  | notArray part got => "expected " ++ part.text ++ " array, got " ++ got.text
  | objectValue got => "objects are not values: " ++ got.text
  | fieldDeclaration got => "bad field declaration: " ++ got.text
  | fieldWithoutValue => "field list has a field without a value"
  | noConditions rule => "rule " ++ rule ++ " has no conditions"
  | noActions rule => "rule " ++ rule ++ " has no actions"
  | emptyCondition rule => "rule " ++ rule ++ " has an empty condition"
  | emptyAction rule => "rule " ++ rule ++ " has an empty action"
  | unknownCommand name => "command " ++ name ++ " not found"

end LoadProblem

/-- A part of a rule file, or what is wrong with it. -/
abbrev Parsed (α : Type) := Except LoadProblem α

end ProductionSystem

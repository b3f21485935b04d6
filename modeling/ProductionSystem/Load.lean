import ProductionSystem.Engine
import ProductionSystem.Json.Reader
import ProductionSystem.Load.Document
import ProductionSystem.Load.Statement

/-!
Loading rule files into an engine. Statements are applied in order, and what was applied before a
statement that fails stays; but the rules of a file are added together, after its last statement.
-/

namespace ProductionSystem

structure LoadSummary where
  name : Option String := none
  templates : Nat := 0
  facts : Nat := 0
  rules : Nat := 0
  skipped : Nat := 0
  deriving DecidableEq

/-- A load between two statements. -/
structure Loading where
  engine : Engine
  summary : LoadSummary
  /-- The rules of the file so far. -/
  rules : List Rule := []

namespace Loading

def apply (loading : Loading) : Statement → Except ErrorKind Unit × Loading
  | .literalize template =>
    (.ok (), { loading with
      engine := loading.engine.register template
      summary := { loading.summary with templates := loading.summary.templates + 1 } })
  | .make type values =>
    match loading.engine.make type values with
    | (.ok _, engine) =>
      (.ok (), { loading with
        engine, summary := { loading.summary with facts := loading.summary.facts + 1 } })
    | (.error cause, engine) => (.error cause, { loading with engine })
  | .rule rule => (.ok (), { loading with rules := loading.rules ++ [rule] })
  | .skipped =>
    (.ok (), { loading with summary := { loading.summary with skipped := loading.summary.skipped + 1 } })

/-- Reads and applies a statement. -/
def step (registry : Registry) (loading : Loading) (json : Json) : Except ErrorKind Unit × Loading :=
  match Statement.ofJson registry json with
  | .ok statement => loading.apply statement
  | .error problem => (.error (.load problem.message), loading)

/-- Applies statements, the first of them counted as given, up to the first that fails. -/
def steps (registry : Registry) (loading : Loading) (index : Nat) :
    List Json → Except Error Unit × Loading
  | [] => (.ok (), loading)
  | json :: rest =>
    match loading.step registry json with
    | (.ok (), loading) => loading.steps registry (index + 1) rest
    | (.error cause, loading) =>
      (.error ((cause : Error).withFrame ("statement " ++ toString index)), loading)

/-- Adds the rules of the file. -/
def finish (loading : Loading) : LoadSummary × Engine :=
  ({ loading.summary with rules := loading.rules.length }, loading.engine.addRules loading.rules)

end Loading

namespace Engine

def loadDocument (engine : Engine) (registry : Registry) (json : Json) :
    Except Error LoadSummary × Engine :=
  match Document.ofJson json with
  | .error problem => (.error ↑(ErrorKind.load problem.message), engine)
  | .ok document =>
    match document.ops with
    | none => (.error ↑(ErrorKind.load LoadProblem.noStatements.message), engine)
    | some ops =>
      match ({ engine, summary := { name := document.name } } : Loading).steps registry 0 ops with
      | (.ok (), loading) => (.ok loading.finish.1, loading.finish.2)
      | (.error e, loading) => (.error e, loading.engine)

/-- How deep the arrays and objects of a rule file may be nested. -/
def nestingLimit : Nat := 127

def loadText (engine : Engine) (registry : Registry) (text : String) : Except Error LoadSummary × Engine :=
  match Json.read? nestingLimit text with
  | some json => engine.loadDocument registry json
  | none => (.error ↑(ErrorKind.load LoadProblem.notJson.message), engine)

/-- Loads a rule file, given its path and what reading it gave. Errors name the path. -/
def loadFile (engine : Engine) (registry : Registry) (path : String) (contents : Except ReadFailure String) :
    Except Error LoadSummary × Engine :=
  match contents with
  | .error reason =>
    (.error ((ErrorKind.load (LoadProblem.unreadable path reason).message : Error).withSource path), engine)
  | .ok text =>
    match engine.loadText registry text with
    | (.ok summary, engine) => (.ok summary, engine)
    | (.error e, engine) => (.error (e.withSource path), engine)

end Engine

end ProductionSystem

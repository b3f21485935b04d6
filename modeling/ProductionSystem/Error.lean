/-!
The errors of the engine: what went wrong, and where.
-/

namespace ProductionSystem

/-- What went wrong. -/
inductive ErrorKind where
  /-- A fact of a type that has no template. -/
  | schema (type : String)
  /-- A field that the fact type does not have. -/
  | field (type field : String)
  /-- A condition index beyond the facts of the match. -/
  | index (index size : Nat)
  | unboundVariable (name : String)
  /-- A command failed in a firing; the message tells the cause. -/
  | action (rule command message : String)
  /-- A removal by an action that does not run on the loop. -/
  | asyncRemoval (index : Nat)
  | arguments (message : String)
  | load (message : String)
  /-- Work for a pool of workers that is closed. -/
  | shutdown
  | internal (message : String)
  deriving DecidableEq

namespace ErrorKind

def message : ErrorKind → String
  | .schema type => "fact type " ++ type ++ " not literalized"
  | .field type name => "field " ++ name ++ " is not part of the schema for " ++ type
  | .index i size =>
    "condition index " ++ toString i ++ " out of range (match has " ++ toString size ++ " facts)"
  | .unboundVariable name => "unbound variable: " ++ name
  | .action rule command cause => "action " ++ command ++ " in rule " ++ rule ++ " failed: " ++ cause
  | .asyncRemoval i => "cannot remove matched fact " ++ toString i ++ " outside the engine loop thread"
  | .arguments cause => "bad arguments: " ++ cause
  | .load cause => "load error: " ++ cause
  | .shutdown => "worker pool has been shut down"
  | .internal cause => "internal error: " ++ cause

def isSchema : ErrorKind → Bool
  | .schema _ => true
  | _ => false

def isField : ErrorKind → Bool
  | .field _ _ => true
  | _ => false

end ErrorKind

/-- Where something went wrong: a rule or a file, and the frames that lead to the place. -/
structure ErrorContext where
  source : Option String := none
  stack : List String := []
  deriving DecidableEq

namespace ErrorContext

/-- The context in words: the source, then each frame on a line of its own. -/
def text (context : ErrorContext) : String :=
  (match context.source with
    | some source => "at " ++ source
    | none => "") ++
  (if context.stack.isEmpty then ""
    else "\n" ++ String.join (context.stack.map fun frame => "  in " ++ frame ++ "\n"))

end ErrorContext

/-- An error, with the place where it arose if that is known. -/
structure Error where
  kind : ErrorKind
  context : Option ErrorContext := none
  deriving DecidableEq

namespace Error

def message (e : Error) : String := e.kind.message

/-- Names the rule or the file where the error arose. -/
def withSource (e : Error) (source : String) : Error :=
  ⟨e.kind, some { e.context.getD {} with source := some source }⟩

/-- Adds a frame to the way that leads to the error. -/
def withFrame (e : Error) (frame : String) : Error :=
  let context := e.context.getD {}
  ⟨e.kind, some { context with stack := context.stack ++ [frame] }⟩

end Error

instance : Coe ErrorKind Error := ⟨fun kind => ⟨kind, none⟩⟩

end ProductionSystem

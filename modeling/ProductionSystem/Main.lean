import ProductionSystem.CommandLine

/-!
The program: reads the rule file, runs it, and writes the lines of its actions as they come.
-/

namespace ProductionSystem.CommandLine

/-- Why reading a file failed, as far as it is told apart. -/
def readFailure : IO.Error → ReadFailure
  | .noFileOrDirectory .. => .notFound
  | .inappropriateType _ code _ => if code = 21 then .isDirectory else .notDirectory
  | e@(.invalidArgument _ code _) => if code = 36 then .nameTooLong else .other (toString e)
  | e => .other (toString e)

def readContents (path : String) : IO (Except ReadFailure String) := do
  try
    let bytes ← IO.FS.readBinFile path
    match String.fromUTF8? bytes with
    | some text => pure (.ok text)
    | none => pure (.error .notUtf8)
  catch e => pure (.error (readFailure e))

/-- Writes the lines that were not written yet. -/
def flushLines (engine : Engine) : IO Engine := do
  let out ← IO.getStdout
  for line in engine.workspace.lines do
    out.putStrLn line
  out.flush
  pure { engine with workspace := { engine.workspace with lines := #[] } }

/-- Runs until the run is over, writing lines cycle by cycle. -/
partial def runOn (run : Run) : IO (Report × Engine) := do
  match run.advance with
  | .inl next => runOn { next with engine := ← flushLines next.engine }
  | .inr (outcome, run) => pure (run.close outcome)

end ProductionSystem.CommandLine

open ProductionSystem CommandLine in
def main (args : List String) : IO UInt32 := do
  let exit ← serve 1 readContents runOn (parse args)
  (← IO.getStdout).putStr exit.output
  (← IO.getStderr).putStr exit.errors
  pure exit.code

import ProductionSystem.Load
import ProductionSystem.Run

/-!
The command line: `ops5 RULES` runs a rule file. Options may stand anywhere before a bare `--`, a
value follows its option or an equals sign, and no option is given twice.
-/

namespace ProductionSystem.CommandLine

structure Options where
  rules : String
  verbose : Bool
  steps : Option Nat
  sortBySpecificity : Bool
  idleTimeout : Option Nat
  deriving DecidableEq

inductive Request where
  | run (options : Options)
  | version
  | help
  | misuse
  deriving DecidableEq

/-- The options as far as they were seen. -/
structure Seen where
  rules : Option String := none
  verbose : Bool := false
  steps : Option Nat := none
  sortBySpecificity : Bool := false
  idleTimeout : Option Nat := none

namespace Seen

def withRules (seen : Seen) (path : String) : Option Seen :=
  if seen.rules.isSome || path.isEmpty then none else some { seen with rules := some path }

def withPaths (seen : Seen) (paths : List String) : Option Seen := paths.foldlM withRules seen

/-- What the command line asks for, once all of it was seen. -/
def request (seen : Seen) : Request :=
  match seen.rules with
  | some rules => .run ⟨rules, seen.verbose, seen.steps, seen.sortBySpecificity, seen.idleTimeout⟩
  | none => .misuse

end Seen

/-- A whole number of 64 bits, which may have a plus sign. -/
def count? (text : String) : Option Nat :=
  let digits := match text.toList with
    | '+' :: rest => rest
    | rest => rest
  if digits.isEmpty || !digits.all Char.isDigit then none
  else
    let n := digits.foldl (fun n c => n * 10 + (c.toNat - '0'.toNat)) 0
    if n < UInt64.size then some n else none

inductive Effect where
  | seen (seen : Seen)
  /-- The argument settles what is asked for, whatever follows. -/
  | settled (request : Request)

def letter (seen : Seen) : Char → Effect
  | 'v' => if seen.verbose then .settled .misuse else .seen { seen with verbose := true }
  | 'V' => .settled .version
  | 'h' => .settled .help
  | _ => .settled .misuse

def letters (seen : Seen) : List Char → Effect
  | [] => .seen seen
  | c :: rest =>
    match letter seen c with
    | .seen seen => letters seen rest
    | .settled request => .settled request

def flag (seen : Seen) (name : String) : Effect :=
  if name = "verbose" then letter seen 'v'
  else if name = "version" then .settled .version
  else if name = "help" then .settled .help
  else if name = "sort-by-specificity" && !seen.sortBySpecificity then
    .seen { seen with sortBySpecificity := true }
  else .settled .misuse

/-- Does an option take a value? -/
def takesValue (name : String) : Bool := name = "steps" || name = "idle-timeout-ms"

def valued (seen : Seen) (name value : String) : Effect :=
  match count? value with
  | none => .settled .misuse
  | some n =>
    if name = "steps" && seen.steps.isNone then .seen { seen with steps := some n }
    else if name = "idle-timeout-ms" && seen.idleTimeout.isNone then .seen { seen with idleTimeout := some n }
    else .settled .misuse

/-- Splits an argument at its first equals sign. -/
def splitValue (cs : List Char) : String × Option String :=
  (String.ofList (cs.takeWhile (· ≠ '=')),
    match cs.dropWhile (· ≠ '=') with
    | [] => none
    | _ :: value => some (String.ofList value))

def scan (seen : Seen) : List String → Request
  | [] => seen.request
  | arg :: rest =>
    match arg.toList with
    | ['-', '-'] =>
      match seen.withPaths rest with
      | some seen => seen.request
      | none => .misuse
    | '-' :: '-' :: option =>
      match splitValue option with
      | (name, some value) =>
        match valued seen name value with
        | .seen seen => scan seen rest
        | .settled request => request
      | (name, none) =>
        if takesValue name then
          match rest with
          | value :: rest =>
            match valued seen name value with
            | .seen seen => scan seen rest
            | .settled request => request
          | [] => .misuse
        else
          match flag seen name with
          | .seen seen => scan seen rest
          | .settled request => request
    | '-' :: c :: cs =>
      match letters seen (c :: cs) with
      | .seen seen => scan seen rest
      | .settled request => request
    | _ =>
      match seen.withRules arg with
      | some seen => scan seen rest
      | none => .misuse

def parse (args : List String) : Request := scan {} args

namespace Options

def config (options : Options) (processors : Nat) : Config :=
  ((Config.parallel processors).withSortBySpecificity options.sortBySpecificity).withIdleTimeout
    options.idleTimeout

/-- An engine with the rule file loaded, given what reading the file gave. -/
def prepare (options : Options) (processors : Nat) (contents : Except ReadFailure String) :
    Except Error Engine :=
  match (Engine.new (options.config processors)).loadFile .builtins options.rules contents with
  | (.ok _, engine) => .ok engine
  | (.error e, _) => .error e

end Options

/-- What the program writes when it ends, and its exit code. -/
structure Exit where
  code : UInt32 := 0
  output : String := ""
  errors : String := ""
  deriving DecidableEq

namespace Exit

/-- The end for an error: told in red, with the place where it arose. -/
def refused (e : Error) : Exit where
  code := 1
  errors := "\x1b[31mError: " ++ e.message ++ "\x1b[0m\n" ++
    match e.context with
    | some context => context.text ++ "\n"
    | none => ""

/-- The end after a run: the lines that were not written yet, and how many actions failed, if any. -/
def ended (engine : Engine) : Exit where
  output := String.join (engine.workspace.lines.toList.map (· ++ "\n"))
  errors :=
    if engine.failures.isEmpty then "" else toString engine.failures.size ++ " action(s) failed\n"

def version : Exit where
  output := "ops5 0.1.0\n"

def help : Exit where
  output :=
    "Run an OPS5-style rule file to quiescence\n\n" ++
    "Usage: ops5 [OPTIONS] <RULES>\n\n" ++
    "Arguments:\n  <RULES>  Rule file (JSON)\n\n" ++
    "Options:\n" ++
    "  -v, --verbose                            Enable debug logging\n" ++
    "      --steps <STEPS>                      Stop after this many firings\n" ++
    "      --sort-by-specificity                Prefer rules with more variable-bound fields\n" ++
    "      --idle-timeout-ms <IDLE_TIMEOUT_MS>  Wait this long for late facts before declaring quiescence\n" ++
    "  -h, --help                               Print help\n" ++
    "  -V, --version                            Print version\n"

def misuse : Exit where
  code := 2
  errors := "Usage: ops5 [OPTIONS] <RULES>\n"

end Exit

/-- Does what a command line asks for. Only reading the rule file and a run without limit, which need not
end, are left to the caller. -/
def serve {m : Type → Type} [Monad m] (processors : Nat) (read : String → m (Except ReadFailure String))
    (finish : Run → m (Report × Engine)) : Request → m Exit
  | .version => pure .version
  | .help => pure .help
  | .misuse => pure .misuse
  | .run options => do
    match options.prepare processors (← read options.rules) with
    | .error e => pure (.refused e)
    | .ok engine =>
      let (_, engine) ←
        match options.steps with
        | some limit => pure (engine.runSteps limit)
        | none => finish (engine.begin [])
      pure (.ended engine.shutdown)

end ProductionSystem.CommandLine

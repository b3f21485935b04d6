import ProductionSystem.Builtin
import ProductionSystem.Dictionary

/-!
Registries: the commands that rule files may name.
-/

namespace ProductionSystem

abbrev Registry := Dictionary Command

namespace Registry

/-- Registers a command under its own name, in place of an earlier one. -/
def register (registry : Registry) (command : Command) : Registry :=
  registry.insert command.name command

/-- The literal text of a registry: the names in order. -/
def literal (registry : Registry) : String :=
  "\x7b" ++ ", ".intercalate (registry.names.map Text.quoted) ++ "\x7d"

def builtins : Registry := Builtin.all.foldl (fun registry builtin => registry.register builtin.command) {}

end Registry

end ProductionSystem

/-!
The configuration of an engine.
-/

namespace ProductionSystem

/-- The settings of an engine. -/
structure Config where
  /-- Are rules with more variable tests tried first? -/
  sortBySpecificity : Bool
  matchWorkers : Nat
  actionWorkers : Nat
  /-- Are rules matched by workers, and not on the loop? -/
  parallelMatch : Bool
  /-- For how many milliseconds an engine with nothing to do waits for facts from outside. -/
  idleTimeout : Option Nat
  /-- How many frames the search for a match may pop. -/
  maxMatchFrames : Option Nat
  deriving DecidableEq

namespace Config

/-- Everything in parallel, with as many workers as the machine has processors. -/
def parallel (processors : Nat) : Config where
  sortBySpecificity := false
  matchWorkers := processors
  actionWorkers := processors
  parallelMatch := true
  idleTimeout := none
  maxMatchFrames := none

/-- Matching on the loop, and one worker for actions. -/
def sequential : Config := { parallel 1 with parallelMatch := false }

def withSortBySpecificity (config : Config) (enabled : Bool) : Config :=
  { config with sortBySpecificity := enabled }

/-- Sets the number of workers for matching, at least one. -/
def withMatchWorkers (config : Config) (workers : Nat) : Config :=
  { config with matchWorkers := max workers 1 }

/-- Sets the number of workers for actions, at least one. -/
def withActionWorkers (config : Config) (workers : Nat) : Config :=
  { config with actionWorkers := max workers 1 }

def withParallelMatch (config : Config) (enabled : Bool) : Config :=
  { config with parallelMatch := enabled }

def withIdleTimeout (config : Config) (timeout : Option Nat) : Config :=
  { config with idleTimeout := timeout }

def withMaxMatchFrames (config : Config) (frames : Option Nat) : Config :=
  { config with maxMatchFrames := frames }

end Config

end ProductionSystem

/-!
Conflict resolution: which of the possible choices is taken. The one taken last is passed over, so
that it cannot keep the others waiting, unless it is the only one.
-/

namespace ProductionSystem.Conflict

variable {α : Type}

/-- The choices that remain when the one taken last is set aside. -/
def contenders (takenLast : α → Bool) (choices : List α) : List α :=
  if 1 < choices.length then choices.eraseP takenLast else choices

/-- The first choice, other than the one taken last if there are several. -/
def select (takenLast : α → Bool) (choices : List α) : Option α :=
  (contenders takenLast choices).head?

end ProductionSystem.Conflict

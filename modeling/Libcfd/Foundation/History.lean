import Libcfd.Foundation.Machine

/-!
# Machines with a history

A history is carried along a run and written by its steps, which do not read it: it says what has
happened where the state alone does not.
-/

namespace Libcfd.Machine

variable {State Label History : Type} {step : State → Label → Option State}
  {record : State → Label → History → History}

def withHistory (step : State → Label → Option State)
    (record : State → Label → History → History) (s : State × History) (l : Label) :
    Option (State × History) :=
  (step s.1 l).map fun t => (t, record s.1 l s.2)

theorem withHistory_eq_some {s t : State × History} {l : Label} :
    withHistory step record s l = some t ↔ step s.1 l = some t.1 ∧ t.2 = record s.1 l s.2 := by
  rw [withHistory, Option.map_eq_some_iff]
  constructor
  · rintro ⟨u, hu, rfl⟩
    exact ⟨hu, rfl⟩
  · rintro ⟨ht, hrecord⟩
    exact ⟨t.1, ht, Prod.ext rfl hrecord.symm⟩

end Libcfd.Machine

/-!
# Entries and what comes before them
-/

namespace Libcfd

variable {α : Type}

/-- Each entry stands in the relation `R` to the entries before it. -/
def Follows (R : List α → α → Prop) (xs : List α) : Prop :=
  ∀ before x after, xs = before ++ x :: after → R before x

@[simp] theorem follows_nil (R : List α → α → Prop) : Follows R [] := by
  intro before x after h
  exact absurd h.symm (List.append_ne_nil_of_right_ne_nil before (List.cons_ne_nil x after))

theorem follows_concat {R : List α → α → Prop} {xs : List α} {x : α} :
    Follows R (xs ++ [x]) ↔ Follows R xs ∧ R xs x := by
  constructor
  · intro h
    refine ⟨fun before y after heq => ?_, h xs x [] rfl⟩
    refine h before y (after ++ [x]) ?_
    rw [heq, List.append_assoc, List.cons_append]
  · rintro ⟨h, hx⟩ before y after heq
    rcases List.eq_nil_or_concat after with rfl | ⟨front, z, rfl⟩
    · obtain ⟨rfl, hlast⟩ := List.append_inj' heq rfl
      obtain ⟨rfl, _⟩ := List.cons.inj hlast
      exact hx
    · rw [List.concat_eq_append, ← List.cons_append, ← List.append_assoc] at heq
      obtain ⟨hfront, _⟩ := List.append_inj' heq rfl
      exact h before y front hfront

end Libcfd

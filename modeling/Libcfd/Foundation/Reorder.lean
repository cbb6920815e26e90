import Mathlib.Data.List.Perm.Basic
import Mathlib.Tactic.ByContra

/-!
# Lists whose order matters for each key only

Two lists have the same elements in another order, but those of one key in the same order. What is
read of the elements of one key is read of either; what is read of elements of different keys is if
all of these read the same. Otherwise two elements that do not can be swapped
(`exists_reorders_swap`).
-/

namespace Libcfd

variable {α β κ : Type} [DecidableEq κ] {f : α → κ} {l l' : List α}

/-- The elements of either list with one key are the same, in the same order. -/
def Reorders (f : α → κ) (l l' : List α) : Prop :=
  ∀ k, l.filter (fun a => f a = k) = l'.filter (fun a => f a = k)

theorem Reorders.refl (f : α → κ) (l : List α) : Reorders f l l := fun _ => rfl

theorem Reorders.symm (h : Reorders f l l') : Reorders f l' l := fun k => (h k).symm

theorem Reorders.trans {l'' : List α} (h : Reorders f l l') (h' : Reorders f l' l'') :
    Reorders f l l'' := fun k => (h k).trans (h' k)

theorem Reorders.perm (h : Reorders f l l') : l.Perm l' := by
  classical
  rw [List.perm_iff_count]
  intro a
  have hcount := congrArg (List.count a) (h (f a))
  rwa [List.count_filter (by simp), List.count_filter (by simp)] at hcount

theorem Reorders.mem_iff (h : Reorders f l l') {a : α} : a ∈ l ↔ a ∈ l' := h.perm.mem_iff

/-! ## What is read of one key -/

theorem filterMap_filter_key {g : α → Option β} {k : κ}
    (hg : ∀ a ∈ l, ∀ x, g a = some x → f a = k) :
    (l.filter fun a => f a = k).filterMap g = l.filterMap g := by
  rw [List.filterMap_filter]
  apply List.filterMap_congr
  intro a ha
  cases hx : g a with
  | none => exact ite_self none
  | some x => exact if_pos (decide_eq_true (hg a ha x hx))

theorem Reorders.filterMap_eq_of_key (h : Reorders f l l') {g : α → Option β} {k : κ}
    (hg : ∀ a ∈ l, ∀ x, g a = some x → f a = k) : l.filterMap g = l'.filterMap g := by
  have hg' : ∀ a ∈ l', ∀ x, g a = some x → f a = k := fun a ha => hg a (h.mem_iff.mpr ha)
  rw [← filterMap_filter_key hg, ← filterMap_filter_key hg', h k]

/-- Nothing depends on the order if what is read of different keys is the same. -/
theorem Reorders.filterMap_eq (h : Reorders f l l') {g : α → Option β}
    (hg : ∀ a ∈ l, ∀ b ∈ l, ∀ x y, g a = some x → g b = some y → f a ≠ f b → x = y) :
    l.filterMap g = l'.filterMap g := by
  by_cases hone : ∃ a ∈ l, ∃ b ∈ l, ∃ x y, g a = some x ∧ g b = some y ∧ f a ≠ f b
  · -- what is read is the same value throughout
    obtain ⟨a, ha, b, hb, x, y, hx, hy, hab⟩ := hone
    obtain rfl := hg a ha b hb x y hx hy hab
    have hall : ∀ z ∈ l.filterMap g, z = x := by
      intro z hz
      obtain ⟨c, hc, hz⟩ := List.mem_filterMap.mp hz
      by_cases hca : f c = f a
      · exact hg c hc b hb z x hz hy (hca ▸ hab)
      · exact hg c hc a ha z x hz hx hca
    have hreplicate := List.eq_replicate_iff.mpr ⟨rfl, hall⟩
    have hperm := h.perm.filterMap g
    rw [hreplicate] at hperm ⊢
    exact (List.perm_replicate.mp hperm.symm).symm
  · -- what is read is of one key
    by_cases hnone : ∃ a ∈ l, ∃ x, g a = some x
    · obtain ⟨a, ha, x, hx⟩ := hnone
      apply h.filterMap_eq_of_key (k := f a)
      intro b hb y hy
      by_contra hne
      exact hone ⟨b, hb, a, ha, y, x, hy, hx, hne⟩
    · have hnil : ∀ l'' : List α, (∀ a ∈ l'', a ∈ l) → l''.filterMap g = [] := by
        intro l'' hl
        rw [List.filterMap_eq_nil_iff]
        intro a ha
        rw [Option.eq_none_iff_forall_ne_some]
        intro x hx
        exact hnone ⟨a, hl a ha, x, hx⟩
      rw [hnil l fun a ha => ha, hnil l' fun a ha => h.mem_iff.mpr ha]

/-! ## Other orders -/

theorem Reorders.append {r r' : List α} (h : Reorders f l l') (h' : Reorders f r r') :
    Reorders f (l ++ r) (l' ++ r') := by
  intro k
  rw [List.filter_append, List.filter_append, h k, h' k]

/-- Lists without a key in common can change places. -/
theorem reorders_comm (h : ∀ a ∈ l, ∀ b ∈ l', f a ≠ f b) : Reorders f (l ++ l') (l' ++ l) := by
  intro k
  rw [List.filter_append, List.filter_append]
  by_cases hk : ∃ a ∈ l, f a = k
  · obtain ⟨a, ha, rfl⟩ := hk
    have hnil : l'.filter (fun b => f b = f a) = [] := by
      rw [List.filter_eq_nil_iff]
      intro b hb hba
      exact h a ha b hb (of_decide_eq_true hba).symm
    rw [hnil, List.append_nil, List.nil_append]
  · have hnil : l.filter (fun b => f b = k) = [] := by
      rw [List.filter_eq_nil_iff]
      intro a ha hak
      exact hk ⟨a, ha, of_decide_eq_true hak⟩
    rw [hnil, List.append_nil, List.nil_append]

/-- The elements of one key first. -/
theorem reorders_first (f : α → κ) (l : List α) (k : κ) :
    Reorders f l (l.filter (fun a => f a = k) ++ l.filter (fun a => ¬ f a = k)) := by
  induction l with
  | nil => exact .refl f []
  | cons a l ih =>
      by_cases ha : f a = k
      · rw [List.filter_cons_of_pos (by simpa using ha),
          List.filter_cons_of_neg (by simpa using ha)]
        exact Reorders.append (.refl f [a]) ih
      · rw [List.filter_cons_of_neg (by simpa using ha),
          List.filter_cons_of_pos (by simpa using ha)]
        refine (Reorders.append (.refl f [a]) ih).trans ?_
        rw [← List.append_assoc, List.append_cons _ a]
        refine Reorders.append (reorders_comm ?_) (.refl f _)
        intro c hc b hb hcb
        obtain rfl := List.mem_singleton.mp hc
        have hbk := of_decide_eq_true (List.mem_filter.mp hb).2
        exact ha (hcb.trans hbk)

/-- Two elements of different keys next to each other, in either order. -/
theorem exists_reorders_swap {a b : α} (ha : a ∈ l) (hb : b ∈ l) (h : f a ≠ f b) :
    ∃ before after, Reorders f l (before ++ a :: b :: after) ∧
      Reorders f l (before ++ b :: a :: after) := by
  have hfirst := reorders_first f l (f a)
  have hsecond := reorders_first f (l.filter fun c => ¬ f c = f a) (f b)
  obtain ⟨as, as', has⟩ := List.append_of_mem (List.mem_filter.mpr ⟨ha, decide_eq_true rfl⟩ :
    a ∈ l.filter fun c => f c = f a)
  obtain ⟨bs, bs', hbs⟩ := List.append_of_mem (List.mem_filter.mpr
    ⟨List.mem_filter.mpr ⟨hb, decide_eq_true h.symm⟩, decide_eq_true rfl⟩ :
    b ∈ (l.filter fun c => ¬ f c = f a).filter fun c => f c = f b)
  have hkeya : ∀ c ∈ as ++ a :: as', f c = f a := by
    intro c hc
    rw [← has] at hc
    exact of_decide_eq_true (List.mem_filter.mp hc).2
  have hkeyb : ∀ c ∈ bs ++ b :: bs', f c = f b := by
    intro c hc
    rw [← hbs] at hc
    exact of_decide_eq_true (List.mem_filter.mp hc).2
  rw [has] at hfirst
  rw [hbs] at hsecond
  generalize (l.filter fun c => ¬ f c = f a).filter (fun c => ¬ f c = f b) = rest at hsecond
  have hl := hfirst.trans (Reorders.append (.refl f _) hsecond)
  -- the elements of `b`'s key before `b` go to the front, `b` next to `a`
  have hbefore : Reorders f (a :: as' ++ bs) (bs ++ a :: as') := by
    apply reorders_comm
    intro c hc d hd hcd
    rw [hkeya c (List.mem_append_right _ hc), hkeyb d (List.mem_append_left _ hd)] at hcd
    exact h hcd
  have hnext : Reorders f (as' ++ [b]) ([b] ++ as') := by
    apply reorders_comm
    intro c hc d hd hcd
    obtain rfl := List.mem_singleton.mp hd
    rw [hkeya c (List.mem_append_right _ (List.mem_cons_of_mem _ hc))] at hcd
    exact h hcd
  have hab : Reorders f l ((as ++ bs) ++ a :: b :: (as' ++ bs' ++ rest)) := by
    have h₁ := Reorders.append (.refl f as) (Reorders.append hbefore (.refl f (b :: bs' ++ rest)))
    have h₂ := Reorders.append (.refl f (as ++ bs ++ [a]))
      (Reorders.append hnext (.refl f (bs' ++ rest)))
    simp only [List.append_assoc, List.cons_append, List.nil_append] at hl h₁ h₂ ⊢
    exact (hl.trans h₁).trans h₂
  have hswap : Reorders f [a, b] [b, a] := by
    apply @reorders_comm _ _ _ f [a] [b]
    intro c hc d hd
    rwa [List.mem_singleton.mp hc, List.mem_singleton.mp hd]
  exact ⟨as ++ bs, as' ++ bs' ++ rest, hab, hab.trans (Reorders.append (.refl f _)
    (Reorders.append hswap (.refl f _)))⟩

end Libcfd

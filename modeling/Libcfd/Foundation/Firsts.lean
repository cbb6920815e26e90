import Mathlib.Data.List.Basic
import Mathlib.Data.List.Induction
import Mathlib.Data.List.Nodup

/-!
# Each element once

A list that is put together by pushing what is not in it yet has the elements that were offered to
it, each once, in the order in which they came first.
-/

namespace Libcfd.Firsts

variable {α β : Type} [DecidableEq α] [DecidableEq β]

/-- `if !out.contains(&a) { out.push(a) }`. -/
def pushNew (out : List α) (a : α) : List α := if a ∈ out then out else out ++ [a]

/-- The elements of `source`, each where it comes first. -/
structure IsFirsts (source out : List α) : Prop where
  nodup : out.Nodup
  mem_iff : ∀ a, a ∈ out ↔ a ∈ source
  order : out.Pairwise fun a b => source.idxOf a < source.idxOf b

theorem isFirsts_nil : IsFirsts ([] : List α) [] := ⟨.nil, fun _ => .rfl, .nil⟩

theorem isFirsts_pushNew {source out : List α} (h : IsFirsts source out) (a : α) :
    IsFirsts (source ++ [a]) (pushNew out a) := by
  have hidx : ∀ b ∈ out, (source ++ [a]).idxOf b = source.idxOf b := by
    intro b hb
    exact List.idxOf_append_of_mem ((h.mem_iff b).mp hb)
  have horder : out.Pairwise fun b c => (source ++ [a]).idxOf b < (source ++ [a]).idxOf c := by
    apply h.order.imp_of_mem
    intro b c hb hc hlt
    rwa [hidx b hb, hidx c hc]
  unfold pushNew
  split
  · next hmem =>
      refine ⟨h.nodup, ?_, horder⟩
      intro b
      rw [List.mem_append, List.mem_singleton, h.mem_iff]
      constructor
      · exact .inl
      · rintro (hb | rfl)
        · exact hb
        · exact (h.mem_iff b).mp hmem
  · next hmem =>
      have hsource : a ∉ source := fun ha => hmem ((h.mem_iff a).mpr ha)
      refine ⟨?_, ?_, ?_⟩
      · rw [List.nodup_append]
        refine ⟨h.nodup, List.nodup_singleton a, ?_⟩
        rintro b hb c hc rfl
        exact hmem (List.mem_singleton.mp hc ▸ hb)
      · intro b
        rw [List.mem_append, List.mem_append, h.mem_iff]
      · rw [List.pairwise_append]
        refine ⟨horder, List.pairwise_singleton _ _, ?_⟩
        intro b hb c hc
        rw [List.mem_singleton.mp hc, hidx b hb, List.idxOf_append_of_notMem hsource,
          List.idxOf_cons_self, Nat.add_zero]
        exact List.idxOf_lt_length_of_mem ((h.mem_iff b).mp hb)

theorem isFirsts_foldl {source out : List α} (h : IsFirsts source out) (more : List α) :
    IsFirsts (source ++ more) (more.foldl pushNew out) := by
  induction more generalizing source out with
  | nil => rwa [List.append_nil]
  | cons a more ih =>
      have hnext := ih (isFirsts_pushNew h a)
      rwa [List.append_assoc] at hnext

theorem isFirsts_firsts (source : List α) : IsFirsts source (source.foldl pushNew []) :=
  isFirsts_foldl isFirsts_nil source

theorem foldl_pushNew_eq_nil {source : List α} : source.foldl pushNew [] = [] ↔ source = [] := by
  rw [List.eq_nil_iff_forall_not_mem, List.eq_nil_iff_forall_not_mem]
  exact forall_congr' fun a => not_congr ((isFirsts_firsts source).mem_iff a)

theorem pushNew_of_mem {out : List α} {a : α} (h : a ∈ out) : pushNew out a = out := if_pos h

theorem mem_pushNew {out : List α} {a b : α} : b ∈ pushNew out a ↔ b ∈ out ∨ b = a := by
  unfold pushNew
  split
  · next hmem =>
      constructor
      · exact .inl
      · rintro (hb | rfl)
        · exact hb
        · exact hmem
  · rw [List.mem_append, List.mem_singleton]

theorem mem_foldl_pushNew {out more : List α} {a : α} :
    a ∈ more.foldl pushNew out ↔ a ∈ out ∨ a ∈ more := by
  induction more generalizing out with
  | nil => simp
  | cons b more ih => rw [List.foldl_cons, ih, mem_pushNew, List.mem_cons, or_assoc]

/-- Offering each element once comes to the same as offering them as they come. -/
theorem foldl_pushNew_firsts (f : α → β) (source : List α) (out : List β) :
    ((source.foldl pushNew []).map f).foldl pushNew out = (source.map f).foldl pushNew out := by
  induction source using List.reverseRecOn with
  | nil => rfl
  | append_singleton source a ih =>
      rw [List.foldl_append, List.foldl_cons, List.foldl_nil, List.map_append, List.map_singleton,
        List.foldl_append, ← ih, List.foldl_cons, List.foldl_nil]
      by_cases hmem : a ∈ source.foldl pushNew []
      · have hf : f a ∈ ((source.foldl pushNew []).map f).foldl pushNew out :=
          mem_foldl_pushNew.mpr (.inr (List.mem_map_of_mem hmem))
        rw [pushNew_of_mem hmem, pushNew_of_mem hf]
      · rw [pushNew, if_neg hmem, List.map_append, List.foldl_append]
        rfl

end Libcfd.Firsts

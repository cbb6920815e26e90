/-!
# Machines: partial step functions and their runs

A machine is a partial function `step : State → Label → Option State`. The label resolves every
choice the environment or a scheduler can make, so a run is nothing but its list of labels and the
state it ends in is a function of that list. Two rules carry every proof about runs:

* `run_induction` — an invariant of the pair (labels taken so far, state) that every step keeps
  holds at the end of every run;
* `run_induction_of_always` — the same when each step taken meets a condition `C`, the form in
  which "in every run whose steps all meet `C`" is stated.
-/

namespace Libcfd.Machine

variable {State Label : Type} {step : State → Label → Option State}

/-- Take the steps `ls` in order; `none` as soon as one of them is not enabled. -/
def run (step : State → Label → Option State) : State → List Label → Option State
  | s, [] => some s
  | s, l :: ls => (step s l).bind (fun t => run step t ls)

/-- Every step of the run of `ls` from `s` meets `C` in the state it is taken in. -/
def Always (step : State → Label → Option State) (C : State → Label → Prop) :
    State → List Label → Prop
  | _, [] => True
  | s, l :: ls => C s l ∧ ∀ t, step s l = some t → Always step C t ls

/-- Some run leads from `s` to `t`. -/
def Reaches (step : State → Label → Option State) (s t : State) : Prop :=
  ∃ ls, run step s ls = some t

@[simp] theorem run_nil (s : State) : run step s [] = some s := rfl

@[simp] theorem run_cons (s : State) (l : Label) (ls : List Label) :
    run step s (l :: ls) = (step s l).bind (fun t => run step t ls) := rfl

theorem run_cons_eq_some {s u : State} {l : Label} {ls : List Label} :
    run step s (l :: ls) = some u ↔ ∃ t, step s l = some t ∧ run step t ls = some u := by
  simp [Option.bind_eq_some_iff]

theorem run_append_eq_some {s u : State} {xs ys : List Label} :
    run step s (xs ++ ys) = some u ↔ ∃ t, run step s xs = some t ∧ run step t ys = some u := by
  induction xs generalizing s with
  | nil => simp
  | cons l ls ih =>
      rw [List.cons_append, run_cons_eq_some]
      constructor
      · rintro ⟨t, hl, hrest⟩
        obtain ⟨v, hv, hu⟩ := ih.mp hrest
        exact ⟨v, run_cons_eq_some.mpr ⟨t, hl, hv⟩, hu⟩
      · rintro ⟨v, hv, hu⟩
        obtain ⟨t, hl, hls⟩ := run_cons_eq_some.mp hv
        exact ⟨t, hl, ih.mpr ⟨v, hls, hu⟩⟩

@[simp] theorem always_nil {C : State → Label → Prop} (s : State) : Always step C s [] := trivial

theorem always_cons {C : State → Label → Prop} {s : State} {l : Label} {ls : List Label} :
    Always step C s (l :: ls) ↔ C s l ∧ ∀ t, step s l = some t → Always step C t ls := Iff.rfl

/-- Along a run a condition can be checked as the run is made. -/
instance decidableAlways {C : State → Label → Prop} [∀ s l, Decidable (C s l)] :
    ∀ (s : State) (ls : List Label), Decidable (Always step C s ls)
  | _, [] => isTrue trivial
  | s, l :: ls =>
      match h : step s l with
      | none => decidable_of_iff (C s l) (by simp [always_cons, h])
      | some t =>
          have : Decidable (Always step C t ls) := decidableAlways t ls
          decidable_of_iff (C s l ∧ Always step C t ls) (by simp [always_cons, h])

/-- A condition every step meets is met along every run. -/
theorem always_of_forall {C : State → Label → Prop} (h : ∀ s l, C s l) (s : State)
    (ls : List Label) : Always step C s ls := by
  induction ls generalizing s with
  | nil => exact trivial
  | cons l ls ih => exact ⟨h s l, fun t _ => ih t⟩

theorem always_of_forall_mem {C : State → Label → Prop} {ls : List Label}
    (h : ∀ l ∈ ls, ∀ s, C s l) (s : State) : Always step C s ls := by
  induction ls generalizing s with
  | nil => exact trivial
  | cons l ls ih =>
      refine ⟨h l List.mem_cons_self s, fun t _ => ih (fun l' hl' => ?_) t⟩
      exact h l' (List.mem_cons_of_mem l hl')

theorem always_append {C : State → Label → Prop} {s t : State} {xs ys : List Label}
    (hrun : run step s xs = some t) :
    Always step C s (xs ++ ys) ↔ Always step C s xs ∧ Always step C t ys := by
  induction xs generalizing s with
  | nil =>
      cases hrun
      simp
  | cons l ls ih =>
      obtain ⟨v, hl, hls⟩ := run_cons_eq_some.mp hrun
      have hdet : ∀ w, step s l = some w → w = v := fun w hw => Option.some.inj (hw.symm.trans hl)
      rw [List.cons_append, always_cons, always_cons]
      constructor
      · rintro ⟨hC, hrest⟩
        obtain ⟨h₁, h₂⟩ := (ih hls).mp (hrest v hl)
        exact ⟨⟨hC, fun w hw => hdet w hw ▸ h₁⟩, h₂⟩
      · rintro ⟨⟨hC, hrest⟩, h₂⟩
        exact ⟨hC, fun w hw => hdet w hw ▸ (ih hls).mpr ⟨hrest v hl, h₂⟩⟩

/-- The last step of a run met it too. -/
theorem always_last {C : State → Label → Prop} {s t : State} {ls : List Label} {l : Label}
    (hrun : run step s ls = some t) (h : Always step C s (ls ++ [l])) : C t l :=
  ((always_append hrun).mp h).2.1

/-- **Invariants with history, under a condition on the steps.** -/
theorem run_induction_of_always {C : State → Label → Prop} (Inv : List Label → State → Prop)
    (hstep : ∀ past s l t, Inv past s → C s l → step s l = some t → Inv (past ++ [l]) t)
    {past ls : List Label} {s t : State} (hinv : Inv past s)
    (hrun : run step s ls = some t) (hC : Always step C s ls) : Inv (past ++ ls) t := by
  induction ls generalizing past s with
  | nil =>
      cases hrun
      simpa using hinv
  | cons l ls ih =>
      obtain ⟨v, hl, hls⟩ := run_cons_eq_some.mp hrun
      have hv : Inv (past ++ [l]) v := hstep past s l v hinv hC.1 hl
      simpa using ih hv hls (hC.2 v hl)

/-- **Invariants with history.** -/
theorem run_induction (Inv : List Label → State → Prop)
    (hstep : ∀ past s l t, Inv past s → step s l = some t → Inv (past ++ [l]) t)
    {past ls : List Label} {s t : State} (hinv : Inv past s)
    (hrun : run step s ls = some t) : Inv (past ++ ls) t :=
  run_induction_of_always Inv (fun past s l t hi _ => hstep past s l t hi) hinv hrun
    (always_of_forall (fun _ _ => trivial) s ls)

/-- Invariants of the state alone. -/
theorem run_invariant_of_always {C : State → Label → Prop} (Inv : State → Prop)
    (hstep : ∀ s l t, Inv s → C s l → step s l = some t → Inv t) {ls : List Label} {s t : State}
    (hinv : Inv s) (hrun : run step s ls = some t) (hC : Always step C s ls) : Inv t := by
  induction ls generalizing s with
  | nil =>
      cases hrun
      exact hinv
  | cons l ls ih =>
      obtain ⟨v, hl, hls⟩ := run_cons_eq_some.mp hrun
      exact ih (hstep s l v hinv hC.1 hl) hls (hC.2 v hl)

theorem run_invariant (Inv : State → Prop) (hstep : ∀ s l t, Inv s → step s l = some t → Inv t)
    {ls : List Label} {s t : State} (hinv : Inv s) (hrun : run step s ls = some t) : Inv t :=
  run_invariant_of_always Inv (fun s l t hs _ => hstep s l t hs) hinv hrun
    (always_of_forall (fun _ _ => trivial) s ls)

/-- What the steps of a run meet wherever an invariant holds. -/
theorem always_of_invariant {C D : State → Label → Prop} (Inv : State → Prop)
    (hD : ∀ s l, Inv s → C s l → D s l)
    (hstep : ∀ s l t, Inv s → C s l → step s l = some t → Inv t) {ls : List Label} {s : State}
    (hinv : Inv s) (hC : Always step C s ls) : Always step D s ls := by
  induction ls generalizing s with
  | nil => exact trivial
  | cons l ls ih =>
      exact ⟨hD s l hinv hC.1, fun t ht => ih (hstep s l t hinv hC.1 ht) (hC.2 t ht)⟩

theorem always_mono {C D : State → Label → Prop} (h : ∀ s l, C s l → D s l) {ls : List Label}
    {s : State} (hC : Always step C s ls) : Always step D s ls :=
  always_of_invariant (fun _ => True) (fun s l _ => h s l) (fun _ _ _ _ _ _ => trivial) trivial hC

/-! ## What holds all along a run -/

/-- `P` holds in every state the run of `ls` from `s` passes, the last one included. -/
def Throughout (step : State → Label → Option State) (P : State → Prop) (s : State)
    (ls : List Label) : Prop :=
  ∀ before after t, ls = before ++ after → run step s before = some t → P t

theorem Throughout.head {P : State → Prop} {s : State} {ls : List Label}
    (h : Throughout step P s ls) : P s := h [] ls s rfl rfl

theorem throughout_cons {P : State → Prop} {s t : State} {l : Label} {ls : List Label}
    (h : step s l = some t) :
    Throughout step P s (l :: ls) ↔ P s ∧ Throughout step P t ls := by
  constructor
  · intro hall
    refine ⟨hall.head, fun before after u hls hrun => ?_⟩
    exact hall (l :: before) after u (by rw [hls, List.cons_append])
      (run_cons_eq_some.mpr ⟨t, h, hrun⟩)
  · rintro ⟨hs, hrest⟩ before after u hls hrun
    cases before with
    | nil =>
        cases hrun
        exact hs
    | cons l' before =>
        obtain ⟨rfl, htail⟩ := List.cons.inj hls
        obtain ⟨v, hv, hlast⟩ := run_cons_eq_some.mp hrun
        cases h.symm.trans hv
        exact hrest before after u htail hlast

/-- What an invariant says holds all along a run. -/
theorem throughout_of_always {C : State → Label → Prop} {P : State → Prop} (Inv : State → Prop)
    (hP : ∀ s, Inv s → P s) (hstep : ∀ s l t, Inv s → C s l → step s l = some t → Inv t)
    {ls : List Label} {s : State} (hinv : Inv s) (hC : Always step C s ls) :
    Throughout step P s ls := by
  rintro before after t rfl hbefore
  have hmet : Always step C s before := ((always_append hbefore).mp hC).1
  exact hP t (run_invariant_of_always Inv hstep hinv hbefore hmet)

/-- **What holds before a step holds after it if and only if the step meets `C`**: then it holds all
along a run if and only if every step of the run meets `C`. -/
theorem throughout_iff_always {C : State → Label → Prop} {P : State → Prop}
    (Inv : List Label → State → Prop)
    (hstep : ∀ past s l t, Inv past s → step s l = some t → Inv (past ++ [l]) t)
    (hlocal : ∀ past s l t, Inv past s → P s → step s l = some t → (P t ↔ C s l))
    {past ls : List Label} {s t : State} (hinv : Inv past s) (hs : P s)
    (hrun : run step s ls = some t) : Throughout step P s ls ↔ Always step C s ls := by
  induction ls generalizing past s with
  | nil =>
      refine iff_of_true (fun before after u hls hu => ?_) trivial
      rw [(List.append_eq_nil_iff.mp hls.symm).1] at hu
      cases hu
      exact hs
  | cons l ls ih =>
      obtain ⟨v, hl, hls⟩ := run_cons_eq_some.mp hrun
      have hdet : ∀ w, step s l = some w → w = v := fun w hw => Option.some.inj (hw.symm.trans hl)
      have hiff := hlocal past s l v hinv hs hl
      have hv := hstep past s l v hinv hl
      rw [throughout_cons hl, always_cons]
      constructor
      · rintro ⟨-, hrest⟩
        exact ⟨hiff.mp hrest.head, fun w hw => hdet w hw ▸ (ih hv hrest.head hls).mp hrest⟩
      · rintro ⟨hC, hrest⟩
        exact ⟨hs, (ih hv (hiff.mpr hC) hls).mpr (hrest v hl)⟩

/-- What cannot come back holds at the start of a run if it holds at the end. -/
theorem of_run_last {P : State → Prop} (hback : ∀ s l t, step s l = some t → P t → P s)
    {ls : List Label} {s t : State} (hrun : run step s ls = some t) (ht : P t) : P s := by
  induction ls generalizing s with
  | nil =>
      cases hrun
      exact ht
  | cons l ls ih =>
      obtain ⟨v, hl, hls⟩ := run_cons_eq_some.mp hrun
      exact hback s l v hl (ih hls)

/-- Then it has held all along. -/
theorem throughout_of_last {P : State → Prop} (hback : ∀ s l t, step s l = some t → P t → P s)
    {ls : List Label} {s t : State} (hrun : run step s ls = some t) (ht : P t) :
    Throughout step P s ls := by
  rintro before after u rfl hbefore
  obtain ⟨u', hu', hafter⟩ := run_append_eq_some.mp hrun
  cases hbefore.symm.trans hu'
  exact of_run_last hback hafter ht

/-! ## What a run has met -/

/-- Some step of the run of `ls` from `s` meets `C` in the state it is taken in. -/
def Sometime (step : State → Label → Option State) (C : State → Label → Prop) (s : State)
    (ls : List Label) : Prop :=
  ∃ before l after t, ls = before ++ l :: after ∧ run step s before = some t ∧ C t l

theorem sometime_cons {C : State → Label → Prop} {s t : State} {l : Label} {ls : List Label}
    (h : step s l = some t) :
    Sometime step C s (l :: ls) ↔ C s l ∨ Sometime step C t ls := by
  constructor
  · rintro ⟨before, l', after, u, hls, hrun, hC⟩
    cases before with
    | nil =>
        cases hrun
        cases hls
        exact .inl hC
    | cons _ before =>
        obtain ⟨rfl, htail⟩ := List.cons.inj hls
        obtain ⟨v, hv, hrest⟩ := run_cons_eq_some.mp hrun
        cases h.symm.trans hv
        exact .inr ⟨before, l', after, u, htail, hrest, hC⟩
  · rintro (hC | ⟨before, l', after, u, hls, hrun, hC⟩)
    · exact ⟨[], l, ls, s, rfl, rfl, hC⟩
    · exact ⟨l :: before, l', after, u, by rw [hls, List.cons_append],
        run_cons_eq_some.mpr ⟨t, h, hrun⟩, hC⟩

/-- **What holds after a step if and only if it held before or the step meets `C`** holds at the end
of a run if and only if it held at the start or some step met `C`. -/
theorem run_iff_sometime {C : State → Label → Prop} {P : State → Prop}
    (hstep : ∀ s l t, step s l = some t → (P t ↔ P s ∨ C s l)) {ls : List Label} {s t : State}
    (hrun : run step s ls = some t) : P t ↔ P s ∨ Sometime step C s ls := by
  induction ls generalizing s with
  | nil =>
      cases hrun
      refine (or_iff_left ?_).symm
      rintro ⟨before, l, after, _, hls, _, _⟩
      exact absurd hls.symm (List.append_ne_nil_of_right_ne_nil before (List.cons_ne_nil l after))
  | cons l ls ih =>
      obtain ⟨v, hl, hls⟩ := run_cons_eq_some.mp hrun
      rw [ih hls, hstep s l v hl, sometime_cons hl, or_assoc]

theorem sometime_or {C D : State → Label → Prop} {s : State} {ls : List Label} :
    Sometime step (fun s l => C s l ∨ D s l) s ls ↔
      Sometime step C s ls ∨ Sometime step D s ls := by
  constructor
  · rintro ⟨before, l, after, t, hls, hrun, hC | hD⟩
    · exact .inl ⟨before, l, after, t, hls, hrun, hC⟩
    · exact .inr ⟨before, l, after, t, hls, hrun, hD⟩
  · rintro (⟨before, l, after, t, hls, hrun, hC⟩ | ⟨before, l, after, t, hls, hrun, hD⟩)
    · exact ⟨before, l, after, t, hls, hrun, .inl hC⟩
    · exact ⟨before, l, after, t, hls, hrun, .inr hD⟩

/-- A condition on the label alone. -/
theorem sometime_label {D : Label → Prop} {s t : State} {ls : List Label}
    (hrun : run step s ls = some t) : Sometime step (fun _ l => D l) s ls ↔ ∃ l ∈ ls, D l := by
  constructor
  · rintro ⟨before, l, after, _, rfl, _, hD⟩
    exact ⟨l, List.mem_append_right before List.mem_cons_self, hD⟩
  · rintro ⟨l, hl, hD⟩
    obtain ⟨before, after, rfl⟩ := List.append_of_mem hl
    obtain ⟨u, hbefore, _⟩ := run_append_eq_some.mp hrun
    exact ⟨before, l, after, u, rfl, hbefore, hD⟩

/-- What holds at the start of a run and not at its end is lost at some step. -/
theorem sometime_lost {P : State → Prop} {ls : List Label} {s t : State}
    (hrun : run step s ls = some t) (hs : P s) (ht : ¬ P t) :
    Sometime step (fun s l => P s ∧ ∃ t, step s l = some t ∧ ¬ P t) s ls := by
  induction ls generalizing s with
  | nil =>
      cases hrun
      exact absurd hs ht
  | cons l ls ih =>
      obtain ⟨v, hl, hls⟩ := run_cons_eq_some.mp hrun
      rw [sometime_cons hl]
      by_cases hv : P v
      · exact .inr (ih hls hv)
      · exact .inl ⟨hs, v, hl, hv⟩

/-! ## What an event rules out -/

/-- No state that can be reached from `s` is a `B`. -/
def Never (step : State → Label → Option State) (B : State → Prop) (s : State) : Prop :=
  ∀ ls t, run step s ls = some t → ¬ B t

/-- Once a step of the run of `ls` from `s` has been an `E`, no state is a `B`. -/
def NeverAfter (step : State → Label → Option State) (E : State → Label → Prop)
    (B : State → Prop) (s : State) (ls : List Label) : Prop :=
  ∀ before l mid after t u, ls = before ++ l :: mid ++ after → run step s before = some t →
    E t l → run step s (before ++ l :: mid) = some u → ¬ B u

theorem Never.next {B : State → Prop} {s t : State} {l : Label} (h : Never step B s)
    (hl : step s l = some t) : Never step B t :=
  fun ls u hrun => h (l :: ls) u (run_cons_eq_some.mpr ⟨t, hl, hrun⟩)

theorem never_of_invariant {B Inv : State → Prop} {s : State}
    (hstep : ∀ s l t, Inv s → step s l = some t → Inv t) (hB : ∀ s, Inv s → ¬ B s)
    (hinv : Inv s) : Never step B s :=
  fun _ t hrun => hB t (run_invariant Inv hstep hinv hrun)

/-- **If every `E` that meets `C` rules `B` out, a run whose steps all meet `C` has no `B` after an
`E`.** -/
theorem neverAfter_of_always {E C : State → Label → Prop} {B : State → Prop} {s : State}
    {ls : List Label}
    (h : ∀ past t l u, run step s past = some t → E t l → C t l → step t l = some u →
      Never step B u)
    (hC : Always step C s ls) : NeverAfter step E B s ls := by
  intro before l mid after t u hls hbefore hE hmid
  obtain ⟨t', ht', hrest⟩ := run_append_eq_some.mp hmid
  cases hbefore.symm.trans ht'
  obtain ⟨v, hv, hlast⟩ := run_cons_eq_some.mp hrest
  rw [hls, List.append_assoc] at hC
  have hl : C t l := ((always_append hbefore).mp hC).2.1
  exact h before t l v hbefore hE hl hv mid u hlast

/-! ## What can be observed of a run -/

section Observe

variable {β : Type} {f : State → Label → Option β}

/-- What the steps of a run show, in order. -/
def observe (step : State → Label → Option State) (f : State → Label → Option β) :
    State → List Label → List β
  | _, [] => []
  | s, l :: ls => (f s l).toList ++ ((step s l).map fun t => observe step f t ls).getD []

@[simp] theorem observe_nil (s : State) : observe step f s [] = [] := rfl

theorem observe_cons {s t : State} {l : Label} {ls : List Label} (h : step s l = some t) :
    observe step f s (l :: ls) = (f s l).toList ++ observe step f t ls := by
  rw [observe, h]
  rfl

/-- What holds of all that is observed holds of what each step shows. -/
theorem forall_mem_observe_iff {P : β → Prop} {s : State} {ls : List Label} :
    (∀ x ∈ observe step f s ls, P x) ↔ Always step (fun s l => ∀ x ∈ f s l, P x) s ls := by
  induction ls generalizing s with
  | nil => exact iff_of_true nofun trivial
  | cons l ls ih =>
      rw [observe, always_cons, List.forall_mem_append]
      refine and_congr ?_ ?_
      · simp only [Option.mem_toList, Option.mem_def]
      · cases hstep : step s l with
        | none => exact iff_of_true nofun nofun
        | some t =>
            show (∀ x ∈ observe step f t ls, P x) ↔ _
            rw [ih]
            exact ⟨fun h u hu => Option.some.inj hu ▸ h, fun h => h t rfl⟩

/-- **Invariants with what has been observed.** -/
theorem run_observe_induction {C : State → Label → Prop} (Inv : List β → List Label → State → Prop)
    (hstep : ∀ seen past s l t, Inv seen past s → C s l → step s l = some t →
      Inv (seen ++ (f s l).toList) (past ++ [l]) t)
    {seen : List β} {past ls : List Label} {s t : State} (hinv : Inv seen past s)
    (hrun : run step s ls = some t) (hC : Always step C s ls) :
    Inv (seen ++ observe step f s ls) (past ++ ls) t := by
  induction ls generalizing seen past s with
  | nil =>
      cases hrun
      simpa using hinv
  | cons l ls ih =>
      obtain ⟨v, hl, hls⟩ := run_cons_eq_some.mp hrun
      have hv := hstep seen past s l v hinv hC.1 hl
      simpa [observe_cons hl] using ih hv hls (hC.2 v hl)

theorem run_observe_invariant {C : State → Label → Prop} (Inv : List β → State → Prop)
    (hstep : ∀ seen s l t, Inv seen s → C s l → step s l = some t →
      Inv (seen ++ (f s l).toList) t)
    {seen : List β} {ls : List Label} {s t : State} (hinv : Inv seen s)
    (hrun : run step s ls = some t) (hC : Always step C s ls) :
    Inv (seen ++ observe step f s ls) t :=
  @run_observe_induction _ _ _ _ _ C (fun seen _ s => Inv seen s)
    (fun seen _ s l t => hstep seen s l t) seen [] ls s t hinv hrun hC

end Observe

end Libcfd.Machine

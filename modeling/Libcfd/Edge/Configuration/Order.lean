import Libcfd.Edge.Configuration
import Libcfd.Foundation.Machine

/-!
# Pushes in tasks of their own

Each stream is served by its own task, so the pushes of a connection are handled in any order, and
`update_configuration` can be interrupted by another task between its store, its callback and its
return. Nothing there compares versions: what was stored last is what is applied, and the consumer
is called with every configuration that is pushed. It sees them in order of their versions just as
far as they are stored in this order and one after another.
-/

namespace Libcfd.Edge

open Libcfd.Machine Libcfd.Rpc

/-! ## The tasks -/

/-- How far the task of a push has come in `update_configuration`. -/
inductive Stage where
  | waiting (push : Push)
  | stored (remote : RemoteConfiguration)
  -- the callback has returned
  | called (remote : RemoteConfiguration)
  -- `update_configuration` has returned, or was never called
  | handled (remote : Option RemoteConfiguration)

structure Serving where
  handler : EdgeConfigurationHandler
  stages : List Stage

def Serving.init (pushes : List Push) : Serving := ⟨.new (some []), pushes.map .waiting⟩

/-- The next step of the task `i`. -/
def stepPush (J : SerdeJson) (s : Serving) (i : Nat) : Option Serving :=
  match s.stages[i]? with
  | some (.waiting push) =>
      match push.course J with
      | .update version configuration =>
          match parseRemoteConfiguration J version configuration with
          | .ok remote =>
              some ⟨⟨s.handler.onConfiguration, version⟩, s.stages.set i (.stored remote)⟩
          | .error _ => some { s with stages := s.stages.set i (.handled none) }
      | _ => some { s with stages := s.stages.set i (.handled none) }
  | some (.stored remote) =>
      some ⟨⟨s.handler.onConfiguration.map (· ++ [remote]), s.handler.applied⟩,
        s.stages.set i (.called remote)⟩
  | some (.called remote) => some { s with stages := s.stages.set i (.handled (some remote)) }
  | some (.handled _) | none => none

/-- What can be seen of the handler. -/
inductive Sight where
  | applied (version : Int32)
  | called (remote : RemoteConfiguration)
  -- what `update_configuration` returns as the latest applied version
  | reported (version : Int32)

/-- What can be seen of a step. -/
def sight (J : SerdeJson) (s : Serving) (i : Nat) : Option Sight :=
  match s.stages[i]? with
  | some (.waiting push) =>
      match push.course J with
      | .update version configuration =>
          match parseRemoteConfiguration J version configuration with
          | .ok _ => some (.applied version)
          | .error _ => some (.reported s.handler.applied)
      | _ => none
  | some (.stored remote) => some (.called remote)
  | some (.called remote) => some (.reported remote.version)
  | some (.handled _) | none => none

/-- What a step does. -/
inductive PushStep (J : SerdeJson) (s : Serving) (i : Nat) : Serving → Option Sight → Prop
  | store {push : Push} {remote : RemoteConfiguration} (hi : s.stages[i]? = some (.waiting push))
      (hremote : push.remote J = some remote) :
      PushStep J s i
        ⟨⟨s.handler.onConfiguration, remote.version⟩, s.stages.set i (.stored remote)⟩
        (some (.applied remote.version))
  | refuse {push : Push} {seen : Option Sight} (hi : s.stages[i]? = some (.waiting push))
      (hremote : push.remote J = none)
      (hseen : seen = none ∨ seen = some (.reported s.handler.applied)) :
      PushStep J s i { s with stages := s.stages.set i (.handled none) } seen
  | call {remote : RemoteConfiguration} (hi : s.stages[i]? = some (.stored remote)) :
      PushStep J s i
        ⟨⟨s.handler.onConfiguration.map (· ++ [remote]), s.handler.applied⟩,
          s.stages.set i (.called remote)⟩ (some (.called remote))
  | return {remote : RemoteConfiguration} (hi : s.stages[i]? = some (.called remote)) :
      PushStep J s i { s with stages := s.stages.set i (.handled (some remote)) }
        (some (.reported remote.version))

theorem pushStep_of_step {J : SerdeJson} {s t : Serving} {i : Nat} (h : stepPush J s i = some t) :
    PushStep J s i t (sight J s i) := by
  rw [stepPush] at h
  split at h
  · next push hi =>
      rw [sight, hi]
      dsimp only
      cases hcourse : push.course J with
      | update version configuration =>
          rw [hcourse] at h
          dsimp only at h ⊢
          cases hparse : parseRemoteConfiguration J version configuration with
          | ok remote =>
              rw [hparse] at h
              cases h
              have hremote : push.remote J = some remote := by
                simp [Push.remote, hcourse, hparse, Except.toOption]
              have hstore := PushStep.store hi hremote
              rw [version_of_parse hparse] at hstore
              exact hstore
          | error error =>
              rw [hparse] at h
              cases h
              exact .refuse hi (by simp [Push.remote, hcourse, hparse, Except.toOption]) (.inr rfl)
      | malformed | unreadable | unserializable =>
          rw [hcourse] at h
          cases h
          exact .refuse hi (by simp [Push.remote, hcourse]) (.inl rfl)
  · next hi =>
      cases h
      rw [sight, hi]
      exact .call hi
  · next hi =>
      cases h
      rw [sight, hi]
      exact .return hi
  · cases h
  · cases h

/-! ## Each configuration is delivered once, and the last stored is applied -/

/-- The configuration of a push, whatever its task has done so far. -/
def Stage.remote (J : SerdeJson) : Stage → Option RemoteConfiguration
  | .waiting push => push.remote J
  | .stored remote => some remote
  | .called remote => some remote
  | .handled remote => remote

/-- The configuration the callback has been called with. -/
def Stage.delivered : Stage → Option RemoteConfiguration
  | .called remote => some remote
  | .handled remote => remote
  | _ => none

def Stage.isHandled : Stage → Bool
  | .handled _ => true
  | _ => false

def Sight.applied? : Sight → Option Int32
  | .applied version => some version
  | _ => none

def Sight.called? : Sight → Option RemoteConfiguration
  | .called remote => some remote
  | _ => none

def Sight.reported? : Sight → Option Int32
  | .reported version => some version
  | _ => none

section Lists

variable {α β : Type} {f : α → Option β} {l : List α} {i : Nat} {a b : α}

theorem filterMap_set_eq (hi : l[i]? = some a) (h : f b = f a) :
    (l.set i b).filterMap f = l.filterMap f := by
  induction l generalizing i with
  | nil => simp at hi
  | cons c l ih =>
      cases i with
      | zero =>
          cases hi
          rw [List.set_cons_zero, List.filterMap_cons, List.filterMap_cons, h]
      | succ i =>
          rw [List.set_cons_succ, List.filterMap_cons, List.filterMap_cons, ih hi]

theorem map_set_eq {γ : Type} {g : α → γ} (hi : l[i]? = some a) (h : g b = g a) :
    (l.set i b).map g = l.map g := by
  rw [List.map_set, h]
  apply List.ext_getElem?
  intro j
  rw [List.getElem?_set]
  split
  · next hij =>
      cases hij
      obtain ⟨hlt, hget⟩ := List.getElem?_eq_some_iff.mp hi
      simp [hlt, hget]
  · rfl

/-- An element that is new to `f` comes somewhere into what is kept. -/
theorem perm_filterMap_set {c : β} (hi : l[i]? = some a) (ha : f a = none) (hb : f b = some c) :
    (l.filterMap f ++ [c]).Perm ((l.set i b).filterMap f) := by
  induction l generalizing i with
  | nil => simp at hi
  | cons d l ih =>
      cases i with
      | zero =>
          cases hi
          rw [List.set_cons_zero, List.filterMap_cons, List.filterMap_cons, ha, hb]
          exact List.perm_append_singleton c _
      | succ i =>
          rw [List.set_cons_succ, List.filterMap_cons, List.filterMap_cons]
          cases f d with
          | none => exact ih hi
          | some e => exact (ih hi).cons e

end Lists

/-- What is true of every run, with what has been seen of it. -/
structure Delivered (J : SerdeJson) (pushes : List Push) (seen : List Sight) (s : Serving) :
    Prop where
  origin : s.stages.map (Stage.remote J) = pushes.map (Push.remote J)
  calls : s.handler.onConfiguration = some (seen.filterMap Sight.called?)
  once : (seen.filterMap Sight.called?).Perm (s.stages.filterMap Stage.delivered)
  applied : s.handler.applied = (seen.filterMap Sight.applied?).getLastD (-1)

theorem delivered_init (J : SerdeJson) (pushes : List Push) :
    Delivered J pushes [] (.init pushes) where
  origin := by
    simp only [Serving.init, List.map_map]
    rfl
  calls := rfl
  once := by
    have hnone : (pushes.map Stage.waiting).filterMap Stage.delivered = [] := by
      simp [List.filterMap_eq_nil_iff, Stage.delivered]
    rw [Serving.init, hnone]
    exact .nil
  applied := rfl

theorem delivered_step {J : SerdeJson} {pushes : List Push} {seen : List Sight} {s t : Serving}
    {i : Nat} (hinv : Delivered J pushes seen s) (h : stepPush J s i = some t) :
    Delivered J pushes (seen ++ (sight J s i).toList) t := by
  obtain ⟨horigin, hcalls, honce, happlied⟩ := hinv
  have hstep := pushStep_of_step h
  generalize sight J s i = seen' at hstep ⊢
  cases hstep with
  | store hi hremote =>
      refine ⟨?_, ?_, ?_, ?_⟩
      · rw [map_set_eq hi hremote.symm]
        exact horigin
      · simpa [List.filterMap_cons, Sight.called?] using hcalls
      · rw [filterMap_set_eq (f := Stage.delivered) (b := .stored _) hi rfl]
        simpa [List.filterMap_cons, Sight.called?] using honce
      · simp [Sight.applied?]
  | refuse hi hremote hseen =>
      have hcalled : seen'.toList.filterMap Sight.called? = [] := by
        rcases hseen with rfl | rfl <;> rfl
      have happly : seen'.toList.filterMap Sight.applied? = [] := by
        rcases hseen with rfl | rfl <;> rfl
      refine ⟨?_, ?_, ?_, ?_⟩
      · rw [map_set_eq hi hremote.symm]
        exact horigin
      · simpa [hcalled] using hcalls
      · rw [filterMap_set_eq (f := Stage.delivered) (b := .handled none) hi rfl]
        simpa [hcalled] using honce
      · simpa [happly] using happlied
  | call hi =>
      refine ⟨?_, ?_, ?_, ?_⟩
      · rw [map_set_eq (g := Stage.remote J) (b := .called _) hi rfl]
        exact horigin
      · simp [Sight.called?, hcalls]
      · rw [List.filterMap_append]
        exact (honce.append_right _).trans (perm_filterMap_set (f := Stage.delivered) hi rfl rfl)
      · simpa [List.filterMap_cons, Sight.applied?] using happlied
  | «return» hi =>
      refine ⟨?_, ?_, ?_, ?_⟩
      · rw [map_set_eq (g := Stage.remote J) (b := .handled (some _)) hi rfl]
        exact horigin
      · simpa [List.filterMap_cons, Sight.called?] using hcalls
      · rw [filterMap_set_eq (f := Stage.delivered) (b := .handled (some _)) hi rfl]
        simpa [List.filterMap_cons, Sight.called?] using honce
      · simpa [List.filterMap_cons, Sight.applied?] using happlied

/-! ## Versions in order -/

def Sight.version : Sight → Int32
  | .applied version => version
  | .called remote => remote.version
  | .reported version => version

/-- The configuration that has been stored by a task that has not yet returned. -/
def Stage.inFlight : Stage → Option RemoteConfiguration
  | .stored remote => some remote
  | .called remote => some remote
  | _ => none

/-- The condition on a step: a push is not stored over a higher version, nor while a lower one is on
its way to the callback and the reply. -/
def StoresInOrder (J : SerdeJson) (s : Serving) (i : Nat) : Prop :=
  ∀ push remote, s.stages[i]? = some (.waiting push) → push.remote J = some remote →
    s.handler.applied ≤ remote.version ∧
      ∀ stage ∈ s.stages, ∀ remote', stage.inFlight = some remote' →
        remote.version ≤ remote'.version

/-- What is in flight is what is applied, and nothing has been seen of a higher version. -/
structure Sorted (seen : List Sight) (s : Serving) : Prop where
  inFlight : ∀ stage ∈ s.stages, ∀ remote, stage.inFlight = some remote →
    remote.version = s.handler.applied
  bounded : ∀ o ∈ seen, o.version ≤ s.handler.applied
  sorted : seen.Pairwise fun o o' => o.version ≤ o'.version

/-- A sight of a version no lower than any before it. -/
theorem sorted_append {seen : List Sight} {o : Sight} {version : Int32}
    (hbounded : ∀ o' ∈ seen, o'.version ≤ version) (ho : o.version = version)
    (hsorted : seen.Pairwise fun o o' => o.version ≤ o'.version) :
    (∀ o' ∈ seen ++ [o], o'.version ≤ version) ∧
      (seen ++ [o]).Pairwise fun o o' => o.version ≤ o'.version := by
  constructor
  · intro o' ho'
    rcases List.mem_append.mp ho' with hold | hnew
    · exact hbounded o' hold
    · rw [List.mem_singleton.mp hnew, ho]
      exact Int32.le_refl _
  · rw [List.pairwise_append]
    refine ⟨hsorted, List.pairwise_singleton _ _, ?_⟩
    intro o' ho' o'' ho''
    rw [List.mem_singleton.mp ho'', ho]
    exact hbounded o' ho'

/-- A stage that was set, or one that was there. -/
theorem inFlight_set {stages : List Stage} {i : Nat} {new : Stage} {version : Int32}
    (hold : ∀ stage ∈ stages, ∀ remote, stage.inFlight = some remote → remote.version = version)
    (hnew : ∀ remote, new.inFlight = some remote → remote.version = version) :
    ∀ stage ∈ stages.set i new, ∀ remote, stage.inFlight = some remote →
      remote.version = version := by
  intro stage hstage
  rcases List.mem_or_eq_of_mem_set hstage with hmem | rfl
  · exact hold stage hmem
  · exact hnew

theorem sorted_step {J : SerdeJson} {seen : List Sight} {s t : Serving} {i : Nat}
    (hinv : Sorted seen s) (hC : StoresInOrder J s i) (h : stepPush J s i = some t) :
    Sorted (seen ++ (sight J s i).toList) t := by
  obtain ⟨hflight, hbounded, hsorted⟩ := hinv
  have hstep := pushStep_of_step h
  generalize sight J s i = seen' at hstep ⊢
  cases hstep with
  | store hi hremote =>
      rename_i push remote
      obtain ⟨hle, hlow⟩ := hC push remote hi hremote
      have hflight' : ∀ stage ∈ s.stages, ∀ remote', stage.inFlight = some remote' →
          remote'.version = remote.version := by
        intro stage hstage remote' hremote'
        rw [hflight stage hstage remote' hremote']
        apply Int32.le_antisymm hle
        rw [← hflight stage hstage remote' hremote']
        exact hlow stage hstage remote' hremote'
      obtain ⟨hb, hs⟩ := sorted_append (o := .applied remote.version)
        (fun o ho => Int32.le_trans (hbounded o ho) hle) rfl hsorted
      refine ⟨inFlight_set hflight' ?_, hb, hs⟩
      intro remote' hremote'
      cases hremote'
      rfl
  | refuse hi hremote hseen =>
      have hflight' : ∀ stage ∈ s.stages.set i (.handled none), ∀ remote,
          stage.inFlight = some remote → remote.version = s.handler.applied :=
        inFlight_set hflight nofun
      rcases hseen with rfl | rfl
      · exact ⟨hflight', by simpa using hbounded, by simpa using hsorted⟩
      · obtain ⟨hb, hs⟩ := sorted_append (o := .reported s.handler.applied) hbounded rfl hsorted
        exact ⟨hflight', hb, hs⟩
  | call hi =>
      rename_i remote
      have hversion : remote.version = s.handler.applied :=
        hflight _ (List.mem_of_getElem? hi) remote rfl
      obtain ⟨hb, hs⟩ := sorted_append (o := .called remote) hbounded hversion hsorted
      refine ⟨inFlight_set hflight ?_, hb, hs⟩
      intro remote' hremote'
      cases hremote'
      exact hversion
  | «return» hi =>
      rename_i remote
      have hversion : remote.version = s.handler.applied :=
        hflight _ (List.mem_of_getElem? hi) remote rfl
      obtain ⟨hb, hs⟩ := sorted_append (o := .reported remote.version) hbounded hversion hsorted
      exact ⟨inFlight_set hflight nofun, hb, hs⟩

/-! ## What the consumer and the edge see -/

/-- The applied version never decreases, no configuration is delivered after a higher version has
been applied, what is reported never goes down, and once all pushes have been handled the last
configuration delivered is one of the highest version. -/
structure InOrder (J : SerdeJson) (pushes : List Push) (seen : List Sight) (s : Serving) : Prop where
  applied : (-1 :: seen.filterMap Sight.applied?).Pairwise (· ≤ ·)
  delivered : ∀ before between after version remote,
    seen = before ++ .applied version :: between ++ .called remote :: after →
      version ≤ remote.version
  reported : (seen.filterMap Sight.reported?).Pairwise (· ≤ ·)
  last : (∀ stage ∈ s.stages, stage.isHandled = true) →
    ∀ remote ∈ pushes.filterMap (Push.remote J), ∃ latest,
      (seen.filterMap Sight.called?).getLast? = some latest ∧ remote.version ≤ latest.version

theorem sorted_init (pushes : List Push) : Sorted [.applied (-1)] (.init pushes) where
  inFlight := by
    intro stage hstage remote hremote
    obtain ⟨push, _, rfl⟩ := List.mem_map.mp hstage
    cases hremote
  bounded := by
    intro o ho
    rw [List.mem_singleton.mp ho]
    exact Int32.le_refl _
  sorted := List.pairwise_singleton _ _

/-- In a list sorted by version nothing is higher than the last. -/
theorem le_getLast {calls : List RemoteConfiguration} {remote latest : RemoteConfiguration}
    (hsorted : calls.Pairwise fun a b => a.version ≤ b.version) (hmem : remote ∈ calls)
    (hlast : calls.getLast? = some latest) : remote.version ≤ latest.version := by
  obtain ⟨init, rfl⟩ := List.getLast?_eq_some_iff.mp hlast
  rcases List.mem_append.mp hmem with hold | hnew
  · exact (List.pairwise_append.mp hsorted).2.2 remote hold latest (List.mem_singleton.mpr rfl)
  · rw [List.mem_singleton.mp hnew]
    exact Int32.le_refl _

/-- When all have been handled, every configuration has been delivered. -/
theorem perm_of_isHandled {J : SerdeJson} {pushes : List Push} {seen : List Sight} {s : Serving}
    (hinv : Delivered J pushes seen s) (hhandled : ∀ stage ∈ s.stages, stage.isHandled = true) :
    (seen.filterMap Sight.called?).Perm (pushes.filterMap (Push.remote J)) := by
  have hstages : s.stages.filterMap Stage.delivered = s.stages.filterMap (Stage.remote J) := by
    apply List.filterMap_congr
    intro stage hstage
    cases stage with
    | handled remote => rfl
    | _ => cases hhandled _ hstage
  have horigin : s.stages.filterMap (Stage.remote J) = pushes.filterMap (Push.remote J) := by
    have hreduce := congrArg (List.filterMap id) hinv.origin
    simpa [List.filterMap_map] using hreduce
  rw [← horigin, ← hstages]
  exact hinv.once

theorem inOrder_of_sorted {J : SerdeJson} {pushes : List Push} {seen : List Sight} {s : Serving}
    (hdelivered : Delivered J pushes seen s) (hsorted : Sorted (.applied (-1) :: seen) s) :
    InOrder J pushes seen s := by
  have hseen : seen.Pairwise fun o o' => o.version ≤ o'.version :=
    (List.pairwise_cons.mp hsorted.sorted).2
  refine ⟨?_, ?_, ?_, ?_⟩
  · apply List.Pairwise.filterMap Sight.applied? ?_ hsorted.sorted
    intro o o' hle version hversion version' hversion'
    cases o <;> cases hversion
    cases o' <;> cases hversion'
    exact hle
  · rintro before between after version remote rfl
    exact (List.pairwise_append.mp hseen).2.2 (.applied version) (by simp) (.called remote) (by simp)
  · apply List.Pairwise.filterMap Sight.reported? ?_ hseen
    intro o o' hle version hversion version' hversion'
    cases o <;> cases hversion
    cases o' <;> cases hversion'
    exact hle
  · intro hhandled remote hremote
    have hmem : remote ∈ seen.filterMap Sight.called? :=
      (perm_of_isHandled hdelivered hhandled).mem_iff.mpr hremote
    obtain ⟨latest, hlatest⟩ : ∃ latest, (seen.filterMap Sight.called?).getLast? = some latest :=
      ⟨_, List.getLast?_eq_some_getLast (List.ne_nil_of_mem hmem)⟩
    refine ⟨latest, hlatest, le_getLast ?_ hmem hlatest⟩
    apply List.Pairwise.filterMap Sight.called? ?_ hseen
    intro o o' hle remote hremote remote' hremote'
    cases o <;> cases hremote
    cases o' <;> cases hremote'
    exact hle

/-- **Pushes in any order.** However the tasks of the pushes are interleaved, each configuration
that is parsed is delivered once, whatever its version, and the version stored last is applied. If
no push is stored over a higher version, or while a lower one is still on its way, then versions
are seen in order and the last configuration delivered is one of the highest version. -/
theorem configuration_pushes {J : SerdeJson} {pushes : List Push} {ls : List Nat} {s : Serving}
    {seen : List Sight} (hrun : run (stepPush J) (.init pushes) ls = some s)
    (hseen : observe (stepPush J) (sight J) (.init pushes) ls = seen) :
    s.handler.onConfiguration = some (seen.filterMap Sight.called?) ∧
    (seen.filterMap Sight.called?).Perm (s.stages.filterMap Stage.delivered) ∧
    ((∀ stage ∈ s.stages, stage.isHandled = true) →
      (seen.filterMap Sight.called?).Perm (pushes.filterMap (Push.remote J))) ∧
    s.handler.applied = (seen.filterMap Sight.applied?).getLastD (-1) ∧
    (Always (stepPush J) (StoresInOrder J) (.init pushes) ls → InOrder J pushes seen s) := by
  have hdelivered : Delivered J pushes ([] ++ seen) s := by
    rw [← hseen]
    exact run_observe_invariant (Delivered J pushes)
      (fun _ _ _ _ hinv _ h => delivered_step hinv h) (delivered_init J pushes) hrun
      (always_of_forall (fun _ _ => trivial) _ ls)
  refine ⟨hdelivered.calls, hdelivered.once, perm_of_isHandled hdelivered, hdelivered.applied, ?_⟩
  intro hC
  have hsorted : Sorted ([.applied (-1)] ++ seen) s := by
    rw [← hseen]
    exact run_observe_invariant Sorted (fun _ _ _ _ hinv hC h => sorted_step hinv hC h)
      (sorted_init pushes) hrun hC
  exact inOrder_of_sorted hdelivered hsorted

/-! ## Two versions -/

/-- The call that pushes an empty configuration of this version. -/
def pushCall (version : Int32) : CallReader where
  questionId := 1
  interfaceId := configurationManagerInterfaceId
  methodId := 0
  params := .ok
    { content :=
        { updateConfigurationParams := .ok ⟨version, .ok (asciiBytes "\x7b\x7d")⟩
          registerUdpSessionParams := .error ⟨"not this struct"⟩
          unregisterUdpSessionParams := .error ⟨"not this struct"⟩
          updateConfigurationResults := .error ⟨"not this struct"⟩
          registerUdpSessionResults := .error ⟨"not this struct"⟩
          registerConnectionResults := .error ⟨"not this struct"⟩ }
      capTable := .ok [] }

def emptyPush (version : Int32) : Push := .quic (pushCall version) rfl

/-- Version 1, served after version 2, is applied, delivered and reported over it. -/
theorem stale_push_applied :
    ¬ ∀ (pushes : List Push) (ls : List Nat) (s : Serving),
      run (stepPush sampleJson) (.init pushes) ls = some s →
      InOrder sampleJson pushes (observe (stepPush sampleJson) (sight sampleJson) (.init pushes) ls) s := by
  intro h
  obtain ⟨s, hrun⟩ : ∃ s, run (stepPush sampleJson) (.init [emptyPush 2, emptyPush 1])
      [0, 0, 0, 1, 1, 1] = some s := ⟨_, rfl⟩
  have happlied := (h _ _ s hrun).applied
  have hsights : (observe (stepPush sampleJson) (sight sampleJson)
      (.init [emptyPush 2, emptyPush 1]) [0, 0, 0, 1, 1, 1]).filterMap Sight.applied? = [2, 1] := rfl
  rw [hsights] at happlied
  exact absurd happlied (by decide)

/-- Stored in the order of their versions, and one after the other, they are seen in order. -/
theorem configuration_pushes_in_order :
    ∃ s, run (stepPush sampleJson) (.init [emptyPush 2, emptyPush 1]) [1, 1, 1, 0, 0, 0] = some s ∧
      InOrder sampleJson [emptyPush 2, emptyPush 1] (observe (stepPush sampleJson)
        (sight sampleJson) (.init [emptyPush 2, emptyPush 1]) [1, 1, 1, 0, 0, 0]) s := by
  obtain ⟨s, hrun⟩ : ∃ s, run (stepPush sampleJson) (.init [emptyPush 2, emptyPush 1])
      [1, 1, 1, 0, 0, 0] = some s := ⟨_, rfl⟩
  refine ⟨s, hrun, (configuration_pushes hrun rfl).2.2.2.2 ?_⟩
  have hfirst : StoresInOrder sampleJson (.init [emptyPush 2, emptyPush 1]) 1 := by
    intro push remote hi hremote
    cases hi
    cases hremote
    refine ⟨by decide, fun stage hstage remote' hremote' => ?_⟩
    rcases List.mem_pair.mp hstage with rfl | rfl <;> cases hremote'
  refine ⟨hfirst, fun t ht => ?_⟩
  cases ht
  refine ⟨fun _ _ hi => (nomatch hi), fun t ht => ?_⟩
  cases ht
  refine ⟨fun _ _ hi => (nomatch hi), fun t ht => ?_⟩
  cases ht
  refine ⟨?_, fun t ht => ?_⟩
  · intro push remote hi hremote
    cases hi
    cases hremote
    refine ⟨by decide, fun stage hstage remote' hremote' => ?_⟩
    rcases List.mem_pair.mp hstage with rfl | rfl <;> cases hremote'
  cases ht
  refine ⟨fun _ _ hi => (nomatch hi), fun t ht => ?_⟩
  cases ht
  exact ⟨fun _ _ hi => (nomatch hi), fun _ _ => trivial⟩

end Libcfd.Edge

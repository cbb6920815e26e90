import Libcfd.Edge.Discovery.Answer

/-!
# Targets that leave their RDATA

The RDATA of an answer is a part of the message, and its length is checked; the target in it is
decoded at its position in the whole message, and nothing stops it at the end of the RDATA. So a
record can have a port from one place and a name from the bytes behind it.
-/

namespace Libcfd.Edge.Discovery

open Libcfd.Loop Libcfd.Rpc StateTransition

/-! ## The part of a name that is in place -/

/-- From `p` the name is in place up to `e`: its labels and the terminator or the first pointer. -/
inductive InPlace (bytes : List UInt8) : Nat → Nat → Prop
  | terminator {p : Nat} (h : entryAt bytes p = .terminator) : InPlace bytes p (p + 1)
  | pointer {p target : Nat} (h : entryAt bytes p = .pointer target) : InPlace bytes p (p + 2)
  | label {p e : Nat} {text : List UInt8} (h : entryAt bytes p = .label text)
      (hrest : InPlace bytes (p + 1 + text.length) e) : InPlace bytes p e

namespace Answer

variable (bytes : List UInt8) (answer : Answer)

/-- The RDATA has the port and the whole part of the target that is in place. -/
def Fits : Prop :=
  6 ≤ answer.rdlen ∧ ∃ e, InPlace bytes (answer.start + 6) e ∧ e ≤ answer.stop

def rdata : List UInt8 := (bytes.drop answer.start).take answer.rdlen

/-- The RDATA, by itself, has a name from its seventh byte on that ends in it. -/
def HoldsTarget : Prop :=
  6 ≤ answer.rdlen ∧ ∃ e, skipName (answer.rdata bytes) 6 = .ok e ∧ e ≤ answer.rdlen

end Answer

section InPlace

variable {bytes : List UInt8} {p e : Nat}

theorem InPlace.lt (h : InPlace bytes p e) : p < e := by
  induction h with
  | terminator _ => exact Nat.lt_succ_self _
  | pointer _ => exact Nat.lt_add_of_pos_right (by decide)
  | label _ _ ih => omega

/-- A name that is terminated is in place up to somewhere. -/
theorem exists_inPlace (h : IsTerminated bytes p) : ∃ e, InPlace bytes p e := by
  obtain ⟨q, hreach, hterminator⟩ := h
  induction hreach using Relation.ReflTransGen.head_induction_on with
  | refl => exact ⟨_, .terminator hterminator⟩
  | @head p next hstep _ ih =>
      obtain ⟨e, hnext⟩ := ih
      unfold nextPosition at hstep
      split at hstep
      · next target hentry => exact ⟨_, .pointer hentry⟩
      · next text hentry =>
          cases hstep
          exact ⟨e, .label hentry hnext⟩
      · cases hstep

theorem InPlace.unique {e' : Nat} (h : InPlace bytes p e) (h' : InPlace bytes p e') : e = e' := by
  induction h with
  | terminator h =>
      cases h' with
      | terminator _ => rfl
      | pointer h' => cases h.symm.trans h'
      | label h' _ => cases h.symm.trans h'
  | pointer h =>
      cases h' with
      | terminator h' => cases h.symm.trans h'
      | pointer _ => rfl
      | label h' _ => cases h.symm.trans h'
  | label h _ ih =>
      cases h' with
      | terminator h' => cases h.symm.trans h'
      | pointer h' => cases h.symm.trans h'
      | label h' hrest =>
          cases h.symm.trans h'
          exact ih hrest

/-! ### The first byte of what stands at a position -/

theorem entryAt_terminator_byte (h : entryAt bytes p = .terminator) :
    p < bytes.length ∧ bytes.getD p 0 = 0 := by
  unfold entryAt at h
  split at h
  · cases h
  · next hlt =>
    dsimp only at h
    split at h
    · next hzero => exact ⟨Nat.lt_of_not_le hlt, hzero⟩
    · grind

theorem entryAt_pointer_byte {target : Nat} (h : entryAt bytes p = .pointer target) :
    p < bytes.length ∧ bytes.getD p 0 ≠ 0 ∧ bytes.getD p 0 &&& 0xc0 = 0xc0 := by
  unfold entryAt at h
  split at h
  · cases h
  · next hlt =>
    dsimp only at h
    split at h
    · cases h
    · next hzero =>
      split at h
      · next hbits => exact ⟨Nat.lt_of_not_le hlt, hzero, hbits⟩
      · grind

theorem entryAt_label_byte {text : List UInt8} (h : entryAt bytes p = .label text) :
    p < bytes.length ∧ bytes.getD p 0 ≠ 0 ∧ bytes.getD p 0 &&& 0xc0 ≠ 0xc0 ∧
      bytes.getD p 0 &&& 0xc0 = 0 ∧ text.length = (bytes.getD p 0).toNat := by
  unfold entryAt at h
  split at h
  · cases h
  · next hlt =>
    dsimp only at h
    split at h
    · cases h
    · next hzero =>
      split at h
      · split at h <;> cases h
      · next hpointer =>
        split at h
        · cases h
        · next hbits =>
          split at h
          · cases h
          · next hinside =>
            cases h
            refine ⟨Nat.lt_of_not_le hlt, hzero, hpointer, Decidable.not_not.mp hbits, ?_⟩
            rw [List.length_take, List.length_drop]
            omega

end InPlace

/-! ## The RDATA by itself -/

section Rdata

variable {bytes : List UInt8} {answer : Answer}

theorem getD_rdata {q : Nat} (h : q < answer.rdlen) :
    (answer.rdata bytes).getD q 0 = bytes.getD (answer.start + q) 0 := by
  rw [Answer.rdata, List.getD_eq_getElem?_getD, List.getD_eq_getElem?_getD,
    List.getElem?_take_of_lt h, List.getElem?_drop]

theorem length_rdata (h : answer.stop ≤ bytes.length) :
    (answer.rdata bytes).length = answer.rdlen := by
  rw [Answer.stop] at h
  rw [Answer.rdata, List.length_take, List.length_drop]
  omega

/-- The name is in place within the RDATA if and only if it ends in the RDATA taken by itself. -/
theorem le_stop_iff (hstop : answer.stop ≤ bytes.length) {p e q : Nat} (h : InPlace bytes p e)
    (hp : p = answer.start + q) :
    e ≤ answer.stop ↔ ∃ e', skipName (answer.rdata bytes) q = .ok e' ∧ e' ≤ answer.rdlen := by
  have hlength := length_rdata hstop
  -- past the RDATA there is no name, and what is in place there is not within it
  have hpast : ∀ {p e q : Nat}, InPlace bytes p e → p = answer.start + q → answer.rdlen ≤ q →
      (e ≤ answer.stop ↔ ∃ e', skipName (answer.rdata bytes) q = .ok e' ∧ e' ≤ answer.rdlen) := by
    intro p e q h hp hq
    have hlt := h.lt
    apply iff_of_false
    · rw [Answer.stop]
      omega
    · rintro ⟨e', hskip, _⟩
      rw [skipName, if_pos (by omega)] at hskip
      cases hskip
  induction h generalizing q with
  | @terminator p h =>
      by_cases hq : q < answer.rdlen
      · obtain ⟨_, hzero⟩ := entryAt_terminator_byte h
        rw [hp, ← getD_rdata hq] at hzero
        have hskip : skipName (answer.rdata bytes) q = .ok (q + 1) := by
          rw [skipName, if_neg (by omega)]
          exact if_pos hzero
        rw [hskip, Answer.stop]
        exact iff_of_true (by omega) ⟨q + 1, rfl, hq⟩
      · exact hpast (.terminator h) hp (Nat.le_of_not_lt hq)
  | @pointer p target h =>
      by_cases hq : q < answer.rdlen
      · obtain ⟨_, hzero, hbits⟩ := entryAt_pointer_byte h
        rw [hp, ← getD_rdata hq] at hzero hbits
        have hskip : skipName (answer.rdata bytes) q = .ok (q + 2) := by
          rw [skipName, if_neg (by omega)]
          exact (if_neg hzero).trans (if_pos hbits)
        rw [hskip, Answer.stop]
        constructor
        · intro hle
          exact ⟨q + 2, rfl, by omega⟩
        · rintro ⟨_, ⟨⟩, hle⟩
          omega
      · exact hpast (.pointer h) hp (Nat.le_of_not_lt hq)
  | @label p e text h hrest ih =>
      by_cases hq : q < answer.rdlen
      · obtain ⟨_, hzero, hpointer, hbits, htext⟩ := entryAt_label_byte h
        rw [hp, ← getD_rdata hq] at hzero hpointer hbits htext
        have hskip : skipName (answer.rdata bytes) q =
            skipName (answer.rdata bytes) (q + 1 + text.length) := by
          rw [htext]
          conv => lhs; rw [skipName]
          rw [if_neg (by omega)]
          exact ((if_neg hzero).trans (if_neg hpointer)).trans (if_neg (not_not_intro hbits))
        rw [hskip]
        exact ih (by omega)
      · exact hpast (.label h hrest) hp (Nat.le_of_not_lt hq)

theorem fits_iff (hstop : answer.stop ≤ bytes.length)
    (hterminated : IsTerminated bytes (answer.start + 6)) :
    answer.Fits bytes ↔ answer.HoldsTarget bytes := by
  obtain ⟨e, he⟩ := exists_inPlace hterminated
  refine and_congr_right fun _ => ?_
  rw [← le_stop_iff hstop he rfl]
  constructor
  · rintro ⟨e', he', hle⟩
    rwa [he.unique he']
  · intro hle
    exact ⟨e, he, hle⟩

end Rdata

/-! ## Records and answers -/

/-- The answers of a message that has the identifier asked for. -/
def answersOf (bytes : List UInt8) (identifier : UInt16) : List Answer :=
  match readHeader bytes identifier with
  | .error _ => []
  | .ok (count, position) => (answersFrom bytes count position).getD []

/-- The target of an answer, where it should be. -/
def Answer.srvTarget (bytes : List UInt8) (answer : Answer) : Target :=
  ⟨u16At bytes (answer.start + 4), answer.start + 6⟩

/-- A record stems from an SRV answer of the Internet whose RDATA has all of it. -/
def Stems (bytes : List UInt8) (answer : Answer) (record : String × UInt16) : Prop :=
  (answer.IsSrv ∧ answer.Fits bytes) ∧ Decodes bytes (answer.srvTarget bytes) record

section Stems

variable {bytes : List UInt8} {identifier : UInt16} {records : List (String × UInt16)}

def srvAnswers (answers : List Answer) : List Answer := answers.filter fun answer => answer.IsSrv

/-- The answers that make a record. -/
def withRoom (answers : List Answer) : List Answer :=
  answers.filter fun answer => answer.IsSrv ∧ 6 ≤ answer.rdlen

theorem filterMap_target (bytes : List UInt8) (answers : List Answer) :
    answers.filterMap (Answer.target bytes) =
      (withRoom answers).map (Answer.srvTarget bytes) := by
  unfold withRoom
  induction answers with
  | nil => rfl
  | cons answer answers ih =>
      by_cases hroom : answer.IsSrv ∧ 6 ≤ answer.rdlen
      · have htarget : answer.target bytes = some (answer.srvTarget bytes) := if_pos hroom
        rw [List.filterMap_cons_some htarget, List.filter_cons_of_pos (by simpa using hroom), ih]
        rfl
      · have htarget : answer.target bytes = none := if_neg hroom
        rw [List.filterMap_cons_none htarget, List.filter_cons_of_neg (by simpa using hroom), ih]

theorem stop_le_of_mem {count position : Nat} {answers : List Answer}
    (h : answersFrom bytes count position = some answers) :
    ∀ answer ∈ answers, answer.stop ≤ bytes.length := by
  induction count generalizing position answers with
  | zero =>
      cases h
      exact List.forall_mem_nil _
  | succ count ih =>
      rw [answersFrom] at h
      obtain ⟨answer, hanswer, h⟩ := Option.bind_eq_some_iff.mp h
      obtain ⟨rest, hrest, h⟩ := Option.bind_eq_some_iff.mp h
      cases h
      exact List.forall_mem_cons.mpr ⟨stop_le hanswer, ih hrest⟩

theorem stop_le_of_mem_answersOf {answer : Answer} (h : answer ∈ answersOf bytes identifier) :
    answer.stop ≤ bytes.length := by
  unfold answersOf at h
  split at h
  · cases h
  · next count position _ =>
    cases hanswers : answersFrom bytes count position with
    | none =>
        rw [hanswers] at h
        cases h
    | some answers =>
        rw [hanswers] at h
        exact stop_le_of_mem hanswers answer h

theorem decodes_withRoom {fuel : Nat}
    (h : parseSrvResponse fuel bytes identifier = some (.ok records)) :
    List.Forall₂ (fun answer => Decodes bytes (answer.srvTarget bytes))
      (withRoom (answersOf bytes identifier)) records := by
  obtain ⟨count, position, answers, hheader, hanswers, hdecodes⟩ :=
    (parseSrvResponse_ok_iff identifier records).mp ⟨fuel, h⟩
  have hof : answersOf bytes identifier = answers := by
    rw [answersOf, hheader]
    dsimp only
    rw [hanswers]
    rfl
  rw [filterMap_target, List.forall₂_map_left_iff] at hdecodes
  rwa [hof]

theorem isTerminated_of_decodes {target : Target} {record : String × UInt16}
    (h : Decodes bytes target record) : IsTerminated bytes target.position := by
  obtain ⟨_, position, fuel, hdecode⟩ := h
  exact (decodeName_ok_iff bytes target.position "").mp ⟨fuel, _, hdecode⟩

theorem fits_iff_of_mem {fuel : Nat}
    (h : parseSrvResponse fuel bytes identifier = some (.ok records)) {answer : Answer}
    (hanswer : answer ∈ answersOf bytes identifier) (hsrv : answer.IsSrv) (hroom : 6 ≤ answer.rdlen) :
    answer.Fits bytes ↔ answer.HoldsTarget bytes := by
  have hterminated : List.Forall₂ (fun answer record => IsTerminated bytes (answer.start + 6) ∧
      Decodes bytes (answer.srvTarget bytes) record) (withRoom (answersOf bytes identifier))
      records :=
    (decodes_withRoom h).imp fun answer record hdecodes =>
      ⟨isTerminated_of_decodes hdecodes, hdecodes⟩
  have hmem : answer ∈ withRoom (answersOf bytes identifier) :=
    List.mem_filter.mpr ⟨hanswer, decide_eq_true ⟨hsrv, hroom⟩⟩
  exact fits_iff (stop_le_of_mem_answersOf hanswer)
    (((List.forall₂_and_left _ _).mp hterminated).1 answer hmem)

/-- **What a parse that succeeds has read.** Its records stem from answers whose RDATA has their port
and what is in place of their target if and only if the RDATA of each, by itself, has a name behind
the port; and from all SRV answers of the Internet if and only if that holds of all of them. -/
theorem parseSrvResponse_stems_iff {fuel : Nat}
    (h : parseSrvResponse fuel bytes identifier = some (.ok records)) :
    (List.Forall₂ (Stems bytes) (withRoom (answersOf bytes identifier)) records ↔
      ∀ answer ∈ answersOf bytes identifier, answer.IsSrv → 6 ≤ answer.rdlen →
        answer.HoldsTarget bytes) ∧
    (List.Forall₂ (Stems bytes) (srvAnswers (answersOf bytes identifier)) records ↔
      ∀ answer ∈ answersOf bytes identifier, answer.IsSrv → answer.HoldsTarget bytes) := by
  have hdecodes := decodes_withRoom h
  have hfirst : List.Forall₂ (Stems bytes) (withRoom (answersOf bytes identifier)) records ↔
      ∀ answer ∈ answersOf bytes identifier, answer.IsSrv → 6 ≤ answer.rdlen →
        answer.HoldsTarget bytes := by
    refine (List.forall₂_and_left _ _).trans ((and_iff_left hdecodes).trans ?_)
    constructor
    · intro hfits answer hanswer hsrv hroom
      have hmem : answer ∈ withRoom (answersOf bytes identifier) :=
        List.mem_filter.mpr ⟨hanswer, decide_eq_true ⟨hsrv, hroom⟩⟩
      exact (fits_iff_of_mem h hanswer hsrv hroom).mp (hfits answer hmem).2
    · intro hholds answer hmem
      obtain ⟨hanswer, hroom⟩ := List.mem_filter.mp hmem
      obtain ⟨hsrv, hroom⟩ := of_decide_eq_true hroom
      exact ⟨hsrv, (fits_iff_of_mem h hanswer hsrv hroom).mpr (hholds answer hanswer hsrv hroom)⟩
  refine ⟨hfirst, ?_⟩
  constructor
  · intro hstems answer hanswer hsrv
    have hmem : answer ∈ srvAnswers (answersOf bytes identifier) :=
      List.mem_filter.mpr ⟨hanswer, decide_eq_true hsrv⟩
    obtain ⟨_, hfits⟩ := ((List.forall₂_and_left _ _).mp hstems).1 answer hmem
    exact (fits_iff_of_mem h hanswer hsrv hfits.1).mp hfits
  · intro hholds
    have hall : withRoom (answersOf bytes identifier) =
        srvAnswers (answersOf bytes identifier) := by
      apply List.filter_congr
      intro answer hanswer
      exact decide_eq_decide.mpr (and_iff_left_of_imp fun hsrv => (hholds answer hanswer hsrv).1)
    rw [← hall]
    exact hfirst.mpr fun answer hanswer hsrv _ => hholds answer hanswer hsrv

end Stems

/-- One SRV answer with an RDATA of `rdlen` bytes; "a" stands behind the port. -/
def oneTarget (rdlen : UInt8) : List UInt8 :=
  [0x12, 0x34, 0x81, 0x80, 0, 1, 0, 1, 0, 0, 0, 0, 0, 0, 33, 0, 1] ++
    [0, 0, 33, 0, 1, 0, 0, 0, 60, 0, rdlen, 0, 0, 0, 0, 0x1e, 0xa4] ++ [1, 97, 0]

theorem stems_oneTarget :
    List.Forall₂ (Stems (oneTarget 9)) (srvAnswers (answersOf (oneTarget 9) 0x1234))
      [("a", 7844)] := by
  have hparse : parseSrvResponse 5 (oneTarget 9) 0x1234 = some (.ok [("a", 7844)]) := by
    decide +kernel
  have hanswers : answersOf (oneTarget 9) 0x1234 = [⟨33, 1, 28, 9⟩] := by decide +kernel
  apply (parseSrvResponse_stems_iff hparse).2.mpr
  intro answer hanswer _
  rw [hanswers] at hanswer
  obtain rfl := List.mem_singleton.mp hanswer
  exact ⟨by decide, 9, by decide +kernel, by decide⟩

/-- The same answer with an RDATA that ends with the port. -/
theorem not_stems_oneTarget :
    parseSrvResponse 5 (oneTarget 6) 0x1234 = some (.ok [("a", 7844)]) ∧
      ¬ List.Forall₂ (Stems (oneTarget 6)) (withRoom (answersOf (oneTarget 6) 0x1234))
        [("a", 7844)] := by
  have hparse : parseSrvResponse 5 (oneTarget 6) 0x1234 = some (.ok [("a", 7844)]) := by
    decide +kernel
  refine ⟨hparse, ?_⟩
  intro hstems
  have hmem : ⟨33, 1, 28, 6⟩ ∈ withRoom (answersOf (oneTarget 6) 0x1234) := by decide +kernel
  obtain ⟨_, _, e, hinPlace, hle⟩ := ((List.forall₂_and_left _ _).mp hstems).1 _ hmem
  exact absurd hle (Nat.not_le_of_lt hinPlace.lt)

end Libcfd.Edge.Discovery

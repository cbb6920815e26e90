import Libcfd.Edge.Discovery.Name

/-!
# The answer records of a message

`parse_srv_response` succeeds if and only if the header, the question and every answer can be passed
over and the target of every SRV record is terminated. Its result is the targets and the ports, in
the order of the records.
-/

namespace Libcfd.Edge.Discovery

open Libcfd.Loop Libcfd.Rpc

/-! ## Records -/

/-- An answer record: its type, its class and where its RDATA is in the message. -/
structure Answer where
  rtype : UInt16
  rclass : UInt16
  start : Nat
  rdlen : Nat
  deriving DecidableEq, Repr

/-- Where the next record begins. -/
def Answer.stop (answer : Answer) : Nat := answer.start + answer.rdlen

/-- An SRV record of the Internet. -/
def Answer.IsSrv (answer : Answer) : Prop := answer.rclass = 1 ∧ answer.rtype = 33

instance (answer : Answer) : Decidable answer.IsSrv := inferInstanceAs (Decidable (_ ∧ _))

/-- The port and the position of the target, if it is an SRV record with room for a port. -/
def Answer.target (bytes : List UInt8) (answer : Answer) : Option Target :=
  if answer.IsSrv ∧ 6 ≤ answer.rdlen then
    some ⟨u16At bytes (answer.start + 4), answer.start + 6⟩
  else none

/-- The record whose fixed fields begin at a position. -/
def fixedAt (bytes : List UInt8) (p : Nat) : Answer where
  rtype := u16At bytes p
  rclass := u16At bytes (p + 2)
  start := p + 10
  rdlen := (u16At bytes (p + 8)).toNat

/-- The record whose owner name begins at a position. -/
def answerAt (bytes : List UInt8) (position : Nat) : Option Answer :=
  match skipName bytes position with
  | .error _ => none
  | .ok p =>
      if p + 10 ≤ bytes.length ∧ (fixedAt bytes p).stop ≤ bytes.length then some (fixedAt bytes p)
      else none

/-- That many records, one after the other. -/
def answersFrom (bytes : List UInt8) : Nat → Nat → Option (List Answer)
  | 0, _ => some []
  | count + 1, position => do
      let answer ← answerAt bytes position
      let answers ← answersFrom bytes count answer.stop
      return answer :: answers

section Answers

variable {bytes : List UInt8} {position : Nat}

theorem u16At_take {start n : Nat} (h : 6 ≤ n) :
    u16At ((bytes.drop start).take n) 4 = u16At bytes (start + 4) := by
  have hone : ∀ i, i < n → ((bytes.drop start).take n).getD i 0 = bytes.getD (start + i) 0 := by
    intro i hi
    rw [List.getD_eq_getElem?_getD, List.getD_eq_getElem?_getD, List.getElem?_take_of_lt hi,
      List.getElem?_drop]
  rw [u16At, u16At, hone 4 (by omega), hone (4 + 1) (by omega)]

theorem stop_le {answer : Answer} (h : answerAt bytes position = some answer) :
    answer.stop ≤ bytes.length := by
  unfold answerAt at h
  split at h
  · cases h
  · obtain ⟨hinside, h⟩ := Option.ite_none_right_eq_some.mp h
    cases h
    exact hinside.2

theorem readAnswer_of_skipName {p : Nat} (h : skipName bytes position = .ok p) :
    readAnswer bytes position =
      if p + 10 > bytes.length then .error ⟨"truncated rr"⟩
      else if (fixedAt bytes p).stop > bytes.length then .error ⟨"truncated rdata"⟩
      else .ok ((fixedAt bytes p).stop, (fixedAt bytes p).target bytes) := by
  have hlt : ¬ position ≥ bytes.length := by
    intro hge
    rw [skipName, if_pos hge] at h
    cases h
  rw [readAnswer, if_neg hlt, h]
  refine if_congr Iff.rfl rfl (if_congr Iff.rfl rfl ?_)
  rw [Answer.target]
  show (if u16At bytes (p + 2) ≠ 1 then _ else _) = _
  by_cases hclass : u16At bytes (p + 2) = 1
  · rw [if_neg (not_not_intro hclass)]
    by_cases hsrv : u16At bytes p = 33 ∧ (u16At bytes (p + 8)).toNat ≥ 6
    · rw [if_pos hsrv, if_pos ⟨⟨hclass, hsrv.1⟩, hsrv.2⟩, u16At_take hsrv.2, Nat.add_sub_cancel]
      rfl
    · rw [if_neg hsrv, if_neg fun h => hsrv ⟨h.1.2, h.2⟩]
      rfl
  · rw [if_pos hclass, if_neg fun h => hclass h.1.1]
    rfl

/-- A turn of the loop reads the record at its position. -/
theorem readAnswer_ok_iff {after : Nat} {target : Option Target} :
    readAnswer bytes position = .ok (after, target) ↔
      ∃ answer, answerAt bytes position = some answer ∧ after = answer.stop ∧
        target = answer.target bytes := by
  unfold answerAt
  cases hskip : skipName bytes position with
  | error error =>
      refine iff_of_false ?_ nofun
      rw [readAnswer, hskip]
      split
      · nofun
      · nofun
  | ok p =>
      rw [readAnswer_of_skipName hskip]
      dsimp only
      by_cases hfixed : p + 10 > bytes.length
      · rw [if_pos hfixed, if_neg fun h => absurd h.1 (Nat.not_le_of_lt hfixed)]
        exact iff_of_false nofun nofun
      · by_cases hstop : (fixedAt bytes p).stop > bytes.length
        · rw [if_neg hfixed, if_pos hstop, if_neg fun h => absurd h.2 (Nat.not_le_of_lt hstop)]
          exact iff_of_false nofun nofun
        · rw [if_neg hfixed, if_neg hstop,
            if_pos ⟨Nat.le_of_not_lt hfixed, Nat.le_of_not_lt hstop⟩]
          constructor
          · rintro ⟨⟩
            exact ⟨_, rfl, rfl, rfl⟩
          · rintro ⟨answer, ⟨⟩, rfl, rfl⟩
            rfl

/-- The name and the port of a record. -/
def Decodes (bytes : List UInt8) (target : Target) (record : String × UInt16) : Prop :=
  record.2 = target.port ∧ ∃ position, Leaves (decodeTurn bytes) (.start target.position)
    (.ok (position, record.1))

theorem readAnswers_ok_iff (count position : Nat) (records result : List (String × UInt16)) :
    (∃ fuel, readAnswers fuel bytes count position records = some (.ok result)) ↔
      ∃ answers found, answersFrom bytes count position = some answers ∧
        List.Forall₂ (Decodes bytes) (answers.filterMap (Answer.target bytes)) found ∧
        result = records ++ found := by
  induction count generalizing position records with
  | zero =>
      constructor
      · rintro ⟨fuel, h⟩
        cases h
        exact ⟨[], [], rfl, .nil, (List.append_nil _).symm⟩
      · rintro ⟨answers, found, hanswers, hfound, rfl⟩
        cases hanswers
        cases hfound
        rw [List.append_nil]
        exact ⟨0, rfl⟩
  | succ count ih =>
      constructor
      · rintro ⟨fuel, h⟩
        rw [readAnswers] at h
        split at h
        · cases h
        · next after hread =>
          obtain ⟨answer, hanswer, rfl, htarget⟩ := readAnswer_ok_iff.mp hread
          obtain ⟨answers, found, hanswers, hfound, rfl⟩ := (ih _ _).mp ⟨fuel, h⟩
          refine ⟨answer :: answers, found, ?_, ?_, rfl⟩
          · simp [answersFrom, hanswer, hanswers]
          · rwa [List.filterMap_cons_none htarget.symm]
        · next after target hread =>
          obtain ⟨answer, hanswer, rfl, htarget⟩ := readAnswer_ok_iff.mp hread
          split at h
          · cases h
          · cases h
          · next position' name hname =>
            obtain ⟨answers, found, hanswers, hfound, rfl⟩ := (ih _ _).mp ⟨fuel, h⟩
            refine ⟨answer :: answers, (name, target.port) :: found, ?_, ?_, ?_⟩
            · simp [answersFrom, hanswer, hanswers]
            · rw [List.filterMap_cons_some htarget.symm]
              exact .cons ⟨rfl, position', fuel, hname⟩ hfound
            · rw [List.append_assoc]
              rfl
      · rintro ⟨answers, found, hanswers, hfound, rfl⟩
        rw [answersFrom] at hanswers
        obtain ⟨answer, hanswer, hanswers⟩ := Option.bind_eq_some_iff.mp hanswers
        obtain ⟨rest, hrest, hanswers⟩ := Option.bind_eq_some_iff.mp hanswers
        cases hanswers
        have hread := readAnswer_ok_iff.mpr ⟨answer, hanswer, rfl, rfl⟩
        cases htarget : answer.target bytes with
        | none =>
            rw [htarget] at hread
            rw [List.filterMap_cons_none htarget] at hfound
            obtain ⟨fuel, h⟩ := (ih answer.stop records).mpr ⟨rest, found, hrest, hfound, rfl⟩
            refine ⟨fuel, ?_⟩
            rw [readAnswers, hread]
            exact h
        | some target =>
            rw [htarget] at hread
            rw [List.filterMap_cons_some htarget] at hfound
            cases hfound with
            | @cons _ record _ found hone hfound =>
              obtain ⟨hport, position', fuel, hname⟩ := hone
              have hrecord : records ++ record :: found =
                  (records ++ [(record.1, target.port)]) ++ found := by
                rw [List.append_assoc, ← show record = (record.1, target.port) from
                  Prod.ext rfl hport]
                rfl
              obtain ⟨fuel', h⟩ := (ih answer.stop (records ++ [(record.1, target.port)])).mpr
                ⟨rest, found, hrest, hfound, hrecord⟩
              refine ⟨max fuel fuel', ?_⟩
              have hdecode : decodeName (max fuel fuel') bytes target.position "" =
                  some (.ok (position', record.1)) := run_mono hname (Nat.le_max_left _ _)
              rw [readAnswers, hread]
              simp only [hdecode]
              exact readAnswers_mono h (Nat.le_max_right _ _)

/-- **When the parse succeeds, and with what.** -/
theorem parseSrvResponse_ok_iff (identifier : UInt16) (records : List (String × UInt16)) :
    (∃ fuel, parseSrvResponse fuel bytes identifier = some (.ok records)) ↔
      ∃ count position answers, readHeader bytes identifier = .ok (count, position) ∧
        answersFrom bytes count position = some answers ∧
        List.Forall₂ (Decodes bytes) (answers.filterMap (Answer.target bytes)) records := by
  simp only [parseSrvResponse]
  cases readHeader bytes identifier with
  | error error => exact iff_of_false (by rintro ⟨_, ⟨⟩⟩) (by rintro ⟨_, _, _, ⟨⟩, _⟩)
  | ok header =>
      rw [readAnswers_ok_iff]
      constructor
      · rintro ⟨answers, found, hanswers, hfound, rfl⟩
        exact ⟨_, _, answers, rfl, hanswers, hfound⟩
      · rintro ⟨_, _, answers, ⟨⟩, hanswers, hfound⟩
        exact ⟨answers, records, hanswers, hfound, rfl⟩

end Answers

end Libcfd.Edge.Discovery

import Mathlib.Algebra.Order.BigOperators.Group.Finset
import Mathlib.Order.Interval.Finset.Nat
import Libcfd.Edge.Discovery
import Mathlib.Algebra.GroupWithZero.Nat

/-!
# When the answer to an SRV query can be parsed

The position of `decode_name` decides alone what its turns do. It takes one of finitely many values,
so the loop is left if and only if no compression pointer leads back to where the name has been.
Names are spelled out of the labels passed: without a cycle each label is passed once, and still
pointers into the middle of a label make a name longer than the message it came in.
-/

namespace Libcfd.Edge.Discovery

open StateTransition Libcfd.Loop Libcfd.Rpc

/-! ## The positions of a name -/

/-- Where `decode_name` goes on from `p`, if it does. -/
def nextPosition (bytes : List UInt8) (p : Nat) : Option Nat :=
  match entryAt bytes p with
  | .pointer target => some target
  | .label text => some (p + 1 + text.length)
  | _ => none

variable {bytes : List UInt8} {p : Nat}

/-- The state of `decode_name` a turn later. -/
abbrev nextDecoding (bytes : List UInt8) : Decoding → Option Decoding :=
  nextState (decodeTurn bytes)

theorem map_nextDecoding (bytes : List UInt8) (s : Decoding) :
    (nextDecoding bytes s).map Decoding.p = nextPosition bytes s.p := by
  rw [nextDecoding, nextState, decodeTurn, nextPosition]
  cases entryAt bytes s.p <;> rfl

theorem entryAt_pointer {target : Nat} (h : entryAt bytes p = .pointer target) :
    p < bytes.length ∧ target < 2 ^ 14 := by
  unfold entryAt at h
  split at h
  · cases h
  · dsimp only at h
    split at h
    · cases h
    · split at h
      · split at h
        · cases h
        · cases h
          refine ⟨by omega, Nat.or_lt_two_pow ?_ ?_⟩
          · rw [Nat.shiftLeft_eq, UInt8.toNat_and]
            have hand := Nat.and_le_right (n := (bytes.getD p 0).toNat) (m := (0x3f : UInt8).toNat)
            have hmask : (0x3f : UInt8).toNat = 63 := rfl
            omega
          · exact Nat.lt_trans (UInt8.toNat_lt _) (by decide)
      · split at h
        · cases h
        · split at h <;> cases h

theorem toNat_lt_of_and_eq_zero {b : UInt8} (h : b &&& 0xc0 = 0) : b.toNat < 64 := by
  have hall : ∀ n : Fin 256, UInt8.ofFin n &&& 0xc0 = 0 → n.val < 64 := by decide +kernel
  exact hall b.toFin h

/-- A label is what its length says, and it is inside the message. -/
theorem entryAt_label {text : List UInt8} (h : entryAt bytes p = .label text) :
    p + 1 + text.length ≤ bytes.length ∧ 0 < text.length ∧ text.length < 64 := by
  unfold entryAt at h
  split at h
  · cases h
  · dsimp only at h
    split at h
    · cases h
    · next hzero =>
      split at h
      · split at h <;> cases h
      · split at h
        · cases h
        · next hbits =>
          split at h
          · cases h
          · cases h
            have hlength := toNat_lt_of_and_eq_zero (Decidable.not_not.mp hbits)
            have hpos : (bytes.getD p 0).toNat ≠ 0 := fun h => hzero (UInt8.toNat_inj.mp h)
            rw [List.length_take, List.length_drop]
            omega

/-- A name goes on to the offset of a pointer or inside the message. -/
theorem nextPosition_le {q : Nat} (h : nextPosition bytes p = some q) :
    q ≤ bytes.length + 2 ^ 14 := by
  unfold nextPosition at h
  split at h
  · next target hentry =>
    obtain ⟨_, htarget⟩ := entryAt_pointer hentry
    cases h
    omega
  · next text hentry =>
    obtain ⟨hinside, _, _⟩ := entryAt_label hentry
    cases h
    omega
  · cases h

theorem finite_positions (bytes : List UInt8) (p : Nat) :
    {q | Reaches (nextPosition bytes) p q}.Finite := by
  apply (Set.finite_Iic (max p (bytes.length + 2 ^ 14))).subset
  intro q hreach
  rcases Relation.ReflTransGen.cases_tail hreach with rfl | ⟨r, _, hnext⟩
  · exact Nat.le_max_left _ _
  · exact Nat.le_trans (nextPosition_le hnext) (Nat.le_max_right _ _)

/-- **`decode_name` comes back** if and only if no pointer leads back to where the name has been. -/
theorem decodeName_returns_iff (bytes : List UInt8) (position : Nat) (out : String) :
    (∃ fuel result, decodeName fuel bytes position out = some result) ↔
      ¬ ComesRound (nextPosition bytes) position := by
  rw [← ends_iff (finite_positions bytes position),
    ← leaves_iff (map_nextDecoding bytes) ⟨position, position, false, out⟩]
  exact exists_comm

/-! ## The length of a name -/

theorem length_fitting_le (ranges : List (UInt8 × UInt8)) (bytes : List UInt8) :
    (fitting ranges bytes).length ≤ bytes.length := by
  fun_induction fitting ranges bytes with
  | case1 low high ranges b bytes _ ih => exact Nat.succ_le_succ ih
  | case2 => exact Nat.zero_le _
  | case3 => exact Nat.zero_le _

theorem utf8Size_replacement : (Char.ofNat 0xfffd).utf8Size = 3 := by decide

theorem utf8Size_ascii {first : UInt8} (h : continuations first = some []) :
    (Char.ofNat (codePoint first [])).utf8Size = 1 := by
  have hlt : first.toNat < 128 := by
    unfold continuations at h
    split at h
    · next hlt => exact UInt8.lt_iff_toNat_lt.mp hlt
    · grind
  have hvalid : first.toNat.isValidChar := .inl (Nat.lt_trans hlt (by decide))
  rw [Char.utf8Size_eq_one_iff, codePoint, List.foldl_nil, if_pos rfl, Char.ofNat, dif_pos hvalid,
    UInt32.le_iff_toNat_le]
  exact Nat.le_of_lt_succ hlt

/-- A character is at most three bytes for each byte it was read from. -/
theorem utf8Size_lossyChar (first : UInt8) (bytes : List UInt8) :
    (lossyChar first bytes).1.utf8Size ≤ 3 * ((lossyChar first bytes).2 + 1) ∧
      (lossyChar first bytes).2 ≤ bytes.length := by
  unfold lossyChar
  cases hranges : continuations first with
  | none => exact ⟨Nat.le_of_eq utf8Size_replacement, Nat.zero_le _⟩
  | some ranges =>
      have hfitting := length_fitting_le ranges bytes
      dsimp only
      split
      · next hall =>
        refine ⟨?_, hfitting⟩
        cases hmore : fitting ranges bytes with
        | nil =>
            rw [hmore, List.length_nil, eq_comm, List.length_eq_zero_iff] at hall
            show (Char.ofNat (codePoint first [])).utf8Size ≤ 3
            rw [utf8Size_ascii (by rw [hranges, hall])]
            exact Nat.le_add_left 1 2
        | cons b more =>
            have hfour := Char.utf8Size_le_four (Char.ofNat (codePoint first (b :: more)))
            show (Char.ofNat (codePoint first (b :: more))).utf8Size ≤ 3 * (more.length + 1 + 1)
            omega
      · refine ⟨?_, hfitting⟩
        show (Char.ofNat 0xfffd).utf8Size ≤ _
        rw [utf8Size_replacement]
        omega

theorem utf8ByteSize_fromUtf8Lossy (first : UInt8) (bytes : List UInt8) :
    (fromUtf8Lossy (first :: bytes)).utf8ByteSize = (lossyChar first bytes).1.utf8Size +
      (fromUtf8Lossy (bytes.drop (lossyChar first bytes).2)).utf8ByteSize := by
  rw [fromUtf8Lossy, String.utf8ByteSize_append, String.utf8ByteSize_singleton]

theorem utf8ByteSize_fromUtf8Lossy_le (bytes : List UInt8) :
    (fromUtf8Lossy bytes).utf8ByteSize ≤ 3 * bytes.length := by
  fun_induction fromUtf8Lossy bytes with
  | case1 => exact Nat.le_refl 0
  | case2 first bytes next ih =>
      obtain ⟨hsize, htaken⟩ := utf8Size_lossyChar first bytes
      rw [String.utf8ByteSize_append, String.utf8ByteSize_singleton, List.length_cons]
      rw [List.length_drop] at ih
      show (lossyChar first bytes).1.utf8Size + _ ≤ _
      change _ ≤ 3 * (bytes.length - (lossyChar first bytes).2) at ih
      omega

theorem utf8ByteSize_fromUtf8Lossy_pos (h : 0 < bytes.length) :
    0 < (fromUtf8Lossy bytes).utf8ByteSize := by
  cases bytes with
  | nil => cases h
  | cons first bytes =>
      rw [utf8ByteSize_fromUtf8Lossy]
      exact Nat.add_pos_left (Char.utf8Size_pos _) _

/-- What a label at `p` adds to a name, with the dot before it. -/
def labelCost (bytes : List UInt8) (p : Nat) : Nat :=
  match entryAt bytes p with
  | .label text => (fromUtf8Lossy text).utf8ByteSize + 1
  | _ => 0

/-- What the labels passed within `n` turns from `p` on add to a name. -/
def nameCost (bytes : List UInt8) (n p : Nat) : Nat :=
  ((trail (nextPosition bytes) n p).map (labelCost bytes)).sum

/-- A name as a sum of labels with a dot before each: one byte more than it has. -/
def weight (name : String) : Nat := if name.isEmpty then 0 else name.utf8ByteSize + 1

theorem weight_le_iff (name : String) (n : Nat) :
    weight name ≤ n + 1 ↔ name.utf8ByteSize ≤ n := by
  rw [weight]
  split
  · next h =>
    rw [String.isEmpty_iff.mp h]
    exact iff_of_true (Nat.zero_le _) (Nat.zero_le _)
  · exact Nat.succ_le_succ_iff

theorem weight_append {label : String} (h : 0 < label.utf8ByteSize) (name : String) :
    weight ((if name.isEmpty then name else name.push '.') ++ label) =
      weight name + (label.utf8ByteSize + 1) := by
  have hne : ∀ start : String, (start ++ label).isEmpty ≠ true := by
    intro start hempty
    rw [String.isEmpty_iff, ← String.utf8ByteSize_eq_zero_iff, String.utf8ByteSize_append] at hempty
    omega
  rw [weight, if_neg (hne _), weight, String.utf8ByteSize_append]
  split
  · next hempty =>
    rw [String.isEmpty_iff.mp hempty, String.utf8ByteSize_empty]
    omega
  · rw [String.utf8ByteSize_push]
    show name.utf8ByteSize + 1 + label.utf8ByteSize + 1 = _
    omega

/-- A turn that goes on adds what stands at its position. -/
theorem weight_nextDecoding {s s' : Decoding} (h : nextDecoding bytes s = some s') :
    weight s'.out = weight s.out + labelCost bytes s.p := by
  rw [nextDecoding, nextState, decodeTurn] at h
  rw [labelCost]
  cases hentry : entryAt bytes s.p with
  | malformed error =>
      rw [hentry] at h
      cases h
  | terminator =>
      rw [hentry] at h
      cases h
  | pointer target =>
      rw [hentry] at h
      cases h
      rfl
  | label text =>
      obtain ⟨_, hpos, _⟩ := entryAt_label hentry
      rw [hentry] at h
      cases h
      exact weight_append (utf8ByteSize_fromUtf8Lossy_pos hpos) s.out

theorem labelCost_of_none (h : nextPosition bytes p = none) : labelCost bytes p = 0 := by
  rw [nextPosition] at h
  rw [labelCost]
  split at h
  · cases h
  · cases h
  · next _ hlabel =>
    split
    · next text hentry => exact absurd hentry (hlabel text)
    · rfl

theorem nameCost_none (h : nextPosition bytes p = none) (n : Nat) : nameCost bytes n p = 0 := by
  cases n with
  | zero => rfl
  | succ n =>
      rw [nameCost, trail, h]
      simp only [Option.elim_none, List.map_cons, List.map_nil, List.sum_cons, List.sum_nil]
      exact labelCost_of_none h

theorem nameCost_some {q : Nat} (h : nextPosition bytes p = some q) (n : Nat) :
    nameCost bytes (n + 1) p = labelCost bytes p + nameCost bytes n q := by
  rw [nameCost, trail, h]
  rfl

/-- The name after any number of turns is the labels passed so far. -/
theorem exists_weight_eq {s s' : Decoding} (h : Reaches (nextDecoding bytes) s s') :
    ∃ n, weight s'.out = weight s.out + nameCost bytes n s.p := by
  induction h using Relation.ReflTransGen.head_induction_on with
  | refl => exact ⟨0, rfl⟩
  | @head s t hstep _ ih =>
      obtain ⟨n, hn⟩ := ih
      have hpos := map_nextDecoding bytes s
      rw [hstep] at hpos
      refine ⟨n + 1, ?_⟩
      rw [hn, weight_nextDecoding hstep, nameCost_some hpos.symm, Nat.add_assoc]

theorem exists_reaches_weight_eq (bytes : List UInt8) (s : Decoding) (n : Nat) :
    ∃ s', Reaches (nextDecoding bytes) s s' ∧
      weight s'.out = weight s.out + nameCost bytes n s.p := by
  induction n generalizing s with
  | zero => exact ⟨s, .refl, rfl⟩
  | succ n ih =>
      have hpos := map_nextDecoding bytes s
      cases hnext : nextDecoding bytes s with
      | none =>
          rw [hnext] at hpos
          exact ⟨s, .refl, by rw [nameCost_none hpos.symm]; rfl⟩
      | some t =>
          rw [hnext] at hpos
          obtain ⟨s', hreach, hweight⟩ := ih t
          refine ⟨s', .head hnext hreach, ?_⟩
          rw [hweight, weight_nextDecoding hnext, nameCost_some hpos.symm, Nat.add_assoc]

/-- The start of `decode_name` for the name at `p`. -/
def Decoding.start (p : Nat) : Decoding := ⟨p, p, false, ""⟩

/-- The name at `p` has never more than `limit` bytes while it is decoded. -/
def StaysWithin (bytes : List UInt8) (limit p : Nat) : Prop :=
  ∀ s, Reaches (nextDecoding bytes) (.start p) s → s.out.utf8ByteSize ≤ limit

theorem staysWithin_iff (bytes : List UInt8) (limit p : Nat) :
    StaysWithin bytes limit p ↔ ∀ n, nameCost bytes n p ≤ limit + 1 := by
  have hzero : weight (Decoding.start p).out = 0 := rfl
  constructor
  · intro h n
    obtain ⟨s, hreach, hweight⟩ := exists_reaches_weight_eq bytes (.start p) n
    rw [hzero, Nat.zero_add] at hweight
    exact hweight ▸ (weight_le_iff _ _).mpr (h s hreach)
  · intro h s hreach
    obtain ⟨n, hweight⟩ := exists_weight_eq hreach
    rw [hzero, Nat.zero_add] at hweight
    exact (weight_le_iff _ _).mp (hweight ▸ h n)

theorem labelCost_le (bytes : List UInt8) (p : Nat) : labelCost bytes p ≤ 190 := by
  rw [labelCost]
  split
  · next text hentry =>
    obtain ⟨_, _, hshort⟩ := entryAt_label hentry
    have hsize := utf8ByteSize_fromUtf8Lossy_le text
    omega
  · exact Nat.zero_le _

theorem lt_length_of_labelCost_ne_zero (h : labelCost bytes p ≠ 0) : p < bytes.length := by
  rw [labelCost] at h
  split at h
  · next text hentry =>
    obtain ⟨hinside, _, _⟩ := entryAt_label hentry
    omega
  · exact absurd rfl h

/-- Without a cycle every label is passed once. -/
theorem nameCost_le (h : ¬ ComesRound (nextPosition bytes) p) (n : Nat) :
    nameCost bytes n p ≤ 190 * bytes.length := by
  have hnodup := nodup_trail h n
  rw [nameCost, ← List.sum_toFinset (labelCost bytes) hnodup]
  calc ∑ q ∈ (trail (nextPosition bytes) n p).toFinset, labelCost bytes q
      ≤ ∑ q ∈ Finset.range bytes.length, labelCost bytes q :=
        Finset.sum_le_sum_of_ne_zero fun q _ hq =>
          Finset.mem_range.mpr (lt_length_of_labelCost_ne_zero hq)
    _ ≤ (Finset.range bytes.length).card • 190 :=
        Finset.sum_le_card_nsmul _ _ _ fun q _ => labelCost_le bytes q
    _ = 190 * bytes.length := by
        rw [Finset.card_range]
        exact Nat.mul_comm ..

/-! ## The names that are decoded -/

/-- The targets the loop over the answers comes to, up to an answer that is malformed. -/
def targets (bytes : List UInt8) : Nat → Nat → List Target
  | 0, _ => []
  | count + 1, position =>
      match readAnswer bytes position with
      | .error _ => []
      | .ok (position, target) => target.toList ++ targets bytes count position

/-- The targets of a message that has the identifier asked for. -/
def allTargets (bytes : List UInt8) (identifier : UInt16) : List Target :=
  match readHeader bytes identifier with
  | .error _ => []
  | .ok (count, position) => targets bytes count position

/-- A name from which a terminator is reached. -/
def IsTerminated (bytes : List UInt8) (p : Nat) : Prop :=
  ∃ q, Reaches (nextPosition bytes) p q ∧ entryAt bytes q = .terminator

/-- The name at `p` is the target of an SRV record, and those of the records before it are
terminated. -/
def IsDecoded (bytes : List UInt8) (targets : List Target) (p : Nat) : Prop :=
  ∃ before target after, targets = before ++ target :: after ∧ target.position = p ∧
    ∀ t ∈ before, IsTerminated bytes t.position

/-- `decode_name` succeeds if and only if the name is terminated. -/
theorem decodeName_ok_iff (bytes : List UInt8) (position : Nat) (out : String) :
    (∃ fuel result, decodeName fuel bytes position out = some (.ok result)) ↔
      IsTerminated bytes position := by
  constructor
  · rintro ⟨fuel, result, h⟩
    obtain ⟨s, hreach, hleave⟩ := leaves_iff_reaches.mp ⟨fuel, h⟩
    refine ⟨s.p, reaches_pos (map_nextDecoding bytes) hreach, ?_⟩
    rw [decodeTurn] at hleave
    split at hleave <;> first | assumption | cases hleave
  · rintro ⟨q, hahead, hterminator⟩
    obtain ⟨s, hreach, rfl⟩ := exists_reaches_pos (s := ⟨position, position, false, out⟩)
      (map_nextDecoding bytes) hahead
    have hleave : decodeTurn bytes s =
        .leave (.ok (if s.jumped then s.position else s.p + 1, s.out)) := by
      rw [decodeTurn, hterminator]
    obtain ⟨fuel, h⟩ := leaves_iff_reaches.mpr ⟨s, hreach, hleave⟩
    exact ⟨fuel, _, h⟩

/-! ## The answer section -/

theorem not_isDecoded_nil : ¬ IsDecoded bytes [] p := by
  rintro ⟨before, target, after, h, _⟩
  cases before <;> cases h

/-- A name is decoded first, or after the first. -/
theorem isDecoded_cons {target : Target} {rest : List Target} :
    IsDecoded bytes (target :: rest) p ↔
      target.position = p ∨ IsTerminated bytes target.position ∧ IsDecoded bytes rest p := by
  constructor
  · rintro ⟨before, last, after, h, hp, hbefore⟩
    cases before with
    | nil =>
        cases h
        exact .inl hp
    | cons first before =>
        cases h
        have hrest := fun t ht => hbefore t (List.mem_cons_of_mem _ ht)
        exact .inr ⟨hbefore _ List.mem_cons_self, before, last, after, rfl, hp, hrest⟩
  · rintro (hp | ⟨hfirst, before, last, after, rfl, hp, hbefore⟩)
    · exact ⟨[], target, rest, rfl, hp, List.forall_mem_nil _⟩
    · exact ⟨target :: before, last, after, rfl, hp, List.forall_mem_cons.mpr ⟨hfirst, hbefore⟩⟩

theorem readAnswers_mono {fuel more count position : Nat} {records : List (String × UInt16)}
    {result : Except IoError (List (String × UInt16))}
    (h : readAnswers fuel bytes count position records = some result) (hle : fuel ≤ more) :
    readAnswers more bytes count position records = some result := by
  induction count generalizing position records with
  | zero => exact h
  | succ count ih =>
      rw [readAnswers] at h ⊢
      split at h
      · exact h
      · exact ih h
      · next after target _ =>
        cases hname : decodeName fuel bytes target.position "" with
        | none =>
            rw [hname] at h
            cases h
        | some name =>
            rw [hname] at h
            rw [decodeName] at hname
            rw [decodeName, run_mono hname hle]
            cases name with
            | error error => exact h
            | ok name => exact ih h

/-- The loop over the answers comes back if and only if every name it decodes does. -/
theorem readAnswers_returns_iff (bytes : List UInt8) (count position : Nat)
    (records : List (String × UInt16)) :
    (∃ fuel result, readAnswers fuel bytes count position records = some result) ↔
      ∀ p, IsDecoded bytes (targets bytes count position) p →
        ¬ ComesRound (nextPosition bytes) p := by
  induction count generalizing position records with
  | zero => exact iff_of_true ⟨0, _, rfl⟩ fun p h => absurd h not_isDecoded_nil
  | succ count ih =>
      simp only [readAnswers, targets]
      cases readAnswer bytes position with
      | error error => exact iff_of_true ⟨0, _, rfl⟩ fun p h => absurd h not_isDecoded_nil
      | ok answer =>
          obtain ⟨after, _ | target⟩ := answer
          · exact ih after records
          · simp only [Option.toList_some, List.singleton_append, isDecoded_cons]
            constructor
            · rintro ⟨fuel, result, h⟩ p hp
              cases hname : decodeName fuel bytes target.position "" with
              | none =>
                  rw [hname] at h
                  cases h
              | some name =>
                  rcases hp with rfl | ⟨hterminated, hp⟩
                  · exact (decodeName_returns_iff bytes target.position "").mp ⟨fuel, name, hname⟩
                  · obtain ⟨fuel', result', hok⟩ :=
                      (decodeName_ok_iff bytes target.position "").mpr hterminated
                    cases Leaves.unique ⟨fuel, hname⟩ ⟨fuel', hok⟩
                    rw [hname] at h
                    exact (ih after _).mp ⟨fuel, result, h⟩ p hp
            · intro h
              obtain ⟨fuel, name, hname⟩ :=
                (decodeName_returns_iff bytes target.position "").mpr (h _ (.inl rfl))
              cases name with
              | error error => exact ⟨fuel, .error error, by rw [hname]⟩
              | ok name =>
                  have hterminated :=
                    (decodeName_ok_iff bytes target.position "").mp ⟨fuel, name, hname⟩
                  obtain ⟨fuel', result, hrest⟩ := (ih after (records ++ [(name.2, target.port)])).mpr
                    fun p hp => h p (.inr ⟨hterminated, hp⟩)
                  refine ⟨max fuel fuel', result, ?_⟩
                  rw [decodeName] at hname
                  rw [decodeName, run_mono hname (Nat.le_max_left _ _)]
                  exact readAnswers_mono hrest (Nat.le_max_right _ _)

/-- `parse_srv_response` comes back, and no name it decodes has ever more bytes than the
message. -/
def Settles (bytes : List UInt8) (identifier : UInt16) : Prop :=
  (∃ fuel result, parseSrvResponse fuel bytes identifier = some result) ∧
    ∀ p, IsDecoded bytes (allTargets bytes identifier) p → StaysWithin bytes bytes.length p

theorem parseSrvResponse_returns_iff (bytes : List UInt8) (identifier : UInt16) :
    (∃ fuel result, parseSrvResponse fuel bytes identifier = some result) ↔
      ∀ p, IsDecoded bytes (allTargets bytes identifier) p →
        ¬ ComesRound (nextPosition bytes) p := by
  simp only [parseSrvResponse, allTargets]
  cases readHeader bytes identifier with
  | error error => exact iff_of_true ⟨0, _, rfl⟩ fun p h => absurd h not_isDecoded_nil
  | ok header => exact readAnswers_returns_iff bytes header.1 header.2 []

/-- **The answer to an SRV query.** The parse comes back if and only if no name it decodes comes
round to where it has been; then such a name has never more than 190 bytes for each byte of the
message. It has never more bytes than the message if and only if the labels it passes, each with a
dot before it, have at most one more. -/
theorem parseSrvResponse_settles_iff (bytes : List UInt8) (identifier : UInt16) :
    ((∃ fuel result, parseSrvResponse fuel bytes identifier = some result) ↔
      ∀ p, IsDecoded bytes (allTargets bytes identifier) p →
        ¬ ComesRound (nextPosition bytes) p) ∧
    (∀ p, ¬ ComesRound (nextPosition bytes) p → StaysWithin bytes (190 * bytes.length) p) ∧
    (Settles bytes identifier ↔
      ∀ p, IsDecoded bytes (allTargets bytes identifier) p →
        ¬ ComesRound (nextPosition bytes) p ∧ ∀ n, nameCost bytes n p ≤ bytes.length + 1) := by
  have hreturns := parseSrvResponse_returns_iff bytes identifier
  refine ⟨hreturns, fun p hp => ?_, ?_⟩
  · rw [staysWithin_iff]
    intro n
    exact Nat.le_succ_of_le (nameCost_le hp n)
  · rw [Settles, hreturns, ← forall₂_and]
    exact forall₂_congr fun p _ => and_congr_right fun _ => staysWithin_iff bytes bytes.length p

/-- An answer to the identifier 0x1234 in which the name of the target is a pointer to itself. -/
def selfPointing : List UInt8 :=
  [0x12, 0x34, 0x81, 0x80, 0, 1, 0, 1, 0, 0, 0, 0, 0, 0, 33, 0, 1] ++
    [0xc0, 0x0c, 0, 33, 0, 1, 0, 0, 0, 60, 0, 8, 0, 0, 0, 0, 0x1e, 0xa4, 0xc0, 35]

/-- An answer of 100 bytes in which the target is one label of 63 bytes that are not UTF-8. -/
def oversized : List UInt8 :=
  [0x12, 0x34, 0x81, 0x80, 0, 1, 0, 1, 0, 0, 0, 0, 0, 0, 33, 0, 1] ++
    [0xc0, 0x0c, 0, 33, 0, 1, 0, 0, 0, 60, 0, 71, 0, 0, 0, 0, 0x1e, 0xa4, 63] ++
    List.replicate 63 0xff ++ [0]

/-- The first answer is never parsed; the name in the second grows to 189 bytes. -/
theorem selfPointing_not_settled :
    (¬ ∃ fuel result, parseSrvResponse fuel selfPointing 0x1234 = some result) ∧
      ¬ Settles selfPointing 0x1234 ∧ ¬ Settles oversized 0x1234 := by
  have hself : IsDecoded selfPointing (allTargets selfPointing 0x1234) 35 := by
    rw [show allTargets selfPointing 0x1234 = [⟨7844, 35⟩] by decide +kernel, isDecoded_cons]
    exact .inl rfl
  have hround : ComesRound (nextPosition selfPointing) 35 :=
    ⟨35, .refl, .single (by decide)⟩
  have hnever : ¬ ∃ fuel result, parseSrvResponse fuel selfPointing 0x1234 = some result := by
    rw [parseSrvResponse_returns_iff]
    intro h
    exact h 35 hself hround
  refine ⟨hnever, fun h => hnever h.1, fun h => ?_⟩
  have hdecoded : IsDecoded oversized (allTargets oversized 0x1234) 35 := by
    rw [show allTargets oversized 0x1234 = [⟨7844, 35⟩] by decide +kernel, isDecoded_cons]
    exact .inl rfl
  have hcost := (staysWithin_iff oversized oversized.length 35).mp (h.2 35 hdecoded) 1
  revert hcost
  decide +kernel

end Libcfd.Edge.Discovery

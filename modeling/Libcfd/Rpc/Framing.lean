import Libcfd.Foundation.LittleEndian
import Libcfd.Rpc.Io
import Mathlib.Algebra.BigOperators.Ring.List
import Mathlib.Algebra.Order.BigOperators.Group.List
import Mathlib.Algebra.Order.Ring.Nat
import Mathlib.Data.List.SplitLengths

/-!
# Frames on a byte stream

A `Frame` is a message as it lies on the wire. `readMessage` returns the segments of the frame its
input starts with, however the input is cut, and takes nothing beyond it; an input that does not
start with a frame has a bad segment table (`BadTable`) or ends too early (`EndsInside`), and the
error says which.
-/

namespace Libcfd.Rpc

open Libcfd.Stream

variable {E : Signature}

/-- A segment table of plain lists: the lengths pushed, and the bytes they cut. -/
def SegmentTable.ofLists : SegmentTable where
  Builder := List Nat
  OwnedSegments := List Nat × List UInt8
  withCapacity _ := []
  tryPushSegment lengths count :=
    if 8 * (lengths.sum + count) < 2 ^ 64 then .ok (lengths ++ [count])
    else .error ⟨"message size overflow"⟩
  intoOwnedSegments lengths := (lengths, List.replicate (8 * lengths.sum) 0)
  length segments := segments.2.length
  fill segments bytes := (segments.1, bytes)
  segments segments := (segments.1.map (8 * ·)).splitLengths segments.2
  lengths := id
  lengths_withCapacity _ := rfl
  tryPushSegment_ok lengths count h := ⟨_, if_pos h, rfl⟩
  length_intoOwnedSegments _ := List.length_replicate
  segments_fill lengths parts h := by
    have hsum : parts.flatten.length = (lengths.map (8 * ·)).sum := by
      rw [List.length_flatten, h]
      rfl
    refine List.eq_iff_flatten_eq.mpr ⟨?_, ?_⟩
    · exact List.flatten_splitLengths _ _ (Nat.le_of_eq hsum)
    · exact (List.map_splitLengths_length _ _ (Nat.le_of_eq hsum.symm)).trans h.symm

/-! ## Frames -/

/-- The size in bytes of a segment table for `n` segments, padded to whole words. -/
def tableSize (n : Nat) : Nat := 8 * ((4 + 4 * n + 7) / 8)

/-- A message on the wire: its segments, and what the segment table is padded with. -/
structure Frame where
  segments : List (List UInt8)
  padding : List UInt8
  segments_ne_nil : segments ≠ []
  length_segments_le : segments.length ≤ 512
  whole : ∀ segment ∈ segments, 8 ∣ segment.length
  padded : 4 + 4 * segments.length + padding.length = tableSize segments.length
  bounded : (segments.map fun segment => segment.length / 8).sum ≤ maximumTotalWords

namespace Frame

/-- A frame of one segment. -/
def single (segment : List UInt8) (hwhole : 8 ∣ segment.length)
    (hbounded : segment.length / 8 ≤ maximumTotalWords) : Frame where
  segments := [segment]
  padding := []
  segments_ne_nil := List.cons_ne_nil segment []
  length_segments_le := by
    show 1 ≤ 512
    decide
  whole s hs := by
    obtain rfl := List.mem_singleton.mp hs
    exact hwhole
  padded := by
    show 4 + 4 * 1 + 0 = tableSize 1
    decide
  bounded := hbounded

variable (frame : Frame)

/-- The sizes of the segments in words. -/
def counts : List Nat := frame.segments.map fun segment => segment.length / 8

def table : List UInt8 :=
  words 4 ((frame.segments.length - 1) :: frame.counts) ++ frame.padding

def bytes : List UInt8 := frame.table ++ frame.segments.flatten

theorem length_segments_pos : 0 < frame.segments.length :=
  List.length_pos_iff.mpr frame.segments_ne_nil

@[simp] theorem length_counts : frame.counts.length = frame.segments.length := List.length_map ..

theorem lengths_eq : frame.segments.map List.length = frame.counts.map (8 * ·) := by
  rw [counts, List.map_map]
  refine List.map_congr_left fun segment hsegment => ?_
  exact (Nat.mul_div_cancel' (frame.whole segment hsegment)).symm

theorem length_table : frame.table.length = tableSize frame.segments.length := by
  rw [table, List.length_append, length_words, List.length_cons, length_counts, ← frame.padded]
  omega

theorem length_flatten : frame.segments.flatten.length = 8 * frame.counts.sum := by
  rw [List.length_flatten, lengths_eq, List.sum_map_mul_left, List.map_id']

theorem length_bytes :
    frame.bytes.length = tableSize frame.segments.length + 8 * frame.counts.sum := by
  rw [bytes, List.length_append, length_table, length_flatten]

theorem count_lt {count : Nat} (h : count ∈ frame.counts) : count < 256 ^ 4 := by
  have hle : count ≤ frame.counts.sum := List.le_sum_of_mem h
  have hbounded : frame.counts.sum ≤ maximumTotalWords := frame.bounded
  have hlimit : maximumTotalWords < 256 ^ 4 := by decide
  omega

end Frame

/-! ## What an input announces -/

section Announced

variable (input : List UInt8)

/-- The number of segments, as the input has it. -/
def announced : Nat := word 4 input 0 + 1

/-- The sizes of the segments, as the input has them. -/
def announcedCounts : List Nat := (List.range (announced input)).map fun i => word 4 input (i + 1)

/-- The segment table is there as far as it is needed to see that it is wrong. -/
def BadTable : Prop :=
  8 ≤ input.length ∧ (512 < announced input ∨ maximumTotalWords < word 4 input 1 ∨
    tableSize (announced input) ≤ input.length ∧ maximumTotalWords < (announcedCounts input).sum)

/-- Nothing is wrong with the input but that it ends. -/
def EndsInside : Prop :=
  input.length < 8 ∨ announced input ≤ 512 ∧ word 4 input 1 ≤ maximumTotalWords ∧
    (input.length < tableSize (announced input) ∨
      (announcedCounts input).sum ≤ maximumTotalWords ∧
        input.length < tableSize (announced input) + 8 * (announcedCounts input).sum)

/-- A good table, with all it announces behind it. -/
def IsComplete : Prop :=
  announced input ≤ 512 ∧ (announcedCounts input).sum ≤ maximumTotalWords ∧
    tableSize (announced input) + 8 * (announcedCounts input).sum ≤ input.length

variable {input}

theorem announced_pos : 0 < announced input := Nat.succ_pos _

theorem le_tableSize (n : Nat) : 4 + 4 * n ≤ tableSize n := by
  rw [tableSize]
  omega

theorem eight_le_tableSize {n : Nat} (h : 0 < n) : 8 ≤ tableSize n := by
  rw [tableSize]
  omega

@[simp] theorem length_announcedCounts : (announcedCounts input).length = announced input := by
  rw [announcedCounts, List.length_map, List.length_range]

theorem announcedCounts_lt {count : Nat} (h : count ∈ announcedCounts input) : count < 256 ^ 4 := by
  obtain ⟨i, _, rfl⟩ := List.mem_map.mp h
  exact word_lt 4 input (i + 1)

theorem announcedCounts_eq_cons : announcedCounts input =
    word 4 input 1 :: (List.range (announced input - 1)).map fun i => word 4 input (i + 2) := by
  obtain ⟨n, hn⟩ : ∃ n, announced input = n + 1 := ⟨_, rfl⟩
  rw [announcedCounts, hn, List.range_succ_eq_map, List.map_cons, List.map_map]
  rfl

theorem first_append_tail :
    [word 4 input 1] ++ (announcedCounts input).tail = announcedCounts input := by
  rw [announcedCounts_eq_cons, List.tail_cons, List.singleton_append]

theorem first_le_sum : word 4 input 1 ≤ (announcedCounts input).sum := by
  rw [announcedCounts_eq_cons, List.sum_cons]
  exact Nat.le_add_right ..

/-- An input is bad, too short or good. -/
theorem badTable_or_endsInside_or_isComplete (input : List UInt8) :
    BadTable input ∨ EndsInside input ∨ IsComplete input := by
  have hfirst : word 4 input 1 ≤ (announcedCounts input).sum := first_le_sum
  rw [BadTable, EndsInside, IsComplete]
  omega

/-- The input gives a frame's own numbers when it starts with the frame. -/
theorem announced_frame (frame : Frame) (rest : List UInt8) :
    announced (frame.bytes ++ rest) = frame.segments.length ∧
      announcedCounts (frame.bytes ++ rest) = frame.counts := by
  have hpos := frame.length_segments_pos
  have hle := frame.length_segments_le
  let values := (frame.segments.length - 1) :: frame.counts
  have hvalues : ∀ v ∈ values, v < 256 ^ 4 := by
    intro v hv
    rcases List.mem_cons.mp hv with rfl | hv
    · omega
    · exact frame.count_lt hv
  have hinput : frame.bytes ++ rest =
      words 4 values ++ (frame.padding ++ frame.segments.flatten ++ rest) := by
    rw [Frame.bytes, Frame.table]
    simp only [values, List.append_assoc]
  have hword : ∀ (i : Nat) (hi : i < values.length), word 4 (frame.bytes ++ rest) i = values[i] := by
    intro i hi
    rw [hinput]
    exact word_words hvalues _ hi
  have hannounced : announced (frame.bytes ++ rest) = frame.segments.length := by
    rw [announced, hword 0 (Nat.succ_pos _)]
    exact Nat.sub_add_cancel hpos
  refine ⟨hannounced, List.ext_getElem ?_ fun i hi hi' => ?_⟩
  · rw [length_announcedCounts, hannounced, Frame.length_counts]
  · simp only [announcedCounts, List.getElem_map, List.getElem_range]
    exact hword (i + 1) (Nat.succ_lt_succ hi')

theorem isComplete_frame (frame : Frame) (rest : List UInt8) :
    IsComplete (frame.bytes ++ rest) := by
  obtain ⟨hcount, hcounts⟩ := announced_frame frame rest
  rw [IsComplete, hcount, hcounts, List.length_append, frame.length_bytes]
  exact ⟨frame.length_segments_le, frame.bounded, Nat.le_add_right ..⟩

/-- A complete input starts with a frame. -/
theorem IsComplete.exists_frame (h : IsComplete input) :
    ∃ (frame : Frame) (rest : List UInt8), input = frame.bytes ++ rest := by
  obtain ⟨hcount, hsum, hlength⟩ := h
  have htable := le_tableSize (announced input)
  let data := (input.drop (tableSize (announced input))).take (8 * (announcedCounts input).sum)
  let sizes := (announcedCounts input).map (8 * ·)
  let segments := sizes.splitLengths data
  have hsizes : sizes.sum = 8 * (announcedCounts input).sum := by
    rw [List.sum_map_mul_left, List.map_id']
  have hdata : data.length = sizes.sum := by
    rw [hsizes, List.length_take, List.length_drop]
    omega
  have hlengths : segments.map List.length = sizes :=
    List.map_splitLengths_length data sizes (Nat.le_of_eq hdata.symm)
  have hflatten : segments.flatten = data := List.flatten_splitLengths data sizes (Nat.le_of_eq hdata)
  have hsegments : segments.length = announced input := by
    rw [← List.length_map (f := List.length), hlengths, List.length_map, length_announcedCounts]
  have hcounts : (segments.map fun segment => segment.length / 8) = announcedCounts input :=
    calc
      segments.map (fun segment => segment.length / 8)
          = (segments.map List.length).map (· / 8) := by
            rw [List.map_map]
            rfl
      _ = ((announcedCounts input).map (8 * ·)).map (· / 8) := by rw [hlengths]
      _ = (announcedCounts input).map fun count => 8 * count / 8 := List.map_map ..
      _ = announcedCounts input := by simp
  let padding := (input.drop (4 + 4 * announced input)).take
    (tableSize (announced input) - (4 + 4 * announced input))
  have hpadding : 4 + 4 * announced input + padding.length = tableSize (announced input) := by
    rw [List.length_take, List.length_drop]
    omega
  let frame : Frame :=
    { segments := segments
      padding := padding
      segments_ne_nil := by
        intro hnil
        rw [hnil] at hsegments
        exact absurd hsegments.symm (Nat.ne_of_gt announced_pos)
      length_segments_le := hsegments ▸ hcount
      whole := by
        intro segment hsegment
        have hmem : segment.length ∈ sizes := hlengths ▸ List.mem_map_of_mem hsegment
        obtain ⟨count, _, hcount⟩ := List.mem_map.mp hmem
        exact ⟨count, hcount.symm⟩
      padded := hsegments ▸ hpadding
      bounded := hcounts ▸ hsum }
  refine ⟨frame, input.drop (tableSize (announced input) + 8 * (announcedCounts input).sum), ?_⟩
  have hwords : words 4 ((segments.length - 1) :: announcedCounts input) =
      input.take (4 + 4 * announced input) := by
    have hall : 4 * (announced input + 1) ≤ input.length := by omega
    have hprefix := words_word hall
    rw [List.range_succ_eq_map, List.map_cons, List.map_map] at hprefix
    rw [hsegments, Nat.add_comm 4, ← Nat.mul_succ, ← hprefix]
    rfl
  have htaken : frame.table = input.take (tableSize (announced input)) := by
    rw [Frame.table, Frame.counts, hcounts, hwords, ← List.take_add]
    rw [Nat.add_sub_cancel' htable]
  rw [Frame.bytes, htaken, hflatten, ← List.take_add, List.take_append_drop]

end Announced

/-! ## The segment table as `readMessage` reads it -/

theorem leU32_eq {bytes : List UInt8} (h : bytes.length = 4) : leU32 bytes = .ok (little bytes) := by
  obtain ⟨a, b, c, d, rfl⟩ : ∃ a b c d, bytes = [a, b, c, d] := by
    match bytes, h with
    | [a, b, c, d], _ => exact ⟨a, b, c, d, rfl⟩
  rw [leU32]
  congr 1
  simp only [little]
  omega

/-- Four bytes of a table, as a number. -/
theorem slice_leU32 {bytes : List UInt8} {index : Nat} (h : 4 * index + 4 ≤ bytes.length) :
    ∃ part, slice bytes (4 * index) (4 * index + 4) = .ok part ∧
      leU32 part = .ok (word 4 bytes index) := by
  have hslice : (bytes.take (4 * index + 4)).drop (4 * index) =
      (bytes.drop (4 * index)).take 4 := by
    rw [List.drop_take, Nat.add_sub_cancel_left]
  have hlength : ((bytes.drop (4 * index)).take 4).length = 4 := by
    rw [List.length_take, List.length_drop]
    omega
  refine ⟨_, if_pos ⟨Nat.le_add_right .., h⟩, ?_⟩
  rw [hslice]
  exact leU32_eq hlength

theorem checked_natCast {n : Nat} (h : n < 2 ^ 64) : checked (n : Int) = .ok n := by
  rw [checked, if_pos (by omega), Int.toNat_natCast]

/-- The count wraps to zero when the input announces `2 ^ 32` segments, which is too many too. -/
theorem readHeader_eq {input : List UInt8} (h : 8 ≤ input.length) :
    readHeader (input.take 8) =
      if 512 < announced input then
        .error (.protocol ("invalid segment count " ++ toString (announced input % 2 ^ 32)))
      else .ok (announced input, word 4 input 1) := by
  have hlength : (input.take 8).length = 8 := List.length_take_of_le h
  obtain ⟨count, hcount, hcount'⟩ := @slice_leU32 (input.take 8) 0 (by omega)
  obtain ⟨first, hfirst, hfirst'⟩ := @slice_leU32 (input.take 8) 1 (by omega)
  rw [word_take (by omega)] at hcount' hfirst'
  have hlt : announced input ≤ 2 ^ 32 := word_lt 4 input 0
  have hpos : 0 < announced input := announced_pos
  have hcount32 : wrappingAdd32 (word 4 input 0) 1 = announced input % 2 ^ 32 := rfl
  have hslice : slice (input.take 8) 0 4 = .ok count := hcount
  have hslice' : slice (input.take 8) 4 8 = .ok first := hfirst
  rw [readHeader, hslice, ok_bind, hcount', ok_bind, hcount32]
  by_cases hmany : 512 < announced input
  · have hcheck : announced input % 2 ^ 32 = 0 ∨ announced input % 2 ^ 32 > 512 := by omega
    rw [if_pos hmany, if_pos hcheck, throw_eq_error, error_bind]
  · have hcheck : ¬ (announced input % 2 ^ 32 = 0 ∨ announced input % 2 ^ 32 > 512) := by omega
    have hmod : announced input % 2 ^ 32 = announced input := Nat.mod_eq_of_lt (by omega)
    rw [if_neg hmany, if_neg hcheck, hslice', ok_bind, hfirst', ok_bind, hmod, pure_eq_ok]

/-! ### Adding up the lengths -/

section Lengths

variable {T : SegmentTable}

/-- The builder has these lengths, within the limit, and their total is known. -/
structure Recorded (state : T.Builder × Nat) (counts : List Nat) : Prop where
  lengths_eq : T.lengths state.1 = counts
  total_eq : state.2 = counts.sum
  bounded : counts.sum ≤ maximumTotalWords

theorem recorded_nil (T : SegmentTable) (capacity : Nat) :
    Recorded (T := T) (T.withCapacity capacity, 0) [] :=
  ⟨T.lengths_withCapacity capacity, rfl, Nat.zero_le _⟩

theorem saturatingAdd_eq {a b : Nat} (h : a + b < 2 ^ 64) : saturatingAdd a b = a + b :=
  Nat.min_eq_left (by omega)

theorem addSegment_ok {state : T.Builder × Nat} {counts : List Nat} {count : Nat}
    (h : Recorded state counts) (hsum : counts.sum + count ≤ maximumTotalWords) :
    ∃ state', addSegment T state count = .ok state' ∧ Recorded state' (counts ++ [count]) := by
  have hlimit : maximumTotalWords < 2 ^ 60 := by decide
  have hpush : 8 * ((T.lengths state.1).sum + count) < 2 ^ 64 := by
    rw [h.lengths_eq]
    omega
  obtain ⟨builder, hbuilder, hlengths⟩ := T.tryPushSegment_ok state.1 count hpush
  have htotal : saturatingAdd state.2 count = counts.sum + count := by
    rw [h.total_eq]
    exact saturatingAdd_eq (by omega)
  have hsum' : (counts ++ [count]).sum = counts.sum + count := by
    rw [List.sum_append, List.sum_singleton]
  refine ⟨(builder, counts.sum + count), ?_, ?_, hsum'.symm, hsum' ▸ hsum⟩
  · rw [addSegment, htotal, if_neg (Nat.not_lt.mpr hsum), pushSegment, hbuilder, ok_bind, pure_eq_ok]
  · rw [hlengths, h.lengths_eq]

theorem addSegment_tooLarge {state : T.Builder × Nat} {counts : List Nat} {count : Nat}
    (h : Recorded state counts) (hcount : count < 256 ^ 4)
    (hsum : maximumTotalWords < counts.sum + count) :
    addSegment T state count = .error (tooLarge (counts.sum + count)) := by
  have hlimit : maximumTotalWords < 2 ^ 60 := by decide
  have hbounded := h.bounded
  have htotal : saturatingAdd state.2 count = counts.sum + count := by
    rw [h.total_eq]
    exact saturatingAdd_eq (by omega)
  rw [addSegment, htotal, if_pos hsum, throw_eq_error, error_bind]

theorem foldlM_addSegment_ok {state : T.Builder × Nat} {counts more : List Nat}
    (h : Recorded state counts) (hsum : counts.sum + more.sum ≤ maximumTotalWords) :
    ∃ state', more.foldlM (addSegment T) state = .ok state' ∧ Recorded state' (counts ++ more) := by
  induction more generalizing state counts with
  | nil =>
      rw [List.append_nil]
      exact ⟨state, rfl, h⟩
  | cons count more ih =>
      rw [List.sum_cons, ← Nat.add_assoc] at hsum
      obtain ⟨state', hstep, h'⟩ := addSegment_ok h (Nat.le_of_add_right_le hsum)
      have hsum' : (counts ++ [count]).sum + more.sum ≤ maximumTotalWords := by
        rwa [List.sum_append, List.sum_singleton]
      obtain ⟨last, hlast, hrecorded⟩ := ih h' hsum'
      rw [List.append_assoc, List.singleton_append] at hrecorded
      refine ⟨last, ?_, hrecorded⟩
      rw [List.foldlM_cons, hstep, ok_bind, hlast]

theorem foldlM_addSegment_tooLarge {state : T.Builder × Nat} {counts more : List Nat}
    (h : Recorded state counts) (hmore : ∀ count ∈ more, count < 256 ^ 4)
    (hsum : maximumTotalWords < counts.sum + more.sum) :
    ∃ total, more.foldlM (addSegment T) state = .error (tooLarge total) := by
  induction more generalizing state counts with
  | nil => exact absurd hsum (Nat.not_lt.mpr h.bounded)
  | cons count more ih =>
      rw [List.sum_cons, ← Nat.add_assoc] at hsum
      rw [List.foldlM_cons]
      rcases Nat.lt_or_ge maximumTotalWords (counts.sum + count) with hlarge | hsmall
      · refine ⟨counts.sum + count, ?_⟩
        rw [addSegment_tooLarge h (hmore count List.mem_cons_self) hlarge, error_bind]
      · obtain ⟨state', hstep, h'⟩ := addSegment_ok h hsmall
        rw [hstep, ok_bind]
        refine ih h' (fun c hc => hmore c (List.mem_cons_of_mem _ hc)) ?_
        rwa [List.sum_append, List.sum_singleton]

/-- The slicing of the loop body is in bounds. -/
theorem addSegmentAt_eq (state : T.Builder × Nat) {sizes : List UInt8} {index : Nat}
    (h : 4 * index + 4 ≤ sizes.length) (hindex : index < 2 ^ 32) :
    addSegmentAt T sizes state (index + 1) = addSegment T state (word 4 sizes index) := by
  obtain ⟨part, hslice, hpart⟩ := slice_leU32 h
  have hoffset : checked (((index + 1 : Nat) - 1 : Int) * 4) = .ok (4 * index) := by
    have heq : ((index + 1 : Nat) - 1 : Int) * 4 = (4 * index : Nat) := by omega
    rw [heq]
    exact checked_natCast (by omega)
  have hstop : checked ((4 * index : Nat) + 4 : Int) = .ok (4 * index + 4) :=
    checked_natCast (n := 4 * index + 4) (by omega)
  rw [addSegmentAt, hoffset, ok_bind, hstop, ok_bind, hslice, ok_bind, hpart, ok_bind]

theorem foldlM_congr {ε α β : Type} {f g : β → α → Except ε β} {xs : List α}
    (h : ∀ b, ∀ x ∈ xs, f b x = g b x) (init : β) : xs.foldlM f init = xs.foldlM g init := by
  induction xs generalizing init with
  | nil => rfl
  | cons x xs ih =>
      have hrest : ∀ b, ∀ y ∈ xs, f b y = g b y := fun b y hy => h b y (List.mem_cons_of_mem _ hy)
      rw [List.foldlM_cons, List.foldlM_cons, h init x List.mem_cons_self]
      exact congrArg _ (funext fun b => ih hrest b)

/-- The loop over the rest of the table adds up the rest of the counts. -/
theorem foldlM_addSegmentAt (state : T.Builder × Nat) {sizes : List UInt8} {count : Nat}
    (h : 4 * count ≤ sizes.length) (hcount : count < 2 ^ 32) :
    (List.range' 1 count).foldlM (addSegmentAt T sizes) state =
      ((List.range count).map (word 4 sizes)).foldlM (addSegment T) state := by
  rw [List.range'_eq_map_range, List.foldlM_map, List.foldlM_map]
  refine foldlM_congr (fun b i hi => ?_) state
  have hlt : i < count := List.mem_range.mp hi
  rw [Nat.add_comm 1 i]
  exact addSegmentAt_eq b (by omega) (by omega)

end Lengths

/-! ## What `readMessage` reads -/

section ReadMessage

variable {T : SegmentTable} {input : List UInt8}

theorem restOfHeader_eq {count : Nat} (hpos : 0 < count) (h : count ≤ 512) :
    restOfHeader count = .ok (tableSize count - 8) := by
  have hrounded : 4 + 4 * count + 7 - (4 + 4 * count + 7) % 8 = tableSize count := by
    rw [tableSize]
    omega
  have hsize := eight_le_tableSize hpos
  have hbound : tableSize count < 2 ^ 64 := by
    rw [tableSize]
    omega
  have hunaligned : checked (4 + 4 * (count : Int) + 7) = .ok (4 + 4 * count + 7) :=
    checked_natCast (n := 4 + 4 * count + 7) (by omega)
  have hrest : (tableSize count : Int) - 8 = (tableSize count - 8 : Nat) := by omega
  rw [restOfHeader, hunaligned, ok_bind, hrounded, hrest]
  exact checked_natCast (by omega)

/-- The bytes after the first eight of the table. -/
def restOfTable (input : List UInt8) : List UInt8 :=
  (input.drop 8).take (tableSize (announced input) - 8)

theorem foldlM_restOfTable (state : T.Builder × Nat) (hcount : announced input ≤ 512)
    (htable : tableSize (announced input) ≤ input.length) :
    (List.range' 1 (announced input - 1)).foldlM (addSegmentAt T (restOfTable input)) state =
      (announcedCounts input).tail.foldlM (addSegment T) state := by
  have hpos : 0 < announced input := announced_pos
  have hsize := le_tableSize (announced input)
  have hlength : (restOfTable input).length = tableSize (announced input) - 8 := by
    rw [restOfTable, List.length_take, List.length_drop]
    omega
  rw [foldlM_addSegmentAt state (by omega) (by omega), announcedCounts_eq_cons, List.tail_cons]
  congr 1
  refine List.map_congr_left fun i hi => ?_
  have hlt : i < announced input - 1 := List.mem_range.mp hi
  rw [restOfTable, word_take (by omega), word_drop 4 2 input i, Nat.add_comm]

/-- The lengths after the first are read as one piece, and then added up. -/
theorem reads_readLengths (state : T.Builder × Nat) (hcount : announced input ≤ 512)
    (htable : tableSize (announced input) ≤ input.length) :
    Reads (readLengths (E := E) T (announced input) state).run (input.drop 8)
      ((announcedCounts input).tail.foldlM (addSegment T) state)
      (input.drop (tableSize (announced input))) := by
  have hpos : 0 < announced input := announced_pos
  have hsize := eight_le_tableSize hpos
  rw [readLengths]
  split
  case isTrue _ =>
    have hroom : tableSize (announced input) - 8 ≤ (input.drop 8).length := by
      rw [List.length_drop]
      omega
    have hread := reads_readExact (E := E) hroom
    rw [List.drop_drop, Nat.add_sub_cancel' hsize] at hread
    refine Io.reads_bind (Io.reads_lift (restOfHeader_eq hpos hcount) _) ?_
    exact Io.reads_bind hread (Io.reads_lift (foldlM_restOfTable state hcount htable) _)
  case isFalse hone =>
    have hannounced : announced input = 1 := by omega
    rw [announcedCounts_eq_cons, hannounced]
    exact .done _ _

theorem reads_readLengths_eof (state : T.Builder × Nat) (hcount : announced input ≤ 512)
    (hfirst : 8 ≤ input.length) (htable : input.length < tableSize (announced input)) :
    Reads (readLengths (E := E) T (announced input) state).run (input.drop 8) (.error .eof) [] := by
  have hpos : 0 < announced input := announced_pos
  have hmany : announced input > 1 := by
    rw [tableSize] at htable
    omega
  have hroom : (input.drop 8).length < tableSize (announced input) - 8 := by
    rw [List.length_drop]
    omega
  have hread := reads_readExact_eof (E := E) hroom
  rw [readLengths, if_pos hmany]
  exact Io.reads_bind (Io.reads_lift (restOfHeader_eq hpos hcount) _) (Io.reads_bind_error hread)

theorem addSegment_first (hfirst : word 4 input 1 ≤ maximumTotalWords) :
    ∃ state, addSegment T (T.withCapacity (announced input), 0) (word 4 input 1) = .ok state ∧
      Recorded state [word 4 input 1] := by
  refine addSegment_ok (recorded_nil T (announced input)) ?_
  rwa [List.sum_nil, Nat.zero_add]

theorem reads_readMessage_of_badTable (h : BadTable input) :
    ∃ message consumed, consumed ≤ tableSize (announced input) ∧
      Reads (readMessage (E := E) T).run input (.error (.protocol message))
        (input.drop consumed) := by
  obtain ⟨hlength, h⟩ := h
  have hsize : 8 ≤ tableSize (announced input) := eight_le_tableSize announced_pos
  by_cases hmany : 512 < announced input
  · have hheader := (readHeader_eq hlength).trans (if_pos hmany)
    exact ⟨_, 8, hsize, Io.reads_bind (reads_readExact hlength)
      (Io.reads_bind_error (Io.reads_lift hheader _))⟩
  have hcount : announced input ≤ 512 := Nat.not_lt.mp hmany
  have hheader := (readHeader_eq hlength).trans (if_neg hmany)
  by_cases hlarge : maximumTotalWords < word 4 input 1
  · have hfirst := addSegment_tooLarge (recorded_nil T (announced input)) (word_lt 4 input 1)
      (by rwa [List.sum_nil, Nat.zero_add])
    exact ⟨_, 8, hsize, Io.reads_bind (reads_readExact hlength)
      (Io.reads_bind (Io.reads_lift hheader _) (Io.reads_bind_error (Io.reads_lift hfirst _)))⟩
  -- the rest of the table is there, and adds up to too much
  obtain ⟨htable, hsum⟩ := (h.resolve_left hmany).resolve_left hlarge
  obtain ⟨state, hstate, hrecorded⟩ := addSegment_first (T := T) (Nat.not_lt.mp hlarge)
  have hread := reads_readLengths (E := E) state hcount htable
  rw [← first_append_tail, List.sum_append] at hsum
  obtain ⟨total, hrest⟩ := foldlM_addSegment_tooLarge hrecorded
    (fun count hcount => announcedCounts_lt (List.mem_of_mem_tail hcount)) hsum
  rw [hrest] at hread
  exact ⟨_, tableSize (announced input), Nat.le_refl _, Io.reads_bind (reads_readExact hlength)
    (Io.reads_bind (Io.reads_lift hheader _)
      (Io.reads_bind (Io.reads_lift hstate _) (Io.reads_bind_error hread)))⟩

/-- With a good table, `readMessage` comes to read what it announces. -/
theorem reads_readMessage_of_table (hlength : 8 ≤ input.length) (hcount : announced input ≤ 512)
    (hsum : (announcedCounts input).sum ≤ maximumTotalWords)
    (htable : tableSize (announced input) ≤ input.length) :
    ∃ builder, T.lengths builder = announcedCounts input ∧
      ∀ bytes rest, Reads (readExact (E := E) (8 * (announcedCounts input).sum)).run
          (input.drop (tableSize (announced input))) bytes rest →
        Reads (readMessage (E := E) T).run input
          (bytes.map (T.fill (T.intoOwnedSegments builder))) rest := by
  have hheader := (readHeader_eq hlength).trans (if_neg (Nat.not_lt.mpr hcount))
  obtain ⟨state, hstate, hrecorded⟩ :=
    addSegment_first (T := T) (Nat.le_trans first_le_sum hsum)
  have hread := reads_readLengths (E := E) state hcount htable
  rw [← first_append_tail, List.sum_append] at hsum
  obtain ⟨state', hrest, hrecorded'⟩ := foldlM_addSegment_ok hrecorded hsum
  rw [first_append_tail] at hrecorded'
  rw [hrest] at hread
  refine ⟨state'.1, hrecorded'.lengths_eq, fun bytes rest hbytes => ?_⟩
  refine Io.reads_bind (reads_readExact hlength) ?_
  refine Io.reads_bind (Io.reads_lift hheader _) ?_
  refine Io.reads_bind (Io.reads_lift hstate _) ?_
  refine Io.reads_bind hread ?_
  have hsize : T.length (T.intoOwnedSegments state'.1) = 8 * (announcedCounts input).sum := by
    rw [T.length_intoOwnedSegments, hrecorded'.lengths_eq]
  rw [← hsize] at hbytes
  cases bytes with
  | error e => exact Io.reads_bind_error hbytes
  | ok bytes => exact Io.reads_bind hbytes (.done _ rest)

theorem reads_readMessage_of_endsInside (h : EndsInside input) :
    Reads (readMessage (E := E) T).run input (.error .eof) [] := by
  rcases h with hshort | ⟨hcount, hfirst, h⟩
  · exact Io.reads_bind_error (reads_readExact_eof hshort)
  by_cases hlength : 8 ≤ input.length
  case neg => exact Io.reads_bind_error (reads_readExact_eof (Nat.not_le.mp hlength))
  by_cases htable : tableSize (announced input) ≤ input.length
  case neg =>
    have hheader := (readHeader_eq hlength).trans (if_neg (Nat.not_lt.mpr hcount))
    obtain ⟨state, hstate, _⟩ := addSegment_first (T := T) hfirst
    refine Io.reads_bind (reads_readExact hlength) ?_
    refine Io.reads_bind (Io.reads_lift hheader _) ?_
    refine Io.reads_bind (Io.reads_lift hstate _) ?_
    exact Io.reads_bind_error (reads_readLengths_eof state hcount hlength (Nat.not_le.mp htable))
  obtain ⟨hsum, hend⟩ := h.resolve_left (Nat.not_lt.mpr htable)
  obtain ⟨builder, _, hread⟩ :=
    reads_readMessage_of_table (E := E) (T := T) hlength hcount hsum htable
  refine hread (.error .eof) [] (reads_readExact_eof ?_)
  rw [List.length_drop]
  omega

theorem reads_readMessage_of_isComplete (h : IsComplete input) :
    ∃ builder, T.lengths builder = announcedCounts input ∧
      Reads (readMessage (E := E) T).run input
        (.ok (T.fill (T.intoOwnedSegments builder)
          ((input.drop (tableSize (announced input))).take (8 * (announcedCounts input).sum))))
        (input.drop (tableSize (announced input) + 8 * (announcedCounts input).sum)) := by
  obtain ⟨hcount, hsum, hlength⟩ := h
  have hsize : 8 ≤ tableSize (announced input) := eight_le_tableSize announced_pos
  obtain ⟨builder, hbuilder, hread⟩ :=
    @reads_readMessage_of_table E T input (by omega) hcount hsum (by omega)
  refine ⟨builder, hbuilder, ?_⟩
  rw [← List.drop_drop]
  refine hread (.ok _) _ (reads_readExact ?_)
  rw [List.length_drop]
  omega

/-- The segments of a frame, whatever comes after it. -/
theorem receives_readMessage (T : SegmentTable) (frame : Frame) :
    ∃ owned, T.segments owned = frame.segments ∧
      Receives (readMessage (E := E) T).run frame.bytes (.done (.ok owned)) := by
  -- any rest will do
  let rest : List UInt8 := [0]
  have hrest : rest ≠ [] := List.cons_ne_nil 0 []
  obtain ⟨hcount, hcounts⟩ := announced_frame frame rest
  obtain ⟨builder, hbuilder, hread⟩ :=
    reads_readMessage_of_isComplete (E := E) (T := T) (isComplete_frame frame rest)
  have hdata : ((frame.bytes ++ rest).drop (tableSize frame.segments.length)).take
      (8 * frame.counts.sum) = frame.segments.flatten := by
    rw [Frame.bytes, List.append_assoc, List.drop_left' frame.length_table]
    exact List.take_left' frame.length_flatten
  rw [hcount, hcounts, hdata, List.drop_left' frame.length_bytes] at hread
  rw [hcounts] at hbuilder
  refine ⟨_, T.segments_fill builder frame.segments ?_, hread.receives hrest⟩
  rw [hbuilder]
  exact frame.lengths_eq

/-- No frame is empty. -/
theorem Frame.bytes_ne_nil (frame : Frame) : frame.bytes ≠ [] := by
  have hsize := eight_le_tableSize frame.length_segments_pos
  rw [← List.length_pos_iff, frame.length_bytes]
  omega

/-- A frame is known by its bytes. -/
theorem Frame.segments_eq {frame frame' : Frame} (h : frame.bytes = frame'.bytes) :
    frame.segments = frame'.segments := by
  -- any reader will do
  let silent : Signature := ⟨Empty, fun _ => Unit⟩
  obtain ⟨owned, hsegments, hread⟩ := receives_readMessage (E := silent) .ofLists frame
  obtain ⟨owned', hsegments', hread'⟩ := receives_readMessage (E := silent) .ofLists frame'
  rw [h] at hread
  cases hread.unique hread'
  exact hsegments.symm.trans hsegments'

theorem coherent_readExact (room : Nat) : Coherent (readExact (E := E) room).run :=
  coherent_readExactFrom [] room

theorem coherent_readLengths (T : SegmentTable) (count : Nat) (state : T.Builder × Nat) :
    Coherent (readLengths (E := E) T count state).run := by
  rw [readLengths]
  split
  case isTrue _ =>
    refine Io.coherent_bind (Io.coherent_lift _) fun size => ?_
    exact Io.coherent_bind (coherent_readExact size) fun sizes => Io.coherent_lift _
  case isFalse _ => exact Io.coherent_pure state

theorem coherent_readMessage (T : SegmentTable) : Coherent (readMessage (E := E) T).run := by
  rw [readMessage]
  refine Io.coherent_bind (coherent_readExact 8) fun header => ?_
  refine Io.coherent_bind (Io.coherent_lift _) fun first => ?_
  refine Io.coherent_bind (Io.coherent_lift _) fun state => ?_
  refine Io.coherent_bind (coherent_readLengths T first.1 state) fun last => ?_
  exact Io.coherent_bind (coherent_readExact _) fun bytes => Io.coherent_pure _

end ReadMessage

/-! ## Messages back to back -/

/-- `write_raw` for one message after the other. -/
def writeMessages : List (List UInt8) → Io E Unit
  | [] => pure ()
  | bytes :: more => do
      writeRaw bytes
      writeMessages more

def readMessages (T : SegmentTable) : Nat → Io E (List T.OwnedSegments)
  | 0 => pure []
  | n + 1 => do
      let message ← readMessage T
      let more ← readMessages T n
      return message :: more

theorem coherent_writeMessages (messages : List (List UInt8)) :
    Coherent (writeMessages (E := E) messages).run := by
  induction messages with
  | nil => exact coherent_done _
  | cons bytes more ih => exact Io.coherent_bind (coherent_writeAll bytes) fun _ => ih

theorem sends_writeMessages (messages : List (List UInt8)) :
    Sends (writeMessages (E := E) messages).run messages.flatten (.done (.ok ())) := by
  induction messages with
  | nil => exact .nil _
  | cons bytes more ih =>
      rw [List.flatten_cons]
      exact ((sends_writeAll bytes).bind _).append ih

theorem coherent_readMessages (T : SegmentTable) (n : Nat) :
    Coherent (readMessages (E := E) T n).run := by
  induction n with
  | zero => exact coherent_done _
  | succ n ih =>
      refine Io.coherent_bind (coherent_readMessage T) fun message => ?_
      exact Io.coherent_bind ih fun more => coherent_done _

theorem reads_readMessages (T : SegmentTable) (frames : List Frame) (rest : List UInt8) :
    ∃ owned, owned.map T.segments = frames.map Frame.segments ∧
      Reads (readMessages (E := E) T frames.length).run
        ((frames.map Frame.bytes).flatten ++ rest) (.ok owned) rest := by
  induction frames with
  | nil => exact ⟨[], rfl, .done _ rest⟩
  | cons frame frames ih =>
      obtain ⟨message, hmessage, hfirst⟩ := receives_readMessage (E := E) T frame
      obtain ⟨owned, howned, hmore⟩ := ih
      refine ⟨message :: owned, ?_, ?_⟩
      · rw [List.map_cons, List.map_cons, hmessage, howned]
      · rw [List.map_cons, List.flatten_cons, List.append_assoc]
        exact Io.reads_bind (.complete hfirst _) (Io.reads_bind hmore (.done _ rest))

/-! ## The main result -/

/-- What reading a message is to come to: the result, and what is left of the input. -/
structure ReadsFrame (T : SegmentTable) (input : List UInt8)
    (result : Except RpcError T.OwnedSegments) (rest : List UInt8) : Prop where
  ok_iff : (∃ owned, result = .ok owned) ↔
    ∃ (frame : Frame) (more : List UInt8), input = frame.bytes ++ more
  -- the segments of the frame, and what comes after it
  ok_frame : ∀ (frame : Frame) (more : List UInt8), input = frame.bytes ++ more →
    rest = more ∧ ∃ owned, result = .ok owned ∧ T.segments owned = frame.segments ∧
      input.length = 8 * ((4 + 4 * frame.segments.length + 7) / 8) + 8 * frame.counts.sum + rest.length
  protocol_iff : (∃ message, result = .error (.protocol message)) ↔ BadTable input
  -- nothing is taken beyond the segment table
  protocol_rest : BadTable input →
    ∃ consumed, consumed ≤ tableSize (announced input) ∧ rest = input.drop consumed
  eof_iff : result = .error .eof ↔ EndsInside input
  eof_prefix : ∀ (frame : Frame) (more : List UInt8), more ≠ [] → input ++ more = frame.bytes →
    result = .error .eof
  no_panic : ∀ message, result ≠ .error (.panicked message)

/-- The three verdicts exclude one another. -/
theorem not_badTable_of_isComplete {input : List UInt8} (h : IsComplete input) :
    ¬ BadTable input ∧ ¬ EndsInside input := by
  have hfirst : word 4 input 1 ≤ (announcedCounts input).sum := first_le_sum
  have hsize : 8 ≤ tableSize (announced input) := eight_le_tableSize announced_pos
  rw [IsComplete] at h
  rw [BadTable, EndsInside]
  omega

theorem not_badTable_of_endsInside {input : List UInt8} (h : EndsInside input) :
    ¬ BadTable input := by
  rw [EndsInside] at h
  rw [BadTable]
  omega

/-- What is there of the table does not change with what comes. -/
theorem announced_append {input : List UInt8} (h : 8 ≤ input.length) (more : List UInt8) :
    announced (input ++ more) = announced input ∧ word 4 (input ++ more) 1 = word 4 input 1 := by
  refine ⟨?_, word_append (by omega) more⟩
  rw [announced, announced, word_append (by omega)]

theorem announcedCounts_append {input : List UInt8}
    (h : tableSize (announced input) ≤ input.length) (more : List UInt8) :
    announcedCounts (input ++ more) = announcedCounts input := by
  have hsize := le_tableSize (announced input)
  have height : 8 ≤ tableSize (announced input) := eight_le_tableSize announced_pos
  have hcount := (announced_append (Nat.le_trans height h) more).1
  rw [announcedCounts, announcedCounts, hcount]
  refine List.map_congr_left fun i hi => word_append ?_ more
  have hlt : i < announced input := List.mem_range.mp hi
  omega

/-- A frame cut short ends inside. -/
theorem endsInside_of_append {input more : List UInt8} {frame : Frame} (hmore : more ≠ [])
    (hinput : input ++ more = frame.bytes) : EndsInside input := by
  have hlength : input.length < frame.bytes.length := by
    rw [← hinput, List.length_append]
    exact Nat.lt_add_of_pos_right (List.length_pos_iff.mpr hmore)
  obtain ⟨hframe, hframe'⟩ := announced_frame frame []
  have hcount := frame.length_segments_le
  have hsum : frame.counts.sum ≤ maximumTotalWords := frame.bounded
  have hfirst : word 4 (input ++ more) 1 ≤ (announcedCounts (input ++ more)).sum := first_le_sum
  rw [List.append_nil, ← hinput] at hframe hframe'
  rw [frame.length_bytes, ← hframe, ← hframe'] at hlength
  rw [← hframe] at hcount
  rw [← hframe'] at hsum
  by_cases height : 8 ≤ input.length
  case neg => exact Or.inl (Nat.not_le.mp height)
  obtain ⟨hsame, hsame'⟩ := announced_append height more
  rw [hsame] at hcount hlength
  rw [hsame'] at hfirst
  refine Or.inr ⟨hcount, Nat.le_trans hfirst hsum, ?_⟩
  by_cases htable : tableSize (announced input) ≤ input.length
  case neg => exact Or.inl (Nat.not_le.mp htable)
  rw [announcedCounts_append htable] at hsum hlength
  exact Or.inr ⟨hsum, hlength⟩

theorem isComplete_iff {input : List UInt8} :
    IsComplete input ↔ ∃ (frame : Frame) (more : List UInt8), input = frame.bytes ++ more := by
  constructor
  · exact IsComplete.exists_frame
  · rintro ⟨frame, more, rfl⟩
    exact isComplete_frame frame more

theorem readsFrame_of_badTable {T : SegmentTable} {input : List UInt8} {message : String}
    {consumed : Nat} (h : BadTable input) (hconsumed : consumed ≤ tableSize (announced input)) :
    ReadsFrame T input (.error (.protocol message)) (input.drop consumed) where
  ok_iff := by
    rw [← isComplete_iff]
    exact ⟨nofun, fun hcomplete => absurd h (not_badTable_of_isComplete hcomplete).1⟩
  ok_frame frame more hinput :=
    absurd h (not_badTable_of_isComplete (isComplete_iff.mpr ⟨frame, more, hinput⟩)).1
  protocol_iff := ⟨fun _ => h, fun _ => ⟨message, rfl⟩⟩
  protocol_rest _ := ⟨consumed, hconsumed, rfl⟩
  eof_iff := ⟨nofun, fun hend => absurd h (not_badTable_of_endsInside hend)⟩
  eof_prefix frame more hmore hinput := by
    have hend := endsInside_of_append hmore hinput
    exact absurd h (not_badTable_of_endsInside hend)
  no_panic := nofun

theorem readsFrame_of_endsInside {T : SegmentTable} {input : List UInt8} (h : EndsInside input) :
    ReadsFrame T input (.error .eof) [] where
  ok_iff := by
    rw [← isComplete_iff]
    exact ⟨nofun, fun hcomplete => absurd h (not_badTable_of_isComplete hcomplete).2⟩
  ok_frame frame more hinput :=
    absurd h (not_badTable_of_isComplete (isComplete_iff.mpr ⟨frame, more, hinput⟩)).2
  protocol_iff := ⟨nofun, fun hbad => absurd hbad (not_badTable_of_endsInside h)⟩
  protocol_rest hbad := absurd hbad (not_badTable_of_endsInside h)
  eof_iff := ⟨fun _ => h, fun _ => rfl⟩
  eof_prefix _ _ _ _ := rfl
  no_panic := nofun

theorem readsFrame_of_isComplete {T : SegmentTable} {frame : Frame} {more : List UInt8}
    {owned : T.OwnedSegments} (howned : T.segments owned = frame.segments) :
    ReadsFrame T (frame.bytes ++ more) (.ok owned) more where
  ok_iff := ⟨fun _ => ⟨frame, more, rfl⟩, fun _ => ⟨owned, rfl⟩⟩
  ok_frame frame' more' hinput := by
    obtain ⟨hcount, hcounts⟩ := announced_frame frame more
    obtain ⟨hcount', hcounts'⟩ := announced_frame frame' more'
    rw [hinput] at hcount hcounts
    have hsize : frame.bytes.length = frame'.bytes.length := by
      rw [Frame.length_bytes, Frame.length_bytes, ← hcount, ← hcounts, hcount', hcounts']
    obtain ⟨hbytes, rfl⟩ := List.append_inj hinput hsize
    have htable : frame.table.length = frame'.table.length := by
      rw [Frame.length_table, Frame.length_table, ← hcount, hcount']
    have hflatten := (List.append_inj hbytes htable).2
    have hlengths : frame.segments.map List.length = frame'.segments.map List.length := by
      rw [Frame.lengths_eq, Frame.lengths_eq, ← hcounts, hcounts']
    have hsegments : frame.segments = frame'.segments :=
      List.eq_iff_flatten_eq.mpr ⟨hflatten, hlengths⟩
    refine ⟨rfl, owned, rfl, howned.trans hsegments, ?_⟩
    rw [List.length_append, hsize, Frame.length_bytes, tableSize]
  protocol_iff := ⟨nofun, fun hbad => absurd hbad (not_badTable_of_isComplete (isComplete_frame ..)).1⟩
  protocol_rest hbad := absurd hbad (not_badTable_of_isComplete (isComplete_frame ..)).1
  eof_iff := ⟨nofun, fun hend => absurd hend (not_badTable_of_isComplete (isComplete_frame ..)).2⟩
  eof_prefix frame' more' hmore hinput := by
    have hend := endsInside_of_append hmore hinput
    exact absurd hend (not_badTable_of_isComplete (isComplete_frame ..)).2
  no_panic := nofun

/-- **Framing.** However the input is cut, `readMessage` reads the frame the input starts with or
says why there is none; and whatever the writes take at a time, messages come back as they were
written. -/
theorem readMessage_framing (T : SegmentTable) (effects : (op : E.Op) → E.Reply op) :
    (∀ pipe : Pipe UInt8,
      ReadsFrame T pipe.input (runOn effects (readMessage T).run pipe).1
        (runOn effects (readMessage T).run pipe).2.input) ∧
    ∀ (frames : List Frame) (writer : Pipe UInt8), ∃ sent,
      (runOn effects (writeMessages (frames.map Frame.bytes)).run writer).1 = .ok () ∧
      (runOn effects (writeMessages (frames.map Frame.bytes)).run writer).2.output =
        writer.output ++ sent ∧
      ∀ (reader : Pipe UInt8) (rest : List UInt8), reader.input = sent ++ rest →
        (runOn effects (readMessages T frames.length).run reader).2.input = rest ∧
        ∃ owned, (runOn effects (readMessages T frames.length).run reader).1 = .ok owned ∧
          owned.map T.segments = frames.map Frame.segments := by
  constructor
  · intro pipe
    have hcoherent := coherent_readMessage (E := E) T
    rcases badTable_or_endsInside_or_isComplete pipe.input with hbad | hend | hcomplete
    · obtain ⟨message, consumed, hconsumed, hread⟩ :=
        reads_readMessage_of_badTable (E := E) (T := T) hbad
      obtain ⟨polls, hrun⟩ := @Reads.runOn _ _ _ _ effects _ _ _ _ hread pipe hcoherent rfl
      rw [hrun]
      exact readsFrame_of_badTable hbad hconsumed
    · have hread := reads_readMessage_of_endsInside (E := E) (T := T) hend
      obtain ⟨polls, hrun⟩ := @Reads.runOn _ _ _ _ effects _ _ _ _ hread pipe hcoherent rfl
      rw [hrun]
      exact readsFrame_of_endsInside hend
    · obtain ⟨frame, more, hinput⟩ := hcomplete.exists_frame
      obtain ⟨owned, howned, hreceives⟩ := receives_readMessage (E := E) T frame
      obtain ⟨polls, hrun⟩ := @Reads.runOn _ _ _ _ effects _ _ _ _ (.complete hreceives more) pipe
        hcoherent hinput
      rw [hrun, hinput]
      exact readsFrame_of_isComplete howned
  · intro frames writer
    refine ⟨(frames.map Frame.bytes).flatten, ?_⟩
    have hsends := sends_writeMessages (E := E) (frames.map Frame.bytes)
    obtain ⟨polls, hwrite⟩ := @Sends.runOn _ _ _ _ effects _ _ _ hsends (coherent_writeMessages _)
      writer
    rw [hwrite]
    refine ⟨rfl, rfl, fun reader rest hinput => ?_⟩
    obtain ⟨owned, howned, hreads⟩ := reads_readMessages (E := E) T frames rest
    obtain ⟨polls', hread⟩ := @Reads.runOn _ _ _ _ effects _ _ _ _ hreads reader
      (coherent_readMessages T _) hinput
    rw [hread]
    exact ⟨rfl, owned, rfl, howned⟩

/-! ## A frame of one word -/

def oneWord : Frame := .single [1, 2, 3, 4, 5, 6, 7, 8] (by decide) (by decide)

/-- Nothing else is asked of the system. -/
def alone : Signature := ⟨Empty, fun _ => Unit⟩

/-- The frame and a byte that is not its own, to be had a byte at a time. -/
def trickle : Pipe UInt8 := ⟨oneWord.bytes ++ [9], [], fun _ => 1, 0⟩

/-- The frame is read from its bytes and the other one is left; written twice, it is read twice. -/
theorem readMessage_oneWord :
    (∃ owned, (runOn (E := alone) nofun (readMessage .ofLists).run trickle).1 = .ok owned ∧
      SegmentTable.ofLists.segments owned = [[1, 2, 3, 4, 5, 6, 7, 8]] ∧
      (runOn (E := alone) nofun (readMessage .ofLists).run trickle).2.input = [9]) ∧
    ∃ sent, (runOn (E := alone) nofun (writeMessages [oneWord.bytes, oneWord.bytes]).run
        trickle).2.output = sent ∧
      ∃ owned, (runOn (E := alone) nofun (readMessages .ofLists 2).run
          ⟨sent ++ [9], [], fun _ => 1, 0⟩).1 = .ok owned ∧
        owned.map SegmentTable.ofLists.segments = [oneWord.segments, oneWord.segments] := by
  obtain ⟨hreads, hwrites⟩ := readMessage_framing (E := alone) .ofLists nofun
  constructor
  · obtain ⟨hrest, owned, hread, hsegments, _⟩ := (hreads trickle).ok_frame oneWord [9] rfl
    exact ⟨owned, hread, hsegments, hrest⟩
  · obtain ⟨sent, _, hsent, hback⟩ := hwrites [oneWord, oneWord] trickle
    exact ⟨sent, hsent, (hback ⟨sent ++ [9], [], fun _ => 1, 0⟩ [9] rfl).2⟩

end Libcfd.Rpc

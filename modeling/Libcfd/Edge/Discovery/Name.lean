import Libcfd.Edge.Discovery.Returns
import Libcfd.Edge.Discovery.Utf8

/-!
# Names on the wire

A name is labels, each behind its length, up to an end: the root, or a pointer to where the name goes
on. `skip_name` passes over the labels and the end; `decode_name` spells out the labels, those behind
pointers as well, with dots between them.
-/

namespace Libcfd.Edge.Discovery

open Libcfd.Loop Libcfd.Origin Libcfd.Rpc

/-! ## Bytes at a position -/

/-- `piece` is what there is in `bytes` from `p` on. -/
def Stands (bytes : List UInt8) (p : Nat) (piece : List UInt8) : Prop :=
  piece <+: bytes.drop p

section Stands

variable {bytes piece piece' : List UInt8} {p : Nat} {b : UInt8}

theorem stands_append_append (front piece back : List UInt8) :
    Stands (front ++ piece ++ back) front.length piece := by
  rw [Stands, List.append_assoc, List.drop_left]
  exact List.prefix_append piece back

theorem Stands.left (h : Stands bytes p (piece ++ piece')) : Stands bytes p piece :=
  (List.prefix_append piece piece').trans h

theorem Stands.right (h : Stands bytes p (piece ++ piece')) :
    Stands bytes (p + piece.length) piece' := by
  obtain ⟨rest, hrest⟩ := h
  refine ⟨rest, ?_⟩
  rw [← List.drop_drop, ← hrest, List.append_assoc, List.drop_left]

theorem Stands.length_le (h : Stands bytes p piece) (hne : piece ≠ []) :
    p + piece.length ≤ bytes.length := by
  have hle := List.IsPrefix.length_le h
  have hpos := List.length_pos_of_ne_nil hne
  rw [List.length_drop] at hle
  omega

theorem Stands.getD (h : Stands bytes p (b :: piece)) : bytes.getD p 0 = b := by
  obtain ⟨rest, hrest⟩ := h
  have hhead := congrArg (·.getD 0 0) hrest
  simp only [List.cons_append, List.getD_cons_zero] at hhead
  rw [hhead, List.getD_eq_getElem?_getD, List.getD_eq_getElem?_getD, List.getElem?_drop,
    Nat.add_zero]

theorem Stands.tail (h : Stands bytes p (b :: piece)) : Stands bytes (p + 1) piece :=
  @Stands.right bytes [b] piece p h

theorem Stands.take (h : Stands bytes p piece) : (bytes.drop p).take piece.length = piece := by
  obtain ⟨rest, hrest⟩ := h
  rw [← hrest, List.take_left]

end Stands

/-- `to_be_bytes`. -/
def u16Bytes (n : UInt16) : List UInt8 := [(n >>> 8).toUInt8, n.toUInt8]

theorem u16At_u16Bytes {bytes : List UInt8} {p : Nat} {n : UInt16}
    (h : Stands bytes p (u16Bytes n)) : u16At bytes p = n := by
  have hlt : n.toNat < 2 ^ 16 := n.toNat_lt
  have hhigh : ((n >>> 8).toUInt8.toUInt16 <<< 8).toNat = (n.toNat / 256) <<< 8 := by
    simp [Nat.shiftRight_eq_div_pow, Nat.shiftLeft_eq]
    omega
  have hlow : n.toUInt8.toUInt16.toNat = n.toNat % 256 := by simp
  rw [u16At, h.getD, h.tail.getD, ← UInt16.toNat_inj, UInt16.toNat_or, hhigh, hlow,
    ← Nat.shiftLeft_add_eq_or_of_lt (Nat.mod_lt _ (by decide)), Nat.shiftLeft_eq]
  omega

/-! ## Names -/

/-- A label has a byte at least, and its length fits six bits. -/
def IsLabel (label : List UInt8) : Prop := 0 < label.length ∧ label.length < 64

instance (label : List UInt8) : Decidable (IsLabel label) := inferInstanceAs (Decidable (_ ∧ _))

def labelBytes (label : List UInt8) : List UInt8 := label.length.toUInt8 :: label

/-- A compression pointer to an offset of fourteen bits. -/
def pointerBytes (target : Nat) : List UInt8 :=
  [0xc0 ||| (target / 256).toUInt8, target.toUInt8]

inductive Ending where
  | root
  | pointer (target : Fin (2 ^ 14))
  deriving DecidableEq, Repr

def Ending.bytes : Ending → List UInt8
  | .root => [0]
  | .pointer target => pointerBytes target

/-- A name as it is written. -/
structure WireName where
  labels : List (List UInt8)
  ending : Ending
  isLabel : ∀ label ∈ labels, IsLabel label

def WireName.bytes (name : WireName) : List UInt8 :=
  name.labels.flatMap labelBytes ++ name.ending.bytes

/-- The labels of the name at a position. A name that comes round has none. -/
inductive NameAt (bytes : List UInt8) : Nat → List (List UInt8) → Prop
  | root {p : Nat} (h : Stands bytes p [0]) : NameAt bytes p []
  | label {p : Nat} {label : List UInt8} {labels : List (List UInt8)} (hlabel : IsLabel label)
      (h : Stands bytes p (labelBytes label)) (hrest : NameAt bytes (p + 1 + label.length) labels) :
      NameAt bytes p (label :: labels)
  | pointer {p target : Nat} {labels : List (List UInt8)} (htarget : target < 2 ^ 14)
      (h : Stands bytes p (pointerBytes target)) (hrest : NameAt bytes target labels) :
      NameAt bytes p labels

/-- The labels a name that is written somewhere in `bytes` stands for. -/
def WireName.Denotes (bytes : List UInt8) (name : WireName) (labels : List (List UInt8)) : Prop :=
  match name.ending with
  | .root => labels = name.labels
  | .pointer target => ∃ rest, NameAt bytes target rest ∧ labels = name.labels ++ rest

section Entries

variable {bytes : List UInt8} {p : Nat}

theorem NameAt.append {labels rest : List (List UInt8)} (h : ∀ label ∈ labels, IsLabel label)
    (hstands : Stands bytes p (labels.flatMap labelBytes))
    (hrest : NameAt bytes (p + (labels.flatMap labelBytes).length) rest) :
    NameAt bytes p (labels ++ rest) := by
  induction labels generalizing p with
  | nil => exact hrest
  | cons label labels ih =>
      rw [List.flatMap_cons] at hstands hrest
      refine .label (h label List.mem_cons_self) hstands.left ?_
      have hlength : p + 1 + label.length = p + (labelBytes label).length := by
        rw [labelBytes, List.length_cons]
        omega
      rw [hlength]
      refine ih (fun l hl => h l (List.mem_cons_of_mem _ hl)) hstands.right ?_
      rwa [Nat.add_assoc, ← List.length_append]

theorem nameAt_of_denotes {name : WireName} {labels : List (List UInt8)}
    (h : Stands bytes p name.bytes) (hdenotes : name.Denotes bytes labels) :
    NameAt bytes p labels := by
  unfold WireName.Denotes at hdenotes
  unfold WireName.bytes at h
  split at hdenotes
  · next hroot =>
      rw [hroot] at h
      rw [hdenotes, ← List.append_nil name.labels]
      exact .append name.isLabel h.left (.root h.right)
  · next target hpointer =>
      obtain ⟨rest, hrest, rfl⟩ := hdenotes
      rw [hpointer] at h
      exact .append name.isLabel h.left (.pointer target.isLt h.right hrest)

/-! ### What the code makes of them -/

theorem entryAt_root (h : Stands bytes p [0]) : entryAt bytes p = .terminator := by
  have hlt : p < bytes.length := h.length_le (List.cons_ne_nil _ _)
  rw [entryAt, if_neg (Nat.not_le_of_lt hlt), h.getD]
  rfl

theorem label_length_byte {n : Nat} (hpos : 0 < n) (h : n < 64) :
    n.toUInt8 ≠ 0 ∧ n.toUInt8 &&& 0xc0 = 0 ∧ n.toUInt8.toNat = n := by
  have hall : ∀ n : Fin 64, 0 < n.val →
      n.val.toUInt8 ≠ 0 ∧ n.val.toUInt8 &&& 0xc0 = 0 ∧ n.val.toUInt8.toNat = n.val := by
    decide +kernel
  exact hall ⟨n, h⟩ hpos

theorem entryAt_labelBytes {label : List UInt8} (hlabel : IsLabel label)
    (h : Stands bytes p (labelBytes label)) : entryAt bytes p = .label label := by
  have hlt := h.length_le (List.cons_ne_nil _ _)
  obtain ⟨hzero, hbits, htoNat⟩ := label_length_byte hlabel.1 hlabel.2
  rw [labelBytes, List.length_cons] at hlt
  have hpointer : ¬ label.length.toUInt8 &&& 0xc0 = 0xc0 := by
    rw [hbits]
    decide
  simp only [entryAt, h.getD, htoNat]
  rw [if_neg (by omega), if_neg hzero, if_neg hpointer, if_neg (fun h => h hbits),
    if_neg (by omega), h.tail.take]

theorem pointer_bytes {n : Nat} (h : n < 64) :
    (0xc0 ||| n.toUInt8) ≠ 0 ∧ (0xc0 ||| n.toUInt8) &&& 0xc0 = 0xc0 ∧
      ((0xc0 ||| n.toUInt8) &&& 0x3f).toNat = n := by
  have hall : ∀ n : Fin 64, (0xc0 ||| n.val.toUInt8) ≠ 0 ∧
      (0xc0 ||| n.val.toUInt8) &&& 0xc0 = 0xc0 ∧
      ((0xc0 ||| n.val.toUInt8) &&& 0x3f).toNat = n.val := by
    decide +kernel
  exact hall ⟨n, h⟩

theorem entryAt_pointerBytes {target : Nat} (htarget : target < 2 ^ 14)
    (h : Stands bytes p (pointerBytes target)) : entryAt bytes p = .pointer target := by
  have hlt := h.length_le (List.cons_ne_nil _ _)
  obtain ⟨hzero, hbits, hhigh⟩ := pointer_bytes (n := target / 256) (by omega)
  rw [pointerBytes, List.length_cons, List.length_singleton] at hlt
  have hlow : target.toUInt8.toNat = target % 256 := UInt8.toNat_ofNat'
  have htarget : (target / 256) <<< 8 ||| target % 256 = target := by
    rw [← Nat.shiftLeft_add_eq_or_of_lt (Nat.mod_lt _ (by decide)), Nat.shiftLeft_eq]
    omega
  simp only [entryAt, h.getD, h.tail.getD, hhigh, hlow]
  rw [if_neg (by omega), if_neg hzero, if_pos hbits, if_neg (by omega), htarget]

theorem skipName_labelBytes {label : List UInt8} (hlabel : IsLabel label)
    (h : Stands bytes p (labelBytes label)) :
    skipName bytes p = skipName bytes (p + 1 + label.length) := by
  have hlt : p < bytes.length := by
    have hle := h.length_le (List.cons_ne_nil _ _)
    rw [labelBytes, List.length_cons] at hle
    omega
  obtain ⟨hzero, hbits, htoNat⟩ := label_length_byte hlabel.1 hlabel.2
  have hpointer : ¬ label.length.toUInt8 &&& 0xc0 = 0xc0 := by
    rw [hbits]
    decide
  rw [skipName]
  simp only [h.getD, htoNat]
  rw [if_neg (Nat.not_le_of_lt hlt), if_neg hzero, if_neg hpointer, if_neg (fun h => h hbits)]

theorem skipName_ending {ending : Ending} (h : Stands bytes p ending.bytes) :
    skipName bytes p = .ok (p + ending.bytes.length) := by
  rw [skipName]
  cases ending with
  | root =>
      have hlt : p < bytes.length := h.length_le (List.cons_ne_nil _ _)
      simp only [h.getD]
      rw [if_neg (Nat.not_le_of_lt hlt)]
      rfl
  | pointer target =>
      have hlt : p + 2 ≤ bytes.length := h.length_le (List.cons_ne_nil _ _)
      obtain ⟨hzero, hbits, _⟩ := pointer_bytes (n := target.val / 256) (by omega)
      simp only [h.getD]
      rw [if_neg (by omega), if_neg hzero, if_pos hbits]
      rfl

/-- `skip_name` comes out behind the name. -/
theorem skipName_bytes {name : WireName} (h : Stands bytes p name.bytes) :
    skipName bytes p = .ok (p + name.bytes.length) := by
  obtain ⟨labels, ending, hlabels⟩ := name
  unfold WireName.bytes at h ⊢
  induction labels generalizing p with
  | nil => exact skipName_ending h
  | cons label labels ih =>
      simp only [List.flatMap_cons, List.append_assoc] at h
      have hlength : p + 1 + label.length = p + (labelBytes label).length := by
        rw [labelBytes, List.length_cons]
        omega
      rw [skipName_labelBytes (hlabels label List.mem_cons_self) h.left, hlength,
        ih (fun l hl => hlabels l (List.mem_cons_of_mem _ hl)) h.right]
      simp only [List.flatMap_cons, List.length_append]
      rw [Nat.add_assoc, Nat.add_assoc]

end Entries

/-! ## The text of a name -/

/-- A label of ASCII, without a dot in it. -/
def IsPlain (label : List UInt8) : Prop := ∀ b ∈ label, b < 128 ∧ b ≠ 46

instance (label : List UInt8) : Decidable (IsPlain label) :=
  inferInstanceAs (Decidable (∀ b ∈ label, b < 128 ∧ b ≠ 46))

/-- The labels with dots between them. -/
def hostname : List (List UInt8) → String
  | [] => ""
  | label :: labels => labels.foldl (fun out label => out ++ "." ++ ofAscii label) (ofAscii label)

/-- One more label. -/
def addLabel (out : String) (label : List UInt8) : String :=
  (if out.isEmpty then out else out.push '.') ++ fromUtf8Lossy label

theorem fromUtf8Lossy_ascii {bytes : List UInt8} (h : ∀ b ∈ bytes, b < 128) :
    fromUtf8Lossy bytes = ofAscii bytes := by
  have hlossy := fromUtf8Lossy_utf8 (ofAscii bytes)
  rwa [utf8_ofAscii h] at hlossy

theorem ofAscii_ne_empty {label : List UInt8} (h : IsLabel label) : ofAscii label ≠ "" := by
  intro hempty
  have hlength := congrArg String.length hempty
  rw [ofAscii, String.length_ofList, List.length_map] at hlength
  exact Nat.ne_of_gt h.1 hlength

theorem addLabel_plain {label : List UInt8} (hplain : IsPlain label) {out : String}
    (hout : out ≠ "") : addLabel out label = out ++ "." ++ ofAscii label := by
  rw [addLabel, if_neg fun h => hout (String.isEmpty_iff.mp h),
    fromUtf8Lossy_ascii fun b hb => (hplain b hb).1]
  rfl

theorem foldl_addLabel_of_ne {labels : List (List UInt8)}
    (h : ∀ label ∈ labels, IsLabel label ∧ IsPlain label) {out : String} (hout : out ≠ "") :
    labels.foldl addLabel out =
      labels.foldl (fun out label => out ++ "." ++ ofAscii label) out := by
  induction labels generalizing out with
  | nil => rfl
  | cons label labels ih =>
      have hone := addLabel_plain (h label List.mem_cons_self).2 hout
      have hne : out ++ "." ++ ofAscii label ≠ "" := by
        intro hempty
        exact hout (String.append_eq_empty_iff.mp (String.append_eq_empty_iff.mp hempty).1).1
      rw [List.foldl_cons, hone, ih (fun l hl => h l (List.mem_cons_of_mem _ hl)) hne]
      rfl

theorem foldl_addLabel {labels : List (List UInt8)}
    (h : ∀ label ∈ labels, IsLabel label ∧ IsPlain label) :
    labels.foldl addLabel "" = hostname labels := by
  cases labels with
  | nil => rfl
  | cons label labels =>
      obtain ⟨hlabel, hplain⟩ := h label List.mem_cons_self
      have hone : addLabel "" label = ofAscii label := by
        rw [addLabel, fromUtf8Lossy_ascii fun b hb => (hplain b hb).1]
        exact String.empty_append
      rw [List.foldl_cons, hone, foldl_addLabel_of_ne
        (fun l hl => h l (List.mem_cons_of_mem _ hl)) (ofAscii_ne_empty hlabel), hostname]

/-- `decode_name` spells out the labels. -/
theorem leaves_of_nameAt {bytes : List UInt8} {p : Nat} {labels : List (List UInt8)}
    (h : NameAt bytes p labels) (position : Nat) (jumped : Bool) (out : String) :
    ∃ position', Leaves (decodeTurn bytes) ⟨p, position, jumped, out⟩
      (.ok (position', labels.foldl addLabel out)) := by
  induction h generalizing position jumped out with
  | @root p h =>
      refine ⟨if jumped then position else p + 1, leaves_of_leave ?_⟩
      simp only [decodeTurn, entryAt_root h]
      rfl
  | label hlabel h _ ih =>
      obtain ⟨position', hleaves⟩ := ih position jumped (addLabel out _)
      refine ⟨position', (leaves_again ?_).mpr hleaves⟩
      simp only [decodeTurn, entryAt_labelBytes hlabel h]
      rfl
  | @pointer p target labels htarget h _ ih =>
      obtain ⟨position', hleaves⟩ := ih (if jumped then position else p + 2) true out
      refine ⟨position', (leaves_again ?_).mpr hleaves⟩
      simp only [decodeTurn, entryAt_pointerBytes htarget h]

end Libcfd.Edge.Discovery

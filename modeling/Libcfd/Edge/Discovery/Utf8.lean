import Libcfd.Edge.Discovery
import Libcfd.Origin.Http

/-!
# UTF-8 comes through `from_utf8_lossy`

What a label is made of is taken for text by `String::from_utf8_lossy`. A text put into bytes comes
back as it was: no character of it is replaced.
-/

namespace Libcfd.Edge.Discovery

open Libcfd.Origin

/-! ## One character -/

section Continuations

variable {first : UInt8}

theorem continuations_one (h : first.toNat < 0x80) : continuations first = some [] :=
  if_pos (UInt8.lt_iff_toNat_lt.mpr h)

theorem continuations_two (h : 0xc2 ≤ first.toNat) (h' : first.toNat < 0xe0) :
    continuations first = some [(0x80, 0xbf)] := by
  simp only [continuations, UInt8.lt_iff_toNat_lt, UInt8.reduceToNat]
  rw [if_neg (by omega), if_neg (by omega), if_pos h']

theorem continuations_three (h : 0xe0 ≤ first.toNat) (h' : first.toNat < 0xf0) :
    continuations first =
      some [(if first = 0xe0 then 0xa0 else 0x80, if first = 0xed then 0x9f else 0xbf),
        (0x80, 0xbf)] := by
  simp only [continuations, UInt8.lt_iff_toNat_lt, UInt8.reduceToNat]
  rw [if_neg (by omega), if_neg (by omega), if_neg (by omega), if_pos h']

theorem continuations_four (h : 0xf0 ≤ first.toNat) (h' : first.toNat < 0xf5) :
    continuations first =
      some [(if first = 0xf0 then 0x90 else 0x80, if first = 0xf4 then 0x8f else 0xbf),
        (0x80, 0xbf), (0x80, 0xbf)] := by
  simp only [continuations, UInt8.lt_iff_toNat_lt, UInt8.reduceToNat]
  rw [if_neg (by omega), if_neg (by omega), if_neg (by omega), if_neg (by omega), if_pos h']

end Continuations

/-- The bytes lie in the ranges, one each. -/
def Fits (ranges : List (UInt8 × UInt8)) (more : List UInt8) : Prop :=
  List.Forall₂ (fun range b => range.1.toNat ≤ b.toNat ∧ b.toNat ≤ range.2.toNat) ranges more

theorem fitting_append {ranges : List (UInt8 × UInt8)} {more : List UInt8} (h : Fits ranges more)
    (rest : List UInt8) : fitting ranges (more ++ rest) = more := by
  induction h with
  | nil => rfl
  | cons hb _ ih =>
      have hrange := And.intro (UInt8.le_iff_toNat_le.mpr hb.1) (UInt8.le_iff_toNat_le.mpr hb.2)
      rw [List.cons_append, fitting, if_pos hrange, ih]

theorem lossyChar_of_fits {first : UInt8} {ranges : List (UInt8 × UInt8)} {more : List UInt8}
    {c : Char} (hranges : continuations first = some ranges) (h : Fits ranges more)
    (hpoint : codePoint first more = c.toNat) (rest : List UInt8) :
    lossyChar first (more ++ rest) = (c, more.length) := by
  rw [lossyChar, hranges]
  simp only [fitting_append h]
  rw [if_pos h.length_eq.symm, hpoint, Char.ofNat_toNat]

theorem exists_lossyChar_utf8EncodeChar (c : Char) :
    ∃ first more, String.utf8EncodeChar c = first :: more ∧
      ∀ rest, lossyChar first (more ++ rest) = (c, more.length) := by
  have hvalid : c.toNat < 0xd800 ∨ 0xdfff < c.toNat ∧ c.toNat < 0x110000 := c.valid
  have hval : c.val.toNat = c.toNat := rfl
  fun_cases String.utf8EncodeChar c
  · refine ⟨_, _, rfl, lossyChar_of_fits (continuations_one ?_) .nil ?_⟩ <;>
      simp only [codePoint, List.foldl_nil, if_true, UInt8.toNat_ofNat'] <;> omega
  · refine ⟨_, _, rfl, lossyChar_of_fits (continuations_two ?_ ?_) (.cons ?_ .nil) ?_⟩ <;>
      simp only [codePoint, List.foldl_cons, List.foldl_nil, List.length_cons, List.length_nil,
        reduceCtorEq, if_false, UInt8.toNat_ofNat', UInt8.reduceToNat] <;> omega
  · refine ⟨_, _, rfl, lossyChar_of_fits (continuations_three ?_ ?_) (.cons ?_ (.cons ?_ .nil)) ?_⟩
    -- the second byte after 0xe0 and after 0xed
    case refine_3 =>
      simp only [apply_ite UInt8.toNat, ← UInt8.toNat_inj, UInt8.toNat_ofNat', UInt8.reduceToNat]
      constructor <;> split <;> omega
    all_goals
      simp only [codePoint, List.foldl_cons, List.foldl_nil, List.length_cons, List.length_nil,
        reduceCtorEq, if_false, UInt8.toNat_ofNat', UInt8.reduceToNat]
      omega
  · refine ⟨_, _, rfl, lossyChar_of_fits (continuations_four ?_ ?_)
      (.cons ?_ (.cons ?_ (.cons ?_ .nil))) ?_⟩
    -- the second byte after 0xf0 and after 0xf4
    case refine_3 =>
      simp only [apply_ite UInt8.toNat, ← UInt8.toNat_inj, UInt8.toNat_ofNat', UInt8.reduceToNat]
      constructor <;> split <;> omega
    all_goals
      simp only [codePoint, List.foldl_cons, List.foldl_nil, List.length_cons, List.length_nil,
        reduceCtorEq, if_false, UInt8.toNat_ofNat', UInt8.reduceToNat]
      omega

/-! ## A text -/

theorem fromUtf8Lossy_flatMap (cs : List Char) :
    fromUtf8Lossy (cs.flatMap String.utf8EncodeChar) = String.ofList cs := by
  induction cs with
  | nil => rw [List.flatMap_nil, fromUtf8Lossy, String.ofList_nil]
  | cons c cs ih =>
      obtain ⟨first, more, hbytes, hchar⟩ := exists_lossyChar_utf8EncodeChar c
      rw [List.flatMap_cons, hbytes, List.cons_append, fromUtf8Lossy]
      simp only [hchar, List.drop_left, ih]
      rw [String.ofList_cons]

/-- **Text is taken for what it is.** -/
theorem fromUtf8Lossy_utf8 (s : String) : fromUtf8Lossy (utf8 s) = s := by
  have hlossy := fromUtf8Lossy_flatMap s.toList
  rwa [← utf8_ofList, String.ofList_toList] at hlossy

end Libcfd.Edge.Discovery

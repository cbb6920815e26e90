import Mathlib.Data.List.Basic
import Mathlib.Algebra.Group.Nat.Defs

/-!
# Little-endian words in a list of bytes

`bytesLE w v` are the `w` low bytes of `v`, the least significant first, and `little` reads them
back. A table of words of one width is `words`; its entries are found again by `word`, whatever
comes after the table.
-/

namespace Libcfd

/-- The number that bytes spell, the least significant first. -/
def little : List UInt8 → Nat
  | [] => 0
  | byte :: bytes => byte.toNat + 256 * little bytes

def bytesLE : Nat → Nat → List UInt8
  | 0, _ => []
  | width + 1, value => UInt8.ofNat value :: bytesLE width (value / 256)

@[simp] theorem length_bytesLE (width value : Nat) : (bytesLE width value).length = width := by
  induction width generalizing value with
  | zero => rfl
  | succ width ih => rw [bytesLE, List.length_cons, ih]

theorem little_lt (bytes : List UInt8) : little bytes < 256 ^ bytes.length := by
  induction bytes with
  | nil => decide
  | cons byte bytes ih =>
      have hbyte : byte.toNat < 256 := byte.toNat_lt
      rw [little, List.length_cons, Nat.pow_succ]
      omega

theorem little_bytesLE {width value : Nat} (h : value < 256 ^ width) :
    little (bytesLE width value) = value := by
  induction width generalizing value with
  | zero =>
      rw [Nat.pow_zero] at h
      rw [bytesLE, little]
      omega
  | succ width ih =>
      have hrest : value / 256 < 256 ^ width := by
        rw [Nat.pow_succ] at h
        omega
      rw [bytesLE, little, ih hrest, UInt8.toNat_ofNat']
      omega

theorem bytesLE_little (bytes : List UInt8) : bytesLE bytes.length (little bytes) = bytes := by
  induction bytes with
  | nil => rfl
  | cons byte bytes ih =>
      have hbyte : byte.toNat < 256 := byte.toNat_lt
      have hquot : (byte.toNat + 256 * little bytes) / 256 = little bytes := by omega
      have hlow : UInt8.ofNat (byte.toNat + 256 * little bytes) = byte := by
        rw [← UInt8.toNat_inj, UInt8.toNat_ofNat']
        omega
      rw [List.length_cons, little, bytesLE, hquot, hlow, ih]

/-! ## Tables -/

/-- The word at an index of a table of words of this width. -/
def word (width : Nat) (bytes : List UInt8) (index : Nat) : Nat :=
  little ((bytes.drop (width * index)).take width)

def words (width : Nat) (values : List Nat) : List UInt8 := values.flatMap (bytesLE width)

@[simp] theorem words_cons (width value : Nat) (values : List Nat) :
    words width (value :: values) = bytesLE width value ++ words width values := rfl

@[simp] theorem length_words (width : Nat) (values : List Nat) :
    (words width values).length = width * values.length := by
  induction values with
  | nil => rfl
  | cons value values ih =>
      rw [words_cons, List.length_append, length_bytesLE, ih, List.length_cons, Nat.mul_succ,
        Nat.add_comm]

theorem word_lt (width : Nat) (bytes : List UInt8) (index : Nat) :
    word width bytes index < 256 ^ width := by
  refine Nat.lt_of_lt_of_le (little_lt _) (Nat.pow_le_pow_right (by decide) ?_)
  exact List.length_take_le ..

theorem word_drop (width count : Nat) (bytes : List UInt8) (index : Nat) :
    word width (bytes.drop (width * count)) index = word width bytes (count + index) := by
  rw [word, word, List.drop_drop, Nat.mul_add]

theorem word_take {width size : Nat} {bytes : List UInt8} {index : Nat}
    (h : width * index + width ≤ size) :
    word width (bytes.take size) index = word width bytes index := by
  have hle : width ≤ size - width * index := by omega
  rw [word, word, List.drop_take, List.take_take, Nat.min_eq_left hle]

theorem word_append {width : Nat} {bytes : List UInt8} {index : Nat}
    (h : width * index + width ≤ bytes.length) (rest : List UInt8) :
    word width (bytes ++ rest) index = word width bytes index := by
  rw [← word_take h, List.take_left' rfl]

/-- The entries of a table are found again. -/
theorem word_words {width : Nat} {values : List Nat} (hvalues : ∀ v ∈ values, v < 256 ^ width)
    (rest : List UInt8) {index : Nat} (hindex : index < values.length) :
    word width (words width values ++ rest) index = values[index] := by
  induction values generalizing index with
  | nil => cases hindex
  | cons value values ih =>
      rw [words_cons, List.append_assoc]
      cases index with
      | zero =>
          have htake : (bytesLE width value ++ (words width values ++ rest)).take width =
              bytesLE width value := by
            rw [List.take_append_of_le_length (length_bytesLE .. ▸ Nat.le_refl _)]
            exact List.take_of_length_le (length_bytesLE .. ▸ Nat.le_refl _)
          rw [word, Nat.mul_zero, List.drop_zero, htake]
          exact little_bytesLE (hvalues value List.mem_cons_self)
      | succ index =>
          have hrest : (bytesLE width value ++ (words width values ++ rest)).drop (width * 1) =
              words width values ++ rest := by
            rw [Nat.mul_one]
            exact List.drop_left' (length_bytesLE ..)
          have hindex' : index < values.length := Nat.lt_of_succ_lt_succ hindex
          rw [List.getElem_cons_succ, Nat.add_comm index 1, ← word_drop, hrest]
          exact ih (fun v hv => hvalues v (List.mem_cons_of_mem _ hv)) hindex'

/-- Any bytes are the table of their words. -/
theorem words_word {width count : Nat} {bytes : List UInt8} (h : width * count ≤ bytes.length) :
    words width ((List.range count).map (word width bytes)) = bytes.take (width * count) := by
  induction count with
  | zero => rfl
  | succ count ih =>
      rw [Nat.mul_succ] at h
      have hlength : ((bytes.drop (width * count)).take width).length = width := by
        rw [List.length_take, List.length_drop]
        omega
      have hlast : bytesLE width (word width bytes count) =
          (bytes.drop (width * count)).take width := by
        have hsame := bytesLE_little ((bytes.drop (width * count)).take width)
        rwa [hlength] at hsame
      have hfirst := ih (Nat.le_trans (Nat.le_add_right ..) h)
      rw [words] at hfirst
      rw [List.range_succ, List.map_append, words, List.flatMap_append, hfirst, Nat.mul_succ,
        List.take_add, List.map_singleton, List.flatMap_singleton, hlast]

end Libcfd

/-!
# Base64

The standard alphabet, without padding: three bytes are four digits, and one or two bytes at the
end are two or three digits, the last of which must not carry bits of its own.
-/

namespace Libcfd.Base64

def alphabet : List Char :=
  "ABCDEFGHIJKLMNOPQRSTUVWXYZabcdefghijklmnopqrstuvwxyz0123456789+/".toList

def digit (n : Nat) : Char := alphabet.getD n 'A'

def value (c : Char) : Option Nat := alphabet.idxOf? c

theorem value_digit {n : Nat} (h : n < 64) : value (digit n) = some n := by
  have hall : ∀ n : Fin 64, value (digit n) = some n.val := by decide +kernel
  exact hall ⟨n, h⟩

theorem digit_mem {n : Nat} (h : n < 64) : digit n ∈ alphabet := by
  have hall : ∀ n : Fin 64, digit n ∈ alphabet := by decide +kernel
  exact hall ⟨n, h⟩

/-! ## Encoding -/

def encode : List UInt8 → List Char
  | [] => []
  | [a] => [digit (a.toNat / 4), digit (a.toNat % 4 * 16)]
  | [a, b] =>
      [digit (a.toNat / 4), digit (a.toNat % 4 * 16 + b.toNat / 16), digit (b.toNat % 16 * 4)]
  | a :: b :: c :: bytes =>
      digit (a.toNat / 4) :: digit (a.toNat % 4 * 16 + b.toNat / 16) ::
        digit (b.toNat % 16 * 4 + c.toNat / 64) :: digit (c.toNat % 64) :: encode bytes

/-! ## Decoding -/

def decode : List Char → Option (List UInt8)
  | [] => some []
  | [_] => none
  | [w, x] => do
      let w ← value w
      let x ← value x
      if x % 16 = 0 then return [(w * 4 + x / 16).toUInt8] else none
  | [w, x, y] => do
      let w ← value w
      let x ← value x
      let y ← value y
      if y % 4 = 0 then return [(w * 4 + x / 16).toUInt8, (x % 16 * 16 + y / 4).toUInt8] else none
  | w :: x :: y :: z :: digits => do
      let w ← value w
      let x ← value x
      let y ← value y
      let z ← value z
      let bytes ← decode digits
      return (w * 4 + x / 16).toUInt8 :: (x % 16 * 16 + y / 4).toUInt8 ::
        (y % 4 * 64 + z).toUInt8 :: bytes

section RoundTrip

variable (a b c : UInt8)

theorem sextet_lt : a.toNat / 4 < 64 := by
  have h := a.toNat_lt
  omega

theorem first_eq (n : Nat) (h : n < 16) :
    (a.toNat / 4 * 4 + (a.toNat % 4 * 16 + n) / 16).toUInt8 = a := by
  have heq : a.toNat / 4 * 4 + (a.toNat % 4 * 16 + n) / 16 = a.toNat := by omega
  rw [heq]
  exact UInt8.ofNat_toNat

theorem second_eq (m n : Nat) (h : n < 4) :
    ((m * 16 + b.toNat / 16) % 16 * 16 + (b.toNat % 16 * 4 + n) / 4).toUInt8 = b := by
  have hb := b.toNat_lt
  have heq : (m * 16 + b.toNat / 16) % 16 * 16 + (b.toNat % 16 * 4 + n) / 4 = b.toNat := by omega
  rw [heq]
  exact UInt8.ofNat_toNat

theorem third_eq (m : Nat) : ((m * 4 + c.toNat / 64) % 4 * 64 + c.toNat % 64).toUInt8 = c := by
  have hc := c.toNat_lt
  have heq : (m * 4 + c.toNat / 64) % 4 * 64 + c.toNat % 64 = c.toNat := by omega
  rw [heq]
  exact UInt8.ofNat_toNat

end RoundTrip

/-- **What is encoded is decoded.** -/
theorem decode_encode (bytes : List UInt8) : decode (encode bytes) = some bytes := by
  induction bytes using encode.induct with
  | case1 => rfl
  | case2 a =>
      have ha := a.toNat_lt
      have hx : a.toNat % 4 * 16 < 64 := by omega
      have hzero : a.toNat % 4 * 16 % 16 = 0 := by omega
      have hfirst := first_eq a 0 (by decide)
      rw [Nat.add_zero] at hfirst
      simp only [encode, decode, value_digit (sextet_lt a), value_digit hx, Option.bind_eq_bind,
        Option.bind_some, hzero, if_pos, hfirst]
      rfl
  | case3 a b =>
      have ha := a.toNat_lt
      have hb := b.toNat_lt
      have hx : a.toNat % 4 * 16 + b.toNat / 16 < 64 := by omega
      have hy : b.toNat % 16 * 4 < 64 := by omega
      have hzero : b.toNat % 16 * 4 % 4 = 0 := by omega
      have hsecond := second_eq b (a.toNat % 4) 0 (by decide)
      rw [Nat.add_zero] at hsecond
      simp only [encode, decode, value_digit (sextet_lt a), value_digit hx, value_digit hy,
        Option.bind_eq_bind, Option.bind_some, hzero, if_pos, hsecond,
        first_eq a (b.toNat / 16) (by omega)]
      rfl
  | case4 a b c bytes ih =>
      have ha := a.toNat_lt
      have hb := b.toNat_lt
      have hc := c.toNat_lt
      have hx : a.toNat % 4 * 16 + b.toNat / 16 < 64 := by omega
      have hy : b.toNat % 16 * 4 + c.toNat / 64 < 64 := by omega
      have hz : c.toNat % 64 < 64 := by omega
      simp only [encode, decode, value_digit (sextet_lt a), value_digit hx, value_digit hy,
        value_digit hz, Option.bind_eq_bind, Option.bind_some, ih,
        first_eq a (b.toNat / 16) (by omega),
        second_eq b (a.toNat % 4) (c.toNat / 64) (by omega), third_eq c (b.toNat % 16)]
      rfl

theorem mem_alphabet_of_mem_encode {bytes : List UInt8} {d : Char} (h : d ∈ encode bytes) :
    d ∈ alphabet := by
  induction bytes using encode.induct with
  | case1 => cases h
  | case2 a =>
      have ha := a.toNat_lt
      simp only [encode, List.mem_cons, List.not_mem_nil, or_false] at h
      rcases h with rfl | rfl
      · exact digit_mem (sextet_lt a)
      · exact digit_mem (by omega)
  | case3 a b =>
      have hb := b.toNat_lt
      simp only [encode, List.mem_cons, List.not_mem_nil, or_false] at h
      rcases h with rfl | rfl | rfl
      · exact digit_mem (sextet_lt a)
      · exact digit_mem (by omega)
      · exact digit_mem (by omega)
  | case4 a b c bytes ih =>
      have hb := b.toNat_lt
      have hc := c.toNat_lt
      simp only [encode, List.mem_cons] at h
      rcases h with rfl | rfl | rfl | rfl | h
      · exact digit_mem (sextet_lt a)
      · exact digit_mem (by omega)
      · exact digit_mem (by omega)
      · exact digit_mem (by omega)
      · exact ih h

end Libcfd.Base64

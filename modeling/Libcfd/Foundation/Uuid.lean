/-!
# Texts of a UUID

The four texts that 16 bytes have: 32 digits, the same in five groups with hyphens between them, and
the groups in braces or after `urn:uuid:`.
-/

namespace Libcfd.Uuid

def isHex (c : Char) : Bool :=
  ('0' ≤ c && c ≤ '9') || ('a' ≤ c && c ≤ 'f') || ('A' ≤ c && c ≤ 'F')

def hexValue (c : Char) : Nat :=
  if c ≤ '9' then c.toNat - '0'.toNat
  else if c ≤ 'F' then c.toNat - 'A'.toNat + 10
  else c.toNat - 'a'.toNat + 10

abbrev Digits : Type := { ds : List Char // ds.length = 32 }

def simple (cs : List Char) : Option Digits :=
  if h : cs.length = 32 ∧ cs.all isHex then some ⟨cs, h.1⟩ else none

theorem length_flatten_groups {groups : List (List Char)}
    (h : groups.map List.length = [8, 4, 4, 4, 12]) : groups.flatten.length = 32 := by
  rw [List.length_flatten, h]
  rfl

def hyphenated (cs : List Char) : Option Digits :=
  let groups := cs.splitOn '-'
  if h : groups.map List.length = [8, 4, 4, 4, 12] ∧ groups.flatten.all isHex then
    some ⟨groups.flatten, length_flatten_groups h.1⟩
  else none

def braced (cs : List Char) : Option Digits :=
  if cs.head? = some '{' ∧ cs.getLast? = some '}' then hyphenated cs.tail.dropLast else none

def urn (cs : List Char) : Option Digits :=
  if "urn:uuid:".toList.isPrefixOf cs then hyphenated (cs.drop 9) else none

def digits (cs : List Char) : Option Digits :=
  (((simple cs).or (hyphenated cs)).or (braced cs)).or (urn cs)

def IsUuid (cs : List Char) : Prop := (digits cs).isSome

instance (cs : List Char) : Decidable (IsUuid cs) :=
  inferInstanceAs (Decidable ((digits cs).isSome = true))

theorem not_isUuid_nil : ¬ IsUuid [] := by decide

/-! ## The bytes -/

def pairs : List Char → List UInt8
  | [] => []
  | [_] => []
  | c :: d :: cs => (hexValue c * 16 + hexValue d).toUInt8 :: pairs cs

theorem length_pairs (cs : List Char) : (pairs cs).length = cs.length / 2 := by
  induction cs using pairs.induct with
  | case1 => rfl
  | case2 c => simp [pairs]
  | case3 c d cs ih =>
      simp only [pairs, List.length_cons, ih]
      omega

def Digits.bytes (ds : Digits) : { bytes : List UInt8 // bytes.length = 16 } :=
  ⟨pairs ds.val, by rw [length_pairs, ds.property]⟩

example : (digits "6ea05ba1-9e0e-4f0d-9e9e-3d0f0f0f0f0f".toList).map (·.bytes.val) =
    some [0x6e, 0xa0, 0x5b, 0xa1, 0x9e, 0x0e, 0x4f, 0x0d, 0x9e, 0x9e, 0x3d, 0x0f, 0x0f, 0x0f,
      0x0f, 0x0f] := by decide +kernel

end Libcfd.Uuid

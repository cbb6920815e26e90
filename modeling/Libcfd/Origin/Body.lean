import Libcfd.Origin.Http

/-!
# Bodies with a size hint

A body is empty, or bytes, or a reader. The hint is set where a body is made and never again: of
bytes it is their number, and once some have been read it is only a bound on those that are left. A
body with the hint 0 has nothing to give, and nothing can fail.
-/

namespace Libcfd.Origin

/-- A number is text for a header value. -/
theorem isVisible_toString (n : Nat) :
    ∀ b ∈ utf8 (toString n), IsVisible b := by
  have hdigit : ∀ c ∈ Nat.toDigits 10 n, c.isDigit = true := fun c hc =>
    Nat.isDigit_of_mem_toDigits (by decide) (by decide) hc
  have hbounds : ∀ c ∈ Nat.toDigits 10 n, 48 ≤ c.toNat ∧ c.toNat ≤ 57 := by
    intro c hc
    have h := hdigit c hc
    simp only [Char.isDigit, Bool.and_eq_true, decide_eq_true_eq, ge_iff_le,
      UInt32.le_iff_toNat_le] at h
    exact h
  have htext : toString n = String.ofList (Nat.toDigits 10 n) := rfl
  rw [htext, utf8_ascii fun c hc => by have := hbounds c hc; omega]
  intro b hb
  obtain ⟨c, hc, rfl⟩ := List.mem_map.mp hb
  have h := hbounds c hc
  have hval : c.toNat.toUInt8.toNat = c.toNat := by
    rw [Nat.toUInt8_eq, UInt8.toNat_ofNat']
    omega
  refine .inr ⟨?_, ?_⟩
  · rw [UInt8.le_iff_toNat_le, hval]
    exact Nat.le_trans (by decide) h.1
  · rw [UInt8.lt_iff_toNat_lt, hval]
    exact Nat.lt_of_le_of_lt h.2 (by decide)

/-- What a `copy` reads at a time. -/
def copyBuffer : Nat := 8192

/-- The pieces that come of bytes in memory. -/
def cursorPieces (bytes : List UInt8) : List (List UInt8) :=
  if _hbytes : bytes = [] then []
  else bytes.take copyBuffer :: cursorPieces (bytes.drop copyBuffer)
termination_by bytes.length
decreasing_by
  have hlength : 0 < bytes.length := List.length_pos_iff.mpr _hbytes
  rw [List.length_drop]
  exact Nat.sub_lt hlength (Nat.succ_pos _)

theorem flatten_cursorPieces (bytes : List UInt8) : (cursorPieces bytes).flatten = bytes := by
  induction bytes using cursorPieces.induct with
  | case1 =>
      rw [cursorPieces]
      rfl
  | case2 bytes hbytes ih =>
      rw [cursorPieces, dif_neg hbytes, List.flatten_cons, ih, List.take_append_drop]

theorem cursorPieces_ne_nil (bytes : List UInt8) :
    ∀ piece ∈ cursorPieces bytes, piece ≠ [] ∧ piece.length ≤ copyBuffer := by
  induction bytes using cursorPieces.induct with
  | case1 =>
      rw [cursorPieces]
      exact List.forall_mem_nil _
  | case2 bytes hbytes ih =>
      rw [cursorPieces, dif_neg hbytes]
      intro piece hpiece
      rcases List.mem_cons.mp hpiece with rfl | hpiece
      · refine ⟨?_, List.length_take_le _ _⟩
        rw [Ne, List.take_eq_nil_iff]
        exact fun h => h.elim (fun h => by cases h) hbytes
      · exact ih piece hpiece

/-- `Body`, by what its reads find, and its size hint. -/
structure HintedBody extends Body where
  sizeHint : Option Nat
  bounded : ∀ n, sizeHint = some n → pieces.flatten.length ≤ n ∧ ending = .ok ()

namespace HintedBody

/-- `Body::empty`. -/
def empty : HintedBody where
  toBody := .empty
  sizeHint := some 0
  bounded _ _ := ⟨Nat.zero_le _, rfl⟩

/-- `Body::from_bytes`. -/
def fromBytes (bytes : List UInt8) : HintedBody where
  pieces := cursorPieces bytes
  ending := .ok ()
  pieces_ne_nil piece h := (cursorPieces_ne_nil bytes piece h).1
  sizeHint := some bytes.length
  bounded n h := by
    rw [flatten_cursorPieces, Option.some.inj h]
    exact ⟨Nat.le_refl n, rfl⟩

/-- `Body::from_reader`. -/
def fromReader (body : Body) : HintedBody where
  toBody := body
  sizeHint := none
  bounded _ h := by cases h

/-- There is nothing in a body that says so. -/
theorem eq_empty (body : HintedBody) (h : body.sizeHint = some 0) :
    body.pieces = [] ∧ body.ending = .ok () := by
  obtain ⟨hlength, hending⟩ := body.bounded 0 h
  refine ⟨?_, hending⟩
  have hflatten : body.pieces.flatten = [] := List.length_eq_zero_iff.mp (Nat.le_zero.mp hlength)
  apply List.eq_nil_iff_forall_not_mem.mpr
  intro piece hpiece
  exact body.pieces_ne_nil piece hpiece (List.flatten_eq_nil_iff.mp hflatten piece hpiece)

end HintedBody

end Libcfd.Origin

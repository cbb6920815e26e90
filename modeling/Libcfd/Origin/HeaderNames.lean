import Libcfd.Origin.Http

/-!
# Header names

What the `http` crate makes of a header name: its letters are put in lower case, and it never has a
colon in it.
-/

namespace Libcfd.Origin

/-! ## Lower case -/

theorem toLower_toLower (c : Char) : c.toLower.toLower = c.toLower := by
  unfold Char.toLower
  grind

theorem toLower_eq_colon {c : Char} (h : c.toLower = ':') : c = ':' := by
  unfold Char.toLower at h
  split at h
  · next hupper =>
      -- there is no colon among the lower-case letters
      have hval : c.val + 32 = 58 := congrArg Char.val h
      grind
  · exact h

theorem toList_asciiLowercase (s : String) :
    (asciiLowercase s).toList = s.toList.map Char.toLower := by
  rw [asciiLowercase, String.toList_ofList]

@[simp] theorem asciiLowercase_asciiLowercase (s : String) :
    asciiLowercase (asciiLowercase s) = asciiLowercase s := by
  rw [asciiLowercase, toList_asciiLowercase, List.map_map]
  refine congrArg String.ofList ?_
  apply List.map_congr_left
  intro c _
  exact toLower_toLower c

theorem colon_not_mem_asciiLowercase {s : String} (h : ':' ∉ s.toList) :
    ':' ∉ (asciiLowercase s).toList := by
  rw [toList_asciiLowercase]
  intro hmem
  obtain ⟨c, hc, hcolon⟩ := List.mem_map.mp hmem
  rw [toLower_eq_colon hcolon] at hc
  exact h hc

/-! ## Names of the `http` crate -/

structure Http.PlainNames (H : Http) : Prop where
  asciiLowercase_nameAsStr : ∀ n, asciiLowercase (H.nameAsStr n) = H.nameAsStr n
  colon_not_mem : ∀ n, ':' ∉ (H.nameAsStr n).toList
  nameFromBytes_eq : ∀ s n, H.nameFromBytes (utf8 s) = some n → H.nameAsStr n = asciiLowercase s
  nameAsStr_host : H.nameAsStr H.host = "host"

/-- A byte of a token. -/
def IsToken (b : UInt8) : Prop :=
  33 ≤ b ∧ b < 127 ∧
    b ∉ ([34, 40, 41, 44, 47, 58, 59, 60, 61, 62, 63, 64, 91, 92, 93, 123, 125] : List UInt8)

instance (b : UInt8) : Decidable (IsToken b) := inferInstanceAs (Decidable (_ ∧ _))

/-- A header name: no upper case, no colon. -/
abbrev PlainName : Type := { s : String // asciiLowercase s = s ∧ ':' ∉ s.toList }

def PlainName.ofText (s : String) (h : ':' ∉ s.toList) : PlainName :=
  ⟨asciiLowercase s, asciiLowercase_asciiLowercase s, colon_not_mem_asciiLowercase h⟩

/-- Of a text that is no header name, what is left without the colons. -/
def PlainName.ofStatic (s : String) : PlainName :=
  .ofText (String.ofList (s.toList.filter (· ≠ ':'))) fun h => by
    rw [String.toList_ofList] at h
    exact absurd rfl (of_decide_eq_true (List.mem_filter.mp h).2)

theorem utf8_of_isToken {bytes : List UInt8} (h : ∀ b ∈ bytes, IsToken b) :
    utf8 (ofAscii bytes) = bytes := by
  apply utf8_ofAscii
  intro b hb
  exact UInt8.lt_trans (h b hb).2.1 (by decide)

theorem colon_not_mem_of_isToken {bytes : List UInt8} (h : ∀ b ∈ bytes, IsToken b) :
    ':' ∉ (ofAscii bytes).toList := by
  rw [ofAscii, String.toList_ofList]
  intro hmem
  obtain ⟨b, hb, hcolon⟩ := List.mem_map.mp hmem
  have hlt : b.toNat < 128 :=
    Nat.lt_trans (UInt8.lt_iff_toNat_lt.mp (h b hb).2.1) (by decide)
  have hbyte : b.toNat = 58 := by
    have htoNat := congrArg Char.toNat hcolon
    rw [Char.ofNat, dif_pos (.inl (Nat.lt_trans hlt (by decide)))] at htoNat
    exact htoNat
  have hb58 : b = 58 := UInt8.toNat_inj.mp hbyte
  subst hb58
  exact absurd (h _ hb).2.2 (by decide)

abbrev PlainValue : Type := { bytes : List UInt8 // ∀ b ∈ bytes, IsAdmitted b }

def plainValuesOf (headers : List (PlainName × PlainValue)) (name : String) : List PlainValue :=
  headers.filterMap fun (n, value) => if n.val = name then some value else none

theorem plainValuesOf_eq (headers : List (PlainName × PlainValue)) (name : String) :
    plainValuesOf headers name =
      valuesOf (headers.map fun header => (header.1.val, header.2)) name := by
  rw [valuesOf, List.filterMap_map]
  rfl

theorem plainValuesOf_insert (headers : List (PlainName × PlainValue)) (n : PlainName)
    (value : PlainValue) (name : String) :
    plainValuesOf (headers.filter (fun header => header.1 ≠ n) ++ [(n, value)]) name =
      if n.val = name then [value] else plainValuesOf headers name := by
  rw [plainValuesOf_eq, plainValuesOf_eq, ← valuesOf_insert, List.map_append, List.filter_map]
  refine congrArg (valuesOf · name) (congrArg (· ++ _) (congrArg _ ?_))
  apply List.filter_congr
  intro header _
  simp only [Function.comp_apply, ne_eq, Subtype.ext_iff]

theorem plainValuesOf_append (headers : List (PlainName × PlainValue)) (n : PlainName)
    (value : PlainValue) (name : String) :
    plainValuesOf (headers ++ [(n, value)]) name =
      plainValuesOf headers name ++ if n.val = name then [value] else [] := by
  rw [plainValuesOf_eq, plainValuesOf_eq, ← valuesOf_append, List.map_append]
  rfl

/-- Header maps as lists, their names plain; every text but the empty one is a URI. -/
def Http.plain : Http where
  Method := List UInt8
  Uri := String
  HeaderName := PlainName
  HeaderValue := PlainValue
  HeaderMap := List (PlainName × PlainValue)
  methodGet := [71, 69, 84]
  defaultUri := "/"
  host := .ofStatic "host"
  methodFromBytes bytes := if bytes ≠ [] ∧ ∀ b ∈ bytes, IsToken b then some bytes else none
  uriTryFrom s := if s = "" then .error "empty string" else .ok s
  nameFromBytes bytes :=
    if h : bytes ≠ [] ∧ ∀ b ∈ bytes, IsToken b then
      some (.ofText (ofAscii bytes) (colon_not_mem_of_isToken h.2))
    else none
  nameFromStatic := .ofStatic
  nameAsStr := Subtype.val
  valueFromStr s := if h : ∀ b ∈ utf8 s, IsAdmitted b then some ⟨utf8 s, h⟩ else none
  valueAsBytes value := value.val
  valueToStr value := if ∀ b ∈ value.val, IsVisible b then some (ofAscii value.val) else none
  emptyMap := []
  insert headers name value := headers.filter (fun header => header.1 ≠ name) ++ [(name, value)]
  append headers name value := headers ++ [(name, value)]
  iter := id
  find headers name := (plainValuesOf headers name).head?

theorem Http.lawful_plain : Http.plain.Lawful where
  nameAsStr_fromStatic s h := by
    have hfilter : s.toList.filter (· ≠ ':') = s.toList := by
      rw [List.filter_eq_self]
      intro c hc
      apply decide_eq_true
      rintro rfl
      rcases h ':' hc with halnum | hdash
      · exact absurd halnum (by decide)
      · exact absurd hdash (by decide)
    show asciiLowercase (String.ofList (s.toList.filter (· ≠ ':'))) = asciiLowercase s
    rw [hfilter, String.ofList_toList]
  toStr_eq := Http.lawful_ofLists.toStr_eq
  toStr_isSome := Http.lawful_ofLists.toStr_isSome
  fromStr_eq := Http.lawful_ofLists.fromStr_eq
  getAll_emptyMap _ := rfl
  getAll_insert := plainValuesOf_insert
  getAll_append := plainValuesOf_append
  find_eq _ _ := rfl

theorem Http.plainNames_plain : Http.plain.PlainNames where
  asciiLowercase_nameAsStr n := n.property.1
  colon_not_mem n := n.property.2
  nameFromBytes_eq s n h := by
    obtain ⟨⟨_, htoken⟩, hn⟩ := Option.dite_none_right_eq_some.mp h
    cases hn
    have hs : ofAscii (utf8 s) = s := utf8_injective (utf8_of_isToken htoken)
    show asciiLowercase (ofAscii (utf8 s)) = asciiLowercase s
    rw [hs]
  nameAsStr_host := by decide

end Libcfd.Origin

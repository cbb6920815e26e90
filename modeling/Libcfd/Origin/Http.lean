import Libcfd.Rpc.Error
import Mathlib.Data.List.Basic

/-!
# Requests, responses and the `http` crate

The crate is a parameter. What is assumed of it is that a header value is its bytes, that `to_str`
gives those of visible ASCII as they are and no others, and that a header map keeps the values of a
name in the order they were put there.
-/

namespace Libcfd.Origin

open Libcfd.Rpc

/-! ## Text and bytes -/

/-- `as_bytes` of a `str`. -/
def utf8 (s : String) : List UInt8 := s.toByteArray.data.toList

/-- Visible ASCII, and the tab: what `to_str` takes. -/
def IsVisible (b : UInt8) : Prop := b = 9 ∨ 32 ≤ b ∧ b < 127

/-- What a header value is made of: anything but the control characters. -/
def IsAdmitted (b : UInt8) : Prop := b = 9 ∨ 32 ≤ b ∧ b ≠ 127

instance (b : UInt8) : Decidable (IsVisible b) := inferInstanceAs (Decidable (_ ∨ _))

instance (b : UInt8) : Decidable (IsAdmitted b) := inferInstanceAs (Decidable (_ ∨ _))

/-- Of the bytes of a text each is looked at, not each of the values a byte can have. -/
instance (priority := 2000) decidableForallMem (bytes : List UInt8) (p : UInt8 → Prop)
    [DecidablePred p] : Decidable (∀ b ∈ bytes, p b) := List.decidableBAll p bytes

theorem IsVisible.admitted {b : UInt8} (h : IsVisible b) : IsAdmitted b := by
  rcases h with htab | ⟨hle, hlt⟩
  · exact .inl htab
  · exact .inr ⟨hle, UInt8.ne_of_lt hlt⟩

/-- `to_ascii_lowercase`. -/
def asciiLowercase (s : String) : String := String.ofList (s.toList.map Char.toLower)

/-- `starts_with`. -/
def startsWith (s start : String) : Bool := start.toList.isPrefixOf s.toList

/-- `strip_prefix`. -/
def stripPrefix (s start : String) : Option String :=
  if startsWith s start then some (String.ofList (s.toList.drop start.toList.length)) else none

@[simp] theorem stripPrefix_append (start s : String) :
    stripPrefix (start ++ s) start = some s := by
  have hstarts : startsWith (start ++ s) start = true := by
    rw [startsWith, String.toList_append]
    exact List.isPrefixOf_iff_prefix.mpr (List.prefix_append _ _)
  rw [stripPrefix, if_pos hstarts, String.toList_append, List.drop_left, String.ofList_toList]

theorem utf8_injective {s t : String} (h : utf8 s = utf8 t) : s = t := by
  rw [← String.toByteArray_inj]
  exact ByteArray.ext (Array.ext' h)

theorem utf8_ofList (cs : List Char) :
    utf8 (String.ofList cs) = cs.flatMap String.utf8EncodeChar := by
  rw [utf8, String.toByteArray_ofList, List.utf8Encode, List.toList_data_toByteArray]

/-- A text of ASCII has a byte for each character. -/
theorem utf8_ascii {cs : List Char} (h : ∀ c ∈ cs, c.toNat < 128) :
    utf8 (String.ofList cs) = cs.map fun c => c.toNat.toUInt8 := by
  rw [utf8_ofList]
  induction cs with
  | nil => rfl
  | cons c cs ih =>
      have hone : String.utf8EncodeChar c = [c.toNat.toUInt8] :=
        if_pos (Nat.le_of_lt_succ (h c List.mem_cons_self))
      rw [List.flatMap_cons, List.map_cons, hone, ih fun d hd => h d (List.mem_cons_of_mem c hd)]
      rfl

theorem toByteArray_utf8 (s : String) : (utf8 s).toByteArray = s.toByteArray := by
  apply ByteArray.ext
  apply Array.toList_inj.mp
  rw [List.toList_data_toByteArray]
  rfl

/-- What is encoded below 128 is the character itself. -/
theorem mem_utf8EncodeChar {c : Char} {b : UInt8} (h : b ∈ String.utf8EncodeChar c)
    (hlt : b < 128) : b.toNat = c.toNat := by
  have hbound := UInt8.lt_iff_toNat_lt.mp hlt
  have hval : c.toNat = c.val.toNat := rfl
  revert h hbound
  fun_cases String.utf8EncodeChar c <;>
    simp only [List.mem_cons, List.not_mem_nil, or_false, UInt8.reduceToNat]
  · rintro rfl hbound
    rw [UInt8.toNat_ofNat']
    omega
  -- the bytes of the longer encodings begin at 128
  · rintro (rfl | rfl) hbound <;>
      rw [UInt8.toNat_ofNat'] at hbound <;> omega
  · rintro (rfl | rfl | rfl) hbound <;>
      rw [UInt8.toNat_ofNat'] at hbound <;> omega
  · rintro (rfl | rfl | rfl | rfl) hbound <;>
      rw [UInt8.toNat_ofNat'] at hbound <;> omega

/-- A byte of ASCII is a character. -/
theorem exists_char_of_mem_utf8 {cs : List Char} {b : UInt8} (h : b ∈ utf8 (String.ofList cs))
    (hlt : b < 128) : ∃ c ∈ cs, c.toNat = b.toNat := by
  rw [utf8_ofList] at h
  obtain ⟨c, hc, hb⟩ := List.mem_flatMap.mp h
  exact ⟨c, hc, (mem_utf8EncodeChar hb hlt).symm⟩

/-- A character has a byte, which is the character where it is ASCII. -/
theorem exists_mem_utf8_of_char {s : String} {c : Char} (hc : c ∈ s.toList) :
    ∃ b ∈ utf8 s, b < 128 → b.toNat = c.toNat := by
  obtain ⟨b, hb⟩ := List.exists_mem_of_ne_nil _ (@String.utf8EncodeChar_ne_nil c)
  refine ⟨b, ?_, mem_utf8EncodeChar hb⟩
  rw [← String.ofList_toList (s := s), utf8_ofList]
  exact List.mem_flatMap.mpr ⟨c, hc, hb⟩

/-! ## The `http` crate -/

structure Http where
  Method : Type
  Uri : Type
  HeaderName : Type
  HeaderValue : Type
  HeaderMap : Type
  -- `Method::GET`, `Uri::default()`, `HOST`
  methodGet : Method
  defaultUri : Uri
  host : HeaderName
  methodFromBytes : List UInt8 → Option Method
  -- with the text of the error
  uriTryFrom : String → Except String Uri
  nameFromBytes : List UInt8 → Option HeaderName
  nameFromStatic : String → HeaderName
  nameAsStr : HeaderName → String
  valueFromStr : String → Option HeaderValue
  valueAsBytes : HeaderValue → List UInt8
  valueToStr : HeaderValue → Option String
  emptyMap : HeaderMap
  insert : HeaderMap → HeaderName → HeaderValue → HeaderMap
  append : HeaderMap → HeaderName → HeaderValue → HeaderMap
  iter : HeaderMap → List (HeaderName × HeaderValue)
  -- the first value of a name
  find : HeaderMap → String → Option HeaderValue

namespace Http

variable (H : Http)

/-- All values of a name. -/
def getAll (headers : H.HeaderMap) (name : String) : List H.HeaderValue :=
  (H.iter headers).filterMap fun (n, value) => if H.nameAsStr n = name then some value else none

structure Lawful : Prop where
  nameAsStr_fromStatic : ∀ s, (∀ c ∈ s.toList, c.isAlphanum = true ∨ c = '-') →
    H.nameAsStr (H.nameFromStatic s) = asciiLowercase s
  toStr_eq : ∀ value s, H.valueToStr value = some s → utf8 s = H.valueAsBytes value
  toStr_isSome : ∀ value,
    (H.valueToStr value).isSome = true ↔ ∀ b ∈ H.valueAsBytes value, IsVisible b
  fromStr_eq : ∀ s, (∀ b ∈ utf8 s, IsAdmitted b) →
    ∃ value, H.valueFromStr s = some value ∧ H.valueAsBytes value = utf8 s
  getAll_emptyMap : ∀ name, H.getAll H.emptyMap name = []
  getAll_insert : ∀ headers n value name, H.getAll (H.insert headers n value) name =
    if H.nameAsStr n = name then [value] else H.getAll headers name
  getAll_append : ∀ headers n value name, H.getAll (H.append headers n value) name =
    H.getAll headers name ++ if H.nameAsStr n = name then [value] else []
  find_eq : ∀ headers name, H.find headers name = (H.getAll headers name).head?

end Http

/-! ## Header maps as lists -/

/-- A text of the bytes given, one character a byte. -/
def ofAscii (bytes : List UInt8) : String := String.ofList (bytes.map fun b => Char.ofNat b.toNat)

theorem utf8_ofAscii {bytes : List UInt8} (h : ∀ b ∈ bytes, b < 128) :
    utf8 (ofAscii bytes) = bytes := by
  have htoNat : ∀ b ∈ bytes, (Char.ofNat b.toNat).toNat = b.toNat := by
    intro b hb
    have hlt : b.toNat < 128 := UInt8.lt_iff_toNat_lt.mp (h b hb)
    have hvalid : b.toNat.isValidChar := .inl (Nat.lt_trans hlt (by decide))
    rw [Char.ofNat, dif_pos hvalid]
    rfl
  have hascii : ∀ c ∈ bytes.map (fun b => Char.ofNat b.toNat), c.toNat < 128 := by
    intro c hc
    obtain ⟨b, hb, rfl⟩ := List.mem_map.mp hc
    rw [htoNat b hb]
    exact UInt8.lt_iff_toNat_lt.mp (h b hb)
  rw [ofAscii, utf8_ascii hascii, List.map_map]
  conv => rhs; rw [← List.map_id bytes]
  apply List.map_congr_left
  intro b hb
  show (Char.ofNat b.toNat).toNat.toUInt8 = b
  rw [htoNat b hb]
  exact UInt8.ofNat_toNat

/-- The values of a name in a list of headers. -/
def valuesOf {α : Type} (headers : List (String × α)) (name : String) : List α :=
  headers.filterMap fun (n, value) => if n = name then some value else none

theorem valuesOf_append {α : Type} (headers : List (String × α)) (n : String) (value : α)
    (name : String) : valuesOf (headers ++ [(n, value)]) name =
      valuesOf headers name ++ if n = name then [value] else [] := by
  rw [valuesOf, List.filterMap_append, ← valuesOf]
  congr 1
  by_cases h : n = name <;> simp [h]

/-- Without the other values of its name. -/
theorem valuesOf_insert {α : Type} (headers : List (String × α)) (n : String) (value : α)
    (name : String) :
    valuesOf (headers.filter (fun header => header.1 ≠ n) ++ [(n, value)]) name =
      if n = name then [value] else valuesOf headers name := by
  rw [valuesOf_append, valuesOf, List.filterMap_filter]
  by_cases h : n = name
  · subst h
    rw [if_pos rfl, if_pos rfl]
    refine (congrArg (· ++ [value]) ?_).trans (List.nil_append _)
    apply List.filterMap_eq_nil_iff.mpr
    intro header _
    by_cases hname : header.1 = n <;> simp [hname]
  · rw [if_neg h, if_neg h, List.append_nil, valuesOf]
    apply List.filterMap_congr
    intro header _
    by_cases hname : header.1 = name
    · simp [hname, Ne.symm h]
    · simp [hname]

/-- Header maps as lists, in the order of insertion; every text but the empty one is a URI. -/
def Http.ofLists : Http where
  Method := List UInt8
  Uri := String
  HeaderName := String
  HeaderValue := { bytes : List UInt8 // ∀ b ∈ bytes, IsAdmitted b }
  HeaderMap := List (String × { bytes : List UInt8 // ∀ b ∈ bytes, IsAdmitted b })
  methodGet := [71, 69, 84]
  defaultUri := "/"
  host := "host"
  methodFromBytes bytes := if bytes = [] then none else some bytes
  uriTryFrom s :=
    if s = "" then .error "empty string"
    else if 65534 < s.utf8ByteSize then .error "uri too long"
    else .ok s
  nameFromBytes bytes := if bytes = [] then none else some (asciiLowercase (ofAscii bytes))
  nameFromStatic := asciiLowercase
  nameAsStr := id
  valueFromStr s := if h : ∀ b ∈ utf8 s, IsAdmitted b then some ⟨utf8 s, h⟩ else none
  valueAsBytes value := value.val
  valueToStr value := if ∀ b ∈ value.val, IsVisible b then some (ofAscii value.val) else none
  emptyMap := []
  insert headers name value := headers.filter (fun header => header.1 ≠ name) ++ [(name, value)]
  append headers name value := headers ++ [(name, value)]
  iter := id
  find headers name := (valuesOf headers name).head?

theorem Http.lawful_ofLists : Http.ofLists.Lawful where
  nameAsStr_fromStatic _ _ := rfl
  toStr_eq value s h := by
    obtain ⟨hvisible, ⟨⟩⟩ := Option.ite_none_right_eq_some.mp h
    apply utf8_ofAscii
    intro b hb
    rcases hvisible b hb with rfl | ⟨_, hlt⟩
    · decide
    · exact UInt8.lt_trans hlt (by decide)
  toStr_isSome value := by
    show (if ∀ b ∈ value.val, IsVisible b then some (ofAscii value.val) else none).isSome = true ↔ _
    rw [Option.isSome_ite]
    rfl
  fromStr_eq s h := ⟨⟨utf8 s, h⟩, dif_pos h, rfl⟩
  getAll_emptyMap _ := rfl
  getAll_insert := valuesOf_insert
  getAll_append := valuesOf_append
  find_eq _ _ := rfl

/-! ## Requests and responses -/

/-- The body of a request: `Body::empty()`, or a reader of the stream it came on. -/
inductive RequestBody where
  | empty
  | stream
  deriving DecidableEq, Repr

structure Request (H : Http) where
  method : H.Method
  uri : H.Uri
  headers : H.HeaderMap
  body : RequestBody

/-- `Request::tcp`. -/
def Request.tcp (H : Http) (host : String) : Request H where
  method := H.methodGet
  uri :=
    match H.uriTryFrom ("http://" ++ host) with
    | .ok uri => uri
    | .error _ => H.defaultUri
  headers := H.emptyMap
  body := .empty

/-- The body of a response: what its reads find, and how they end. A read that finds nothing is the
end. -/
structure Body where
  pieces : List (List UInt8)
  ending : Except IoError Unit
  pieces_ne_nil : ∀ piece ∈ pieces, piece ≠ []

def Body.empty : Body := ⟨[], .ok (), nofun⟩

structure Response (H : Http) where
  status : UInt16
  headers : H.HeaderMap
  body : Body

/-- `websocket::WebSocketConnection`, with the origin's side of the stream by its name. -/
structure WebSocketConnection (H : Http) (Stream : Type) where
  response : Response H
  origin : Stream

end Libcfd.Origin

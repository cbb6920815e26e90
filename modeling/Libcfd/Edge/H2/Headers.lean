import Mathlib.Data.Bool.AllAny
import Libcfd.Edge.Metadata
import Libcfd.Foundation.Base64
import Libcfd.Foundation.Text

/-!
# Response headers

Over HTTP/2 the headers of a response travel serialized in one header, over QUIC as metadata
entries. Either codec gives back what it was given, but it is given texts: a header value goes
through `to_str` first, and one that is not visible ASCII is replaced by the empty text there. So a
response arrives as it was sent if and only if all its values are visible ASCII.
-/

namespace Libcfd.Edge.H2

open Libcfd.Origin

/-- `STANDARD_NO_PAD` of the `base64` crate, and `String::from_utf8_lossy`. -/
structure TextCodec where
  encode : List UInt8 → String
  decode : String → Option (List UInt8)
  fromUtf8Lossy : List UInt8 → String

structure TextCodec.Lawful (B : TextCodec) : Prop where
  decode_encode : ∀ bytes, B.decode (B.encode bytes) = some bytes
  encode_alphabet : ∀ bytes, ∀ c ∈ (B.encode bytes).toList, c ∈ Base64.alphabet
  -- what is UTF-8 stays as it is
  fromUtf8Lossy_utf8 : ∀ s, B.fromUtf8Lossy (utf8 s) = s

def TextCodec.standardNoPad : TextCodec where
  encode bytes := String.ofList (Base64.encode bytes)
  decode s := Base64.decode s.toList
  fromUtf8Lossy bytes := (String.fromUTF8? bytes.toByteArray).getD "\uFFFD"

theorem TextCodec.lawful_standardNoPad : TextCodec.standardNoPad.Lawful where
  decode_encode bytes := by
    show Base64.decode (String.ofList (Base64.encode bytes)).toList = _
    rw [String.toList_ofList, Base64.decode_encode]
  encode_alphabet bytes c h := by
    apply Base64.mem_alphabet_of_mem_encode
    rwa [← String.toList_ofList (l := Base64.encode bytes)]
  fromUtf8Lossy_utf8 s := by
    show (String.fromUTF8? (utf8 s).toByteArray).getD _ = s
    rw [toByteArray_utf8, String.fromUTF8?, dif_pos s.isValidUTF8]
    rfl

/-! ## Serialization -/

section Serialize

variable (B : TextCodec)

def encodeBase64 (input : String) : String := B.encode (utf8 input)

def decodeBase64 (input : String) : Option String := (B.decode input).map B.fromUtf8Lossy

/-- One more header. -/
def pushHeader (out : String) (header : String × String) : String :=
  (if out.isEmpty then out else out ++ ";") ++ encodeBase64 B header.1 ++ ":" ++
    encodeBase64 B header.2

def serializeHeaders (headers : List (String × String)) : String :=
  headers.foldl (pushHeader B) ""

def deserializePair (pair : List Char) : Option (String × String) := do
  if pair.isEmpty then none
  let (name, value) ← Text.splitOnce ':' pair
  let name ← decodeBase64 B (String.ofList name)
  let value ← decodeBase64 B (String.ofList value)
  return (name, value)

def deserializeHeaders (serialized : String) : List (String × String) :=
  (serialized.toList.splitOn ';').filterMap (deserializePair B)

end Serialize

/-! ### The round trip -/

section RoundTrip

variable {B : TextCodec}

/-- A header as it is serialized. -/
def pairChars (B : TextCodec) (header : String × String) : List Char :=
  (encodeBase64 B header.1).toList ++ ':' :: (encodeBase64 B header.2).toList

theorem ne_of_mem_encodeBase64 (hB : B.Lawful) {s : String} {c : Char}
    (h : c ∈ (encodeBase64 B s).toList) : c ≠ ':' ∧ c ≠ ';' := by
  have hall : ∀ c ∈ Base64.alphabet, c ≠ ':' ∧ c ≠ ';' :=
    List.all_iff_forall_prop.mp (by decide +kernel)
  exact hall c (hB.encode_alphabet _ c h)

theorem decodeBase64_encodeBase64 (hB : B.Lawful) (s : String) :
    decodeBase64 B (encodeBase64 B s) = some s := by
  rw [decodeBase64, encodeBase64, hB.decode_encode, Option.map_some, hB.fromUtf8Lossy_utf8]

theorem deserializePair_pairChars (hB : B.Lawful) (header : String × String) :
    deserializePair B (pairChars B header) = some header := by
  have hsplit : Text.splitOnce ':' (pairChars B header) =
      some ((encodeBase64 B header.1).toList, (encodeBase64 B header.2).toList) := by
    apply Text.splitOnce_append
    intro c hc
    exact (ne_of_mem_encodeBase64 hB hc).1
  have hne : (pairChars B header).isEmpty = false := by simp [pairChars]
  simp [deserializePair, hne, hsplit, decodeBase64_encodeBase64 hB]

theorem semicolon_not_mem_pairChars (hB : B.Lawful) (header : String × String) :
    ';' ∉ pairChars B header := by
  intro h
  rcases List.mem_append.mp h with hname | hvalue
  · exact (ne_of_mem_encodeBase64 hB hname).2 rfl
  · rcases List.mem_cons.mp hvalue with hcolon | hvalue
    · cases hcolon
    · exact (ne_of_mem_encodeBase64 hB hvalue).2 rfl

theorem intercalate_cons (sep : Char) (pair : List Char) (pairs : List (List Char)) :
    [sep].intercalate (pair :: pairs) = pair ++ pairs.flatMap (sep :: ·) := by
  induction pairs generalizing pair with
  | nil =>
      rw [List.intercalate_singleton]
      exact (List.append_nil pair).symm
  | cons next pairs ih =>
      rw [List.intercalate_cons_cons, ih, List.flatMap_cons, List.append_assoc]
      rfl

theorem toList_pushHeader {out : String} (hout : out ≠ "") (header : String × String) :
    (pushHeader B out header).toList = out.toList ++ ';' :: pairChars B header := by
  have hempty : out.isEmpty = false := by
    rw [Bool.eq_false_iff]
    intro h
    exact hout (String.isEmpty_iff.mp h)
  simp [pushHeader, hempty, pairChars]

theorem toList_foldl_pushHeader {out : String} (hout : out ≠ "")
    (headers : List (String × String)) :
    (headers.foldl (pushHeader B) out).toList =
      out.toList ++ (headers.map (pairChars B)).flatMap (';' :: ·) := by
  induction headers generalizing out with
  | nil => exact (List.append_nil _).symm
  | cons header headers ih =>
      have hpush := toList_pushHeader (B := B) hout header
      have hne : pushHeader B out header ≠ "" := by
        intro h
        rw [h] at hpush
        exact List.append_ne_nil_of_right_ne_nil _ (List.cons_ne_nil _ _) hpush.symm
      rw [List.foldl_cons, ih hne, hpush, List.map_cons, List.flatMap_cons, List.append_assoc]

theorem toList_serializeHeaders (headers : List (String × String)) :
    (serializeHeaders B headers).toList = [';'].intercalate (headers.map (pairChars B)) := by
  cases headers with
  | nil => rfl
  | cons header headers =>
      have hfirst : (pushHeader B "" header).toList = pairChars B header := by
        simp [pushHeader, pairChars]
      have hne : pushHeader B "" header ≠ "" := by
        intro h
        rw [h] at hfirst
        exact List.append_ne_nil_of_right_ne_nil _ (List.cons_ne_nil _ _) hfirst.symm
      show ((headers.foldl (pushHeader B) (pushHeader B "" header))).toList = _
      rw [toList_foldl_pushHeader hne, hfirst, List.map_cons, intercalate_cons]

/-- **What is serialized is deserialized.** -/
theorem deserialize_serializeHeaders (hB : B.Lawful) (headers : List (String × String)) :
    deserializeHeaders B (serializeHeaders B headers) = headers := by
  rw [deserializeHeaders, toList_serializeHeaders]
  by_cases hempty : headers = []
  · subst hempty
    rfl
  · have hne : headers.map (pairChars B) ≠ [] := by
      rw [Ne, List.map_eq_nil_iff]
      exact hempty
    have hall : ∀ pair ∈ headers.map (pairChars B), ';' ∉ pair := by
      intro pair hpair
      obtain ⟨header, _, rfl⟩ := List.mem_map.mp hpair
      exact semicolon_not_mem_pairChars hB header
    rw [List.splitOn_intercalate ';' hall hne, List.filterMap_map]
    have hpairs : deserializePair B ∘ pairChars B = some := by
      funext header
      exact deserializePair_pairChars hB header
    rw [hpairs, List.filterMap_some]

/-- **Serializing loses nothing**: not the order of the headers, and not how often one comes. -/
theorem serializeHeaders_leftInverse (hB : B.Lawful) :
    Function.LeftInverse (deserializeHeaders B) (serializeHeaders B) ∧
      Function.Injective (serializeHeaders B) := by
  have hinverse : Function.LeftInverse (deserializeHeaders B) (serializeHeaders B) :=
    deserialize_serializeHeaders hB
  exact ⟨hinverse, hinverse.injective⟩

theorem serializeHeaders_leftInverse_standardNoPad :
    Function.LeftInverse (deserializeHeaders .standardNoPad) (serializeHeaders .standardNoPad) ∧
      Function.Injective (serializeHeaders .standardNoPad) :=
  serializeHeaders_leftInverse TextCodec.lawful_standardNoPad

end RoundTrip

/-! ## `encode_response_headers` -/

/-- `RESPONSE_USER_HEADERS`. -/
def responseUserHeaders : String := "cf-cloudflared-response-headers"

/-- `RESPONSE_METADATA_HEADER`. -/
def responseMetadataHeader : String := "cf-cloudflared-response-meta"

/-- `RESPONSE_METADATA_ORIGIN`. -/
def responseMetadataOrigin : String := "\x7b\"src\":\"origin\"\x7d"

def tracingInternalHeader : String := "cf-int-cloudflared-tracing"

def isControlResponseHeader (name : String) : Bool :=
  startsWith name ":" || startsWith name "cf-int-" || startsWith name "cf-cloudflared-" ||
    startsWith name "cf-proxy-"

def isWebsocketClientHeader (name : String) : Bool :=
  name = "sec-websocket-accept" || name = "connection" || name = "upgrade"

section Encode

variable (H : Http) (B : TextCodec)

/-- A `content-length` passes through as a header of its own; `none` where an `unwrap` panics. -/
def passContentLength (headers : H.HeaderMap) (name : H.HeaderName) (lower value : String) :
    Option H.HeaderMap :=
  if lower = "content-length" then (H.valueFromStr value).map (H.append headers name)
  else some headers

/-- The headers so far, the user headers so far, and one more header of the response. -/
def encodeHeader (state : H.HeaderMap × List (String × String))
    (header : H.HeaderName × H.HeaderValue) : Option (H.HeaderMap × List (String × String)) := do
  let value := (H.valueToStr header.2).getD ""
  let lower := asciiLowercase (H.nameAsStr header.1)
  let headers ← passContentLength H state.1 header.1 lower value
  if lower = tracingInternalHeader then
    let value ← H.valueFromStr value
    return (H.insert headers (H.nameFromStatic "Cf-Int-Cloudflared-Tracing") value, state.2)
  else if !isControlResponseHeader lower || isWebsocketClientHeader lower then
    return (headers, state.2 ++ [(H.nameAsStr header.1, value)])
  else
    return (headers, state.2)

/-- The user headers, serialized in a header of their own if there are any. -/
def insertUserHeaders (headers : H.HeaderMap) (users : List (String × String)) :
    Option H.HeaderMap :=
  if users.isEmpty then some headers
  else
    (H.valueFromStr (serializeHeaders B users)).map
      (H.insert headers (H.nameFromStatic responseUserHeaders))

def encodeResponseHeaders (response : Response H) : Option H.HeaderMap := do
  let (headers, users) ← (H.iter response.headers).foldlM (encodeHeader H) (H.emptyMap, [])
  let headers ← insertUserHeaders H B headers users
  let origin ← H.valueFromStr responseMetadataOrigin
  return H.insert headers (H.nameFromStatic responseMetadataHeader) origin

end Encode

/-! ## What arrives -/

section Arrives

variable {H : Http} {B : TextCodec}

/-- What a header value is turned into. -/
def valueText (H : Http) (value : H.HeaderValue) : String := (H.valueToStr value).getD ""

/-- A header of the origin's own, not one the edge or `cloudflared` keep for themselves. -/
def isUserHeader (name : String) : Bool :=
  !isControlResponseHeader (asciiLowercase name) || isWebsocketClientHeader (asciiLowercase name)

/-- The headers of a response that are not reserved. -/
def userHeaders (response : Response H) : List (H.HeaderName × H.HeaderValue) :=
  (H.iter response.headers).filter fun header => isUserHeader (H.nameAsStr header.1)

/-- A header by its name and the text of its value. -/
def headerText (H : Http) (header : H.HeaderName × H.HeaderValue) : String × String :=
  (H.nameAsStr header.1, valueText H header.2)

theorem valuesOf_userHeaders (response : Response H) {name : String}
    (hname : isUserHeader name = true) :
    valuesOf ((userHeaders response).map (headerText H)) name =
      (H.getAll response.headers name).map (valueText H) := by
  rw [valuesOf, List.filterMap_map, userHeaders, List.filterMap_filter, Http.getAll,
    List.map_filterMap]
  apply List.filterMap_congr
  intro header _
  by_cases heq : H.nameAsStr header.1 = name
  · simp [heq, hname, headerText]
  · simp [heq, headerText]

/-- A header by its name and the bytes of its value. -/
def headerBytes (H : Http) (header : H.HeaderName × H.HeaderValue) : String × List UInt8 :=
  (H.nameAsStr header.1, H.valueAsBytes header.2)

theorem utf8_valueText_iff (hH : H.Lawful) (value : H.HeaderValue) :
    utf8 (valueText H value) = H.valueAsBytes value ↔ ∀ b ∈ H.valueAsBytes value, IsVisible b := by
  rw [← hH.toStr_isSome, valueText]
  cases htext : H.valueToStr value with
  | some s => exact iff_of_true (hH.toStr_eq value s htext) rfl
  | none =>
      apply iff_of_false
      · intro hempty
        -- an empty value would have been taken
        have hvisible : ∀ b ∈ H.valueAsBytes value, IsVisible b := by
          intro b hb
          rw [← hempty] at hb
          cases hb
        have hsome := (hH.toStr_isSome value).mpr hvisible
        rw [htext] at hsome
        cases hsome
      · nofun

theorem exists_fromStr_valueText (hH : H.Lawful) (value : H.HeaderValue) :
    ∃ value', H.valueFromStr (valueText H value) = some value' ∧
      H.valueAsBytes value' = utf8 (valueText H value) := by
  have hadmitted : ∀ b ∈ utf8 (valueText H value), IsAdmitted b := by
    intro b hb
    cases htext : H.valueToStr value with
    | none =>
        rw [valueText, htext] at hb
        cases hb
    | some s =>
        rw [valueText, htext] at hb
        rw [Option.getD_some, hH.toStr_eq value s htext] at hb
        have hvisible := (hH.toStr_isSome value).mp (by rw [htext]; rfl)
        exact (hvisible b hb).admitted
  exact hH.fromStr_eq _ hadmitted

theorem isUserHeader_tracing {name : String} (h : asciiLowercase name = tracingInternalHeader) :
    isUserHeader name = false := by
  rw [isUserHeader, h]
  decide

theorem passContentLength_eq (hH : H.Lawful) (headers : H.HeaderMap) (name : H.HeaderName)
    (value : H.HeaderValue) :
    ∃ headers', passContentLength H headers name (asciiLowercase (H.nameAsStr name))
        (valueText H value) = some headers' ∧
      H.getAll headers' responseUserHeaders = H.getAll headers responseUserHeaders := by
  unfold passContentLength
  split
  · next hname =>
      obtain ⟨value', hvalue, _⟩ := exists_fromStr_valueText hH value
      have hne : H.nameAsStr name ≠ responseUserHeaders := by
        intro h
        rw [h] at hname
        revert hname
        decide
      rw [hvalue]
      refine ⟨_, rfl, ?_⟩
      rw [hH.getAll_append, if_neg hne, List.append_nil]
  · exact ⟨headers, rfl, rfl⟩

/-- One header of the response: it is among the user headers unless it is reserved, and the header
they travel in is not touched. -/
theorem encodeHeader_eq (hH : H.Lawful) (headers : H.HeaderMap) (users : List (String × String))
    (header : H.HeaderName × H.HeaderValue) :
    ∃ headers', encodeHeader H (headers, users) header =
        some (headers', users ++
          if isUserHeader (H.nameAsStr header.1) then [headerText H header] else []) ∧
      H.getAll headers' responseUserHeaders = H.getAll headers responseUserHeaders := by
  obtain ⟨headers', hpass, hkept⟩ := passContentLength_eq hH headers header.1 header.2
  unfold encodeHeader
  rw [valueText] at hpass
  simp only [hpass, Option.bind_eq_bind, Option.bind_some]
  by_cases htracing : asciiLowercase (H.nameAsStr header.1) = tracingInternalHeader
  · obtain ⟨value, hvalue, _⟩ := exists_fromStr_valueText hH header.2
    have hname : H.nameAsStr (H.nameFromStatic "Cf-Int-Cloudflared-Tracing") ≠
        responseUserHeaders := by
      rw [hH.nameAsStr_fromStatic _ (List.all_iff_forall_prop.mp (by decide))]
      decide
    refine ⟨H.insert headers' (H.nameFromStatic "Cf-Int-Cloudflared-Tracing") value, ?_, ?_⟩
    · rw [valueText] at hvalue
      rw [if_pos htracing, hvalue, isUserHeader_tracing htracing, if_neg Bool.false_ne_true,
        List.append_nil]
      rfl
    · rw [hH.getAll_insert, if_neg hname, hkept]
  · refine ⟨headers', ?_, hkept⟩
    rw [if_neg htracing]
    by_cases huser : isUserHeader (H.nameAsStr header.1) = true
    · rw [if_pos huser]
      exact if_pos huser
    · rw [if_neg huser, List.append_nil]
      exact if_neg huser

theorem foldlM_encodeHeader (hH : H.Lawful) (entries : List (H.HeaderName × H.HeaderValue))
    (headers : H.HeaderMap) (users : List (String × String)) :
    ∃ headers', entries.foldlM (encodeHeader H) (headers, users) =
        some (headers', users ++
          (entries.filter fun header => isUserHeader (H.nameAsStr header.1)).map (headerText H)) ∧
      H.getAll headers' responseUserHeaders = H.getAll headers responseUserHeaders := by
  induction entries generalizing headers users with
  | nil =>
      refine ⟨headers, ?_, rfl⟩
      rw [List.filter_nil, List.map_nil, List.append_nil]
      rfl
  | cons header entries ih =>
      obtain ⟨headers', hone, hkept⟩ := encodeHeader_eq hH headers users header
      obtain ⟨headers'', hrest, hkept'⟩ := ih headers'
        (users ++ if isUserHeader (H.nameAsStr header.1) then [headerText H header] else [])
      have hfilter : (if isUserHeader (H.nameAsStr header.1) then [headerText H header] else []) ++
          (entries.filter fun header => isUserHeader (H.nameAsStr header.1)).map (headerText H) =
          ((header :: entries).filter fun header => isUserHeader (H.nameAsStr header.1)).map
            (headerText H) := by
        by_cases huser : isUserHeader (H.nameAsStr header.1) = true
        · rw [if_pos huser, List.filter_cons_of_pos (by simpa using huser)]
          rfl
        · rw [if_neg huser, List.filter_cons_of_neg (by simpa using huser)]
          rfl
      refine ⟨headers'', ?_, hkept'.trans hkept⟩
      rw [List.foldlM_cons, hone, ← hfilter, ← List.append_assoc]
      exact hrest

theorem mem_of_mem_pairChars (hB : B.Lawful) {header : String × String} {c : Char}
    (h : c ∈ pairChars B header) : c ∈ ':' :: ';' :: Base64.alphabet := by
  rcases List.mem_append.mp h with hname | hvalue
  · exact .tail _ (.tail _ (hB.encode_alphabet _ c hname))
  · rcases List.mem_cons.mp hvalue with rfl | hvalue
    · exact .head _
    · exact .tail _ (.tail _ (hB.encode_alphabet _ c hvalue))

theorem isVisible_of_mem_serializeHeaders (hB : B.Lawful) (headers : List (String × String)) :
    ∀ b ∈ utf8 (serializeHeaders B headers), IsVisible b := by
  have halphabet : ∀ c ∈ ':' :: ';' :: Base64.alphabet,
      c.toNat < 128 ∧ IsVisible c.toNat.toUInt8 :=
    List.all_iff_forall_prop.mp (by decide +kernel)
  have hchars : ∀ c ∈ (serializeHeaders B headers).toList, c ∈ ':' :: ';' :: Base64.alphabet := by
    intro c hc
    rw [toList_serializeHeaders] at hc
    cases headers with
    | nil => cases hc
    | cons header headers =>
        rw [List.map_cons, intercalate_cons] at hc
        rcases List.mem_append.mp hc with hfirst | hrest
        · exact mem_of_mem_pairChars hB hfirst
        · obtain ⟨pair, hpair, hc⟩ := List.mem_flatMap.mp hrest
          obtain ⟨header', _, rfl⟩ := List.mem_map.mp hpair
          rcases List.mem_cons.mp hc with rfl | hc
          · exact .tail _ (.head _)
          · exact mem_of_mem_pairChars hB hc
  have hascii := utf8_ascii fun c hc => (halphabet c (hchars c hc)).1
  rw [String.ofList_toList] at hascii
  intro b hb
  rw [hascii] at hb
  obtain ⟨c, hc, rfl⟩ := List.mem_map.mp hb
  exact (halphabet c (hchars c hc)).2

/-- The headers the edge finds in what it is sent. -/
def arrivedHeaders (H : Http) (B : TextCodec) (headers : H.HeaderMap) : List (String × String) :=
  match (H.find headers responseUserHeaders).bind H.valueToStr with
  | some serialized => deserializeHeaders B serialized
  | none => []

theorem encodeResponseHeaders_eq (hH : H.Lawful) (hB : B.Lawful) (response : Response H) :
    ∃ headers, encodeResponseHeaders H B response = some headers ∧
      arrivedHeaders H B headers = (userHeaders response).map (headerText H) := by
  obtain ⟨headers, hfold, hkept⟩ := foldlM_encodeHeader hH (H.iter response.headers) H.emptyMap []
  rw [List.nil_append, ← userHeaders] at hfold
  rw [hH.getAll_emptyMap] at hkept
  obtain ⟨origin, horigin, _⟩ := hH.fromStr_eq responseMetadataOrigin
    (List.all_iff_forall_prop.mp (by decide))
  have hmeta : H.nameAsStr (H.nameFromStatic responseMetadataHeader) ≠ responseUserHeaders := by
    rw [hH.nameAsStr_fromStatic _ (List.all_iff_forall_prop.mp (by decide))]
    decide
  have huser : H.nameAsStr (H.nameFromStatic responseUserHeaders) = responseUserHeaders := by
    rw [hH.nameAsStr_fromStatic _ (List.all_iff_forall_prop.mp (by decide))]
    decide
  unfold encodeResponseHeaders insertUserHeaders arrivedHeaders
  simp only [hfold, horigin, Option.bind_eq_bind, Option.bind_some]
  by_cases hempty : ((userHeaders response).map (headerText H)).isEmpty = true
  · refine ⟨_, by rw [if_pos hempty]; rfl, ?_⟩
    rw [hH.find_eq, hH.getAll_insert, if_neg hmeta, hkept, List.isEmpty_iff.mp hempty]
    rfl
  · have hvisible := isVisible_of_mem_serializeHeaders hB ((userHeaders response).map (headerText H))
    obtain ⟨value, hvalue, hbytes⟩ := hH.fromStr_eq _ fun b hb => (hvisible b hb).admitted
    refine ⟨_, by rw [if_neg hempty, hvalue]; rfl, ?_⟩
    rw [hH.find_eq, hH.getAll_insert, if_neg hmeta, hH.getAll_insert, if_pos huser, List.head?_cons,
      Option.bind_some]
    have hsome := (hH.toStr_isSome value).mpr (by rw [hbytes]; exact hvisible)
    obtain ⟨serialized, hserialized⟩ := Option.isSome_iff_exists.mp hsome
    have heq := utf8_injective ((hH.toStr_eq value serialized hserialized).trans hbytes)
    rw [hserialized, heq]
    exact deserialize_serializeHeaders hB _

/-- Over HTTP/2 the headers that are not reserved arrive as they are, or the response fails. -/
def CarriedOverH2 (B : TextCodec) (response : Response H) : Prop :=
  ∀ headers, encodeResponseHeaders H B response = some headers →
    (arrivedHeaders H B headers).map (fun header => (header.1, utf8 header.2)) =
      (userHeaders response).map (headerBytes H)

/-- Over QUIC likewise. -/
def CarriedOverQuic (response : Response H) : Prop :=
  ((metadataHeaders (encodeResponseMetadata H response)).filter fun header =>
      isUserHeader header.1).map (fun header => (header.1, utf8 header.2)) =
    (userHeaders response).map (headerBytes H)

/-- No header of the response that is not reserved has a byte outside visible ASCII. -/
def IsVisibleResponse (response : Response H) : Prop :=
  ∀ header ∈ userHeaders response, ∀ b ∈ H.valueAsBytes header.2, IsVisible b

theorem map_headerText_eq_iff (hH : H.Lawful) (headers : List (H.HeaderName × H.HeaderValue)) :
    (headers.map (headerText H)).map (fun header => (header.1, utf8 header.2)) =
        headers.map (headerBytes H) ↔
      ∀ header ∈ headers, ∀ b ∈ H.valueAsBytes header.2, IsVisible b := by
  rw [List.map_map, List.map_inj_left]
  refine forall₂_congr fun header _ => ?_
  rw [← utf8_valueText_iff hH]
  exact ⟨fun h => congrArg Prod.snd h, fun h => Prod.ext rfl h⟩

/-- **A response arrives with its headers as they are if and only if their values are visible
ASCII**, over either transport; a response never fails over a header. -/
theorem responseHeaders_carried_iff (hH : H.Lawful) (hB : B.Lawful) (response : Response H) :
    (CarriedOverH2 B response ↔ IsVisibleResponse response) ∧
      (CarriedOverQuic response ↔ IsVisibleResponse response) ∧
      (encodeResponseHeaders H B response).isSome = true := by
  obtain ⟨headers, hencode, harrived⟩ := encodeResponseHeaders_eq hH hB response
  refine ⟨?_, ?_, by rw [hencode]; rfl⟩
  · rw [IsVisibleResponse, ← map_headerText_eq_iff hH, ← harrived]
    constructor
    · intro h
      exact h headers hencode
    · intro h headers' hencode'
      rw [hencode] at hencode'
      cases hencode'
      exact h
  · have hfilter : ((H.iter response.headers).map (headerText H)).filter
        (fun header => isUserHeader header.1) = (userHeaders response).map (headerText H) := by
      rw [List.filter_map, Function.comp_def, userHeaders]
      rfl
    have hmetadata : metadataHeaders (encodeResponseMetadata H response) =
        (H.iter response.headers).map (headerText H) := metadataHeaders_encode H response
    rw [IsVisibleResponse, ← map_headerText_eq_iff hH, ← hfilter, CarriedOverQuic, hmetadata]

end Arrives

/-! ## On concrete responses -/

/-- A response with one header. -/
def oneHeader (name : String) (value : Http.ofLists.HeaderValue) : Response Http.ofLists where
  status := 200
  headers := Http.ofLists.append Http.ofLists.emptyMap (Http.ofLists.nameFromStatic name) value
  body := .empty

/-- "content-type: text/plain". -/
theorem carried_textPlain :
    CarriedOverH2 .standardNoPad (oneHeader "content-type"
        ⟨[116, 101, 120, 116, 47, 112, 108, 97, 105, 110],
          List.all_iff_forall_prop.mp (by decide)⟩) ∧
      CarriedOverQuic (oneHeader "content-type"
        ⟨[116, 101, 120, 116, 47, 112, 108, 97, 105, 110],
          List.all_iff_forall_prop.mp (by decide)⟩) := by
  have hvisible : IsVisibleResponse (oneHeader "content-type"
      ⟨[116, 101, 120, 116, 47, 112, 108, 97, 105, 110],
        List.all_iff_forall_prop.mp (by decide)⟩) := by
    intro header h b hb
    obtain ⟨h, _⟩ := List.mem_filter.mp h
    cases List.mem_singleton.mp h
    exact List.all_iff_forall_prop.mp (by decide) b hb
  obtain ⟨hH2, hQuic, _⟩ := responseHeaders_carried_iff Http.lawful_ofLists
    TextCodec.lawful_standardNoPad (oneHeader "content-type"
      ⟨[116, 101, 120, 116, 47, 112, 108, 97, 105, 110],
        List.all_iff_forall_prop.mp (by decide)⟩)
  exact ⟨hH2.mpr hvisible, hQuic.mpr hvisible⟩

/-- "location: /é" in UTF-8 arrives as an empty location. -/
theorem location_emptied :
    ¬ CarriedOverH2 .standardNoPad (oneHeader "location" ⟨[47, 0xC3, 0xA9],
        List.all_iff_forall_prop.mp (by decide)⟩) ∧
      ¬ CarriedOverQuic (oneHeader "location" ⟨[47, 0xC3, 0xA9],
        List.all_iff_forall_prop.mp (by decide)⟩) := by
  constructor
  · intro h
    obtain ⟨headers, hencode, harrived⟩ := encodeResponseHeaders_eq Http.lawful_ofLists
      TextCodec.lawful_standardNoPad (oneHeader "location" ⟨[47, 0xC3, 0xA9],
        List.all_iff_forall_prop.mp (by decide)⟩)
    have heq := h headers hencode
    rw [harrived] at heq
    revert heq
    decide
  · unfold CarriedOverQuic
    decide

end Libcfd.Edge.H2

import Libcfd.Edge.H2.Headers
import Libcfd.Origin.HeaderNames

/-!
# Reserved headers

What the edge is sent of a response is at most four headers: the content length, the tracing header,
the fixed mark that the response is the origin's, and one header in which all headers of the response
travel whose names are not reserved. Of the reserved families the origin can set the tracing header
and no other.
-/

namespace Libcfd.Edge.H2

open Libcfd.Origin

variable {H : Http} {B : TextCodec}

/-- A name of the families `cf-int-*`, `cf-cloudflared-*`, `cf-proxy-*`. -/
def isReserved (name : String) : Bool :=
  startsWith name "cf-int-" || startsWith name "cf-cloudflared-" || startsWith name "cf-proxy-"

/-- The headers of a response whose names are not reserved. -/
def unreserved (response : Response H) : List (H.HeaderName × H.HeaderValue) :=
  (H.iter response.headers).filter fun header => !isReserved (H.nameAsStr header.1)

/-- What is sent of a header value: its bytes where they are visible ASCII, else nothing. -/
def sentBytes (bytes : List UInt8) : List UInt8 :=
  if ∀ b ∈ bytes, IsVisible b then bytes else []

/-- A header by its name and what is sent of its value. -/
def sentHeader (H : Http) (header : H.HeaderName × H.HeaderValue) : String × List UInt8 :=
  (H.nameAsStr header.1, sentBytes (H.valueAsBytes header.2))

/-- The bytes of the values of a name. -/
def bytesOf (headers : H.HeaderMap) (name : String) : List (List UInt8) :=
  (H.getAll headers name).map H.valueAsBytes

/-- The headers the edge is sent. -/
def sentNames : List String :=
  ["content-length", tracingInternalHeader, responseUserHeaders, responseMetadataHeader]

/-- The headers the edge is sent of a response, by their names. -/
structure Partition (B : TextCodec) (response : Response H) (headers : H.HeaderMap) : Prop where
  names : ∀ header ∈ H.iter headers, H.nameAsStr header.1 ∈ sentNames
  origin : bytesOf headers responseMetadataHeader = [utf8 responseMetadataOrigin]
  contentLength : bytesOf headers "content-length" =
    (bytesOf response.headers "content-length").map sentBytes
  arrived : (arrivedHeaders H B headers).map (fun header => (header.1, utf8 header.2)) =
    (unreserved response).map (sentHeader H)
  absent : bytesOf headers responseUserHeaders = [] ↔ unreserved response = []
  -- reserved headers have no say in what is sent, but for the tracing header
  unspoofed : ∀ response' headers', encodeResponseHeaders H B response' = some headers' →
    (unreserved response').map (sentHeader H) = (unreserved response).map (sentHeader H) →
    ∀ name, name ≠ tracingInternalHeader → bytesOf headers' name = bytesOf headers name

/-! ## Values -/

theorem utf8_valueText (hH : H.Lawful) (value : H.HeaderValue) :
    utf8 (valueText H value) = sentBytes (H.valueAsBytes value) := by
  unfold sentBytes
  split
  · next hvisible => exact (utf8_valueText_iff hH value).mpr hvisible
  · next hvisible =>
      have hnone : H.valueToStr value = none := by
        rw [← Option.not_isSome_iff_eq_none, hH.toStr_isSome]
        exact hvisible
      rw [valueText, hnone]
      rfl

theorem valueFromStr_valueText (hH : H.Lawful) (value : H.HeaderValue) :
    ∃ value', H.valueFromStr (valueText H value) = some value' ∧
      H.valueAsBytes value' = sentBytes (H.valueAsBytes value) := by
  rw [← utf8_valueText hH]
  exact exists_fromStr_valueText hH value

theorem bytesOf_insert (hH : H.Lawful) (headers : H.HeaderMap) (n : H.HeaderName)
    (value : H.HeaderValue) (name : String) :
    bytesOf (H.insert headers n value) name =
      if H.nameAsStr n = name then [H.valueAsBytes value] else bytesOf headers name := by
  rw [bytesOf, hH.getAll_insert]
  split
  · rfl
  · rfl

theorem bytesOf_append (hH : H.Lawful) (headers : H.HeaderMap) (n : H.HeaderName)
    (value : H.HeaderValue) (name : String) :
    bytesOf (H.append headers n value) name =
      bytesOf headers name ++ if H.nameAsStr n = name then [H.valueAsBytes value] else [] := by
  rw [bytesOf, hH.getAll_append, List.map_append, ← bytesOf]
  split
  · rfl
  · rfl

theorem valueAsBytes_mem_bytesOf {headers : H.HeaderMap} {header : H.HeaderName × H.HeaderValue}
    (h : header ∈ H.iter headers) :
    H.valueAsBytes header.2 ∈ bytesOf headers (H.nameAsStr header.1) :=
  List.mem_map_of_mem (List.mem_filterMap.mpr ⟨header, h, if_pos rfl⟩)

/-! ## Names -/

theorem isUserHeader_eq (hN : H.PlainNames) (n : H.HeaderName) :
    isUserHeader (H.nameAsStr n) = !isReserved (H.nameAsStr n) := by
  have hcolon : startsWith (H.nameAsStr n) ":" = false := by
    rw [Bool.eq_false_iff, startsWith]
    intro h
    have hstart := List.isPrefixOf_iff_prefix.mp h
    exact hN.colon_not_mem n (hstart.subset (by decide))
  have hwebsocket : isWebsocketClientHeader (H.nameAsStr n) = true →
      isReserved (H.nameAsStr n) = false := by
    intro h
    simp only [isWebsocketClientHeader, Bool.or_eq_true, decide_eq_true_eq] at h
    rcases h with (h | h) | h
    all_goals
      rw [h]
      decide
  rw [isUserHeader, hN.asciiLowercase_nameAsStr, isControlResponseHeader, hcolon, Bool.false_or,
    ← isReserved]
  cases hclient : isWebsocketClientHeader (H.nameAsStr n) with
  | false => exact Bool.or_false _
  | true =>
      rw [hwebsocket hclient]
      rfl

theorem userHeaders_eq_unreserved (hN : H.PlainNames) (response : Response H) :
    userHeaders response = unreserved response := by
  apply List.filter_congr
  intro header _
  exact isUserHeader_eq hN header.1

theorem nameAsStr_static (hH : H.Lawful) {s : String}
    (h : ∀ c ∈ s.toList, c.isAlphanum = true ∨ c = '-') {name : String}
    (hs : asciiLowercase s = name) : H.nameAsStr (H.nameFromStatic s) = name := by
  rw [hH.nameAsStr_fromStatic s h, hs]

theorem nameAsStr_tracing (hH : H.Lawful) :
    H.nameAsStr (H.nameFromStatic "Cf-Int-Cloudflared-Tracing") = tracingInternalHeader :=
  nameAsStr_static hH (List.all_iff_forall_prop.mp (by decide)) (by decide)

theorem nameAsStr_user (hH : H.Lawful) :
    H.nameAsStr (H.nameFromStatic responseUserHeaders) = responseUserHeaders :=
  nameAsStr_static hH (List.all_iff_forall_prop.mp (by decide)) (by decide)

theorem nameAsStr_metadata (hH : H.Lawful) :
    H.nameAsStr (H.nameFromStatic responseMetadataHeader) = responseMetadataHeader :=
  nameAsStr_static hH (List.all_iff_forall_prop.mp (by decide)) (by decide)

/-! ## One header of the response -/

/-- What a header that is sent as `sent` adds to the values of a name. -/
def passed (name : String) (sent : String × List UInt8) : List (List UInt8) :=
  if name = "content-length" ∧ sent.1 = "content-length" then [sent.2] else []

theorem bytesOf_passContentLength (hH : H.Lawful) (hN : H.PlainNames)
    {headers headers' : H.HeaderMap} {header : H.HeaderName × H.HeaderValue}
    (h : passContentLength H headers header.1 (asciiLowercase (H.nameAsStr header.1))
      (valueText H header.2) = some headers') (name : String) :
    bytesOf headers' name = bytesOf headers name ++ passed name (sentHeader H header) := by
  unfold passContentLength at h
  rw [hN.asciiLowercase_nameAsStr] at h
  obtain ⟨value, hvalue, hbytes⟩ := valueFromStr_valueText hH header.2
  by_cases hlength : H.nameAsStr header.1 = "content-length"
  · rw [if_pos hlength, hvalue] at h
    cases h
    rw [bytesOf_append hH, hbytes, hlength]
    by_cases hname : name = "content-length"
    · rw [if_pos hname.symm, passed, if_pos ⟨hname, hlength⟩]
      rfl
    · rw [if_neg (Ne.symm hname), passed, if_neg fun h => hname h.1]
  · rw [if_neg hlength] at h
    cases h
    rw [passed, if_neg fun h => hlength h.2, List.append_nil]

theorem bytesOf_encodeHeader (hH : H.Lawful) (hN : H.PlainNames)
    {state state' : H.HeaderMap × List (String × String)} {header : H.HeaderName × H.HeaderValue}
    (h : encodeHeader H state header = some state') {name : String}
    (hname : name ≠ tracingInternalHeader) :
    bytesOf state'.1 name = bytesOf state.1 name ++ passed name (sentHeader H header) := by
  unfold encodeHeader at h
  simp only [Option.bind_eq_bind] at h
  obtain ⟨headers, hpass, h⟩ := Option.bind_eq_some_iff.mp h
  have hpassed := bytesOf_passContentLength hH hN hpass name
  split at h
  · obtain ⟨value, _, h⟩ := Option.bind_eq_some_iff.mp h
    cases h
    rw [bytesOf_insert hH, nameAsStr_tracing hH, if_neg hname.symm, hpassed]
  · split at h
    all_goals
      cases h
      exact hpassed

theorem bytesOf_foldlM_encodeHeader (hH : H.Lawful) (hN : H.PlainNames)
    {entries : List (H.HeaderName × H.HeaderValue)}
    {state state' : H.HeaderMap × List (String × String)}
    (h : entries.foldlM (encodeHeader H) state = some state') {name : String}
    (hname : name ≠ tracingInternalHeader) :
    bytesOf state'.1 name =
      bytesOf state.1 name ++ (entries.map (sentHeader H)).flatMap (passed name) := by
  induction entries generalizing state with
  | nil =>
      cases h
      exact (List.append_nil _).symm
  | cons header entries ih =>
      rw [List.foldlM_cons] at h
      obtain ⟨state₁, hone, hrest⟩ := Option.bind_eq_some_iff.mp h
      rw [ih hrest, bytesOf_encodeHeader hH hN hone hname, List.map_cons, List.flatMap_cons,
        List.append_assoc]

/-! ## All of them -/

theorem bytesOf_insertUserHeaders (hH : H.Lawful) (hB : B.Lawful) {headers headers' : H.HeaderMap}
    {users : List (String × String)} (h : insertUserHeaders H B headers users = some headers')
    (name : String) :
    bytesOf headers' name =
      if users.isEmpty = false ∧ name = responseUserHeaders then [utf8 (serializeHeaders B users)]
      else bytesOf headers name := by
  unfold insertUserHeaders at h
  cases hempty : users.isEmpty with
  | true =>
      rw [if_pos hempty] at h
      cases h
      exact (if_neg nofun).symm
  | false =>
      have hvisible := isVisible_of_mem_serializeHeaders hB users
      obtain ⟨value, hvalue, hbytes⟩ := hH.fromStr_eq _ fun b hb => (hvisible b hb).admitted
      rw [if_neg (by rw [hempty]; exact Bool.false_ne_true), hvalue] at h
      cases h
      rw [bytesOf_insert hH, nameAsStr_user hH, hbytes]
      by_cases hname : name = responseUserHeaders
      · rw [if_pos hname.symm, if_pos ⟨rfl, hname⟩]
      · rw [if_neg (Ne.symm hname), if_neg fun h => hname h.2]

/-- A reserved header is not passed on. -/
theorem flatMap_passed_unreserved (response : Response H) (name : String) :
    ((H.iter response.headers).map (sentHeader H)).flatMap (passed name) =
      ((unreserved response).map (sentHeader H)).flatMap (passed name) := by
  unfold unreserved
  induction H.iter response.headers with
  | nil => rfl
  | cons header entries ih =>
      rw [List.map_cons, List.flatMap_cons, ih]
      cases hreserved : isReserved (H.nameAsStr header.1) with
      | false =>
          rw [List.filter_cons_of_pos (by rw [hreserved]; rfl)]
          rfl
      | true =>
          have hne : (sentHeader H header).1 ≠ "content-length" := by
            intro hlength
            rw [show H.nameAsStr header.1 = "content-length" from hlength] at hreserved
            exact absurd hreserved (by decide)
          rw [List.filter_cons_of_neg (by rw [hreserved]; exact Bool.false_ne_true), passed,
            if_neg fun h => hne h.2]
          rfl

theorem flatMap_passed_contentLength (response : Response H) :
    ((H.iter response.headers).map (sentHeader H)).flatMap (passed "content-length") =
      (bytesOf response.headers "content-length").map sentBytes := by
  unfold bytesOf Http.getAll
  induction H.iter response.headers with
  | nil => rfl
  | cons header entries ih =>
      obtain ⟨n, value⟩ := header
      rw [List.map_cons, List.flatMap_cons, ih, List.filterMap_cons]
      by_cases hlength : H.nameAsStr n = "content-length"
      · rw [passed, if_pos ⟨rfl, hlength⟩]
        simp only [if_pos hlength]
        rfl
      · rw [passed, if_neg fun h => hlength h.2]
        simp only [if_neg hlength]
        rfl

theorem flatMap_passed_of_ne {name : String} (h : name ≠ "content-length")
    (sent : List (String × List UInt8)) : sent.flatMap (passed name) = [] := by
  rw [List.flatMap_eq_nil_iff]
  intro header _
  exact if_neg fun hname => h hname.1

/-- What the edge finds under a name, but for the tracing header. -/
theorem bytesOf_encodeResponseHeaders (hH : H.Lawful) (hN : H.PlainNames) (hB : B.Lawful)
    {response : Response H} {headers : H.HeaderMap}
    (h : encodeResponseHeaders H B response = some headers) {name : String}
    (hname : name ≠ tracingInternalHeader) :
    bytesOf headers name =
      if name = responseMetadataHeader then [utf8 responseMetadataOrigin]
      else if ((unreserved response).map (headerText H)).isEmpty = false ∧
          name = responseUserHeaders then
        [utf8 (serializeHeaders B ((unreserved response).map (headerText H)))]
      else ((unreserved response).map (sentHeader H)).flatMap (passed name) := by
  obtain ⟨headers₁, hfold, _⟩ := foldlM_encodeHeader hH (H.iter response.headers) H.emptyMap []
  rw [List.nil_append, ← userHeaders, userHeaders_eq_unreserved hN] at hfold
  have hpassed := bytesOf_foldlM_encodeHeader hH hN hfold hname
  have hempty : bytesOf H.emptyMap name = [] := by
    rw [bytesOf, hH.getAll_emptyMap]
    rfl
  rw [hempty, List.nil_append, flatMap_passed_unreserved] at hpassed
  unfold encodeResponseHeaders at h
  simp only [hfold, Option.bind_eq_bind, Option.bind_some] at h
  obtain ⟨headers₂, husers, h⟩ := Option.bind_eq_some_iff.mp h
  obtain ⟨origin, horigin, h⟩ := Option.bind_eq_some_iff.mp h
  cases h
  have hbytes : H.valueAsBytes origin = utf8 responseMetadataOrigin := by
    obtain ⟨origin', horigin', hbytes⟩ := hH.fromStr_eq responseMetadataOrigin
      (List.all_iff_forall_prop.mp (by decide))
    rw [horigin'] at horigin
    cases horigin
    exact hbytes
  rw [bytesOf_insert hH, nameAsStr_metadata hH, hbytes, bytesOf_insertUserHeaders hH hB husers,
    hpassed]
  simp only [eq_comm]

theorem texts_of_sent (hH : H.Lawful) {headers headers' : List (H.HeaderName × H.HeaderValue)}
    (h : headers'.map (sentHeader H) = headers.map (sentHeader H)) :
    headers'.map (headerText H) = headers.map (headerText H) := by
  have hutf8 : ∀ headers : List (H.HeaderName × H.HeaderValue), headers.map (sentHeader H) =
      (headers.map (headerText H)).map (Prod.map id utf8) := by
    intro headers
    rw [List.map_map]
    apply List.map_congr_left
    intro header _
    exact Prod.ext rfl (utf8_valueText hH header.2).symm
  rw [hutf8, hutf8] at h
  refine List.map_injective_iff.mpr ?_ h
  exact Function.injective_id.prodMap fun s t => utf8_injective

/-- **A response is sent as its unreserved headers**, in one header, with the content length, the
mark of the origin and at most the tracing header beside it; and it is always sent. -/
theorem encodeResponseHeaders_partition (hH : H.Lawful) (hN : H.PlainNames) (hB : B.Lawful)
    (response : Response H) :
    ∃ headers, encodeResponseHeaders H B response = some headers ∧
      Partition B response headers := by
  obtain ⟨headers, hencode, harrived⟩ := encodeResponseHeaders_eq hH hB response
  rw [userHeaders_eq_unreserved hN] at harrived
  refine ⟨headers, hencode, ⟨?names, ?origin, ?contentLength, ?arrived, ?absent, ?unspoofed⟩⟩
  case names =>
    intro header hmem
    by_contra hnot
    obtain ⟨hlength, htracing, huser, hmeta⟩ : H.nameAsStr header.1 ≠ "content-length" ∧
        H.nameAsStr header.1 ≠ tracingInternalHeader ∧
        H.nameAsStr header.1 ≠ responseUserHeaders ∧
        H.nameAsStr header.1 ≠ responseMetadataHeader := by
      simpa [sentNames, not_or] using hnot
    have hnone := bytesOf_encodeResponseHeaders hH hN hB hencode htracing
    rw [if_neg hmeta, if_neg fun h => huser h.2, flatMap_passed_of_ne hlength] at hnone
    exact absurd (hnone ▸ valueAsBytes_mem_bytesOf hmem) List.not_mem_nil
  case origin =>
    rw [bytesOf_encodeResponseHeaders hH hN hB hencode (by decide), if_pos rfl]
  case contentLength =>
    rw [bytesOf_encodeResponseHeaders hH hN hB hencode (by decide), if_neg (by decide),
      if_neg fun h => absurd h.2 (by decide), ← flatMap_passed_unreserved,
      flatMap_passed_contentLength]
  case arrived =>
    rw [harrived, List.map_map]
    apply List.map_congr_left
    intro header _
    exact Prod.ext rfl (utf8_valueText hH header.2)
  case absent =>
    rw [bytesOf_encodeResponseHeaders hH hN hB hencode (by decide), if_neg (by decide),
      flatMap_passed_of_ne (by decide)]
    cases unreserved response with
    | nil => exact iff_of_true (if_neg nofun) rfl
    | cons header headers => exact iff_of_false (by simp) (List.cons_ne_nil _ _)
  case unspoofed =>
    intro response' headers' hencode' hsent name hname
    rw [bytesOf_encodeResponseHeaders hH hN hB hencode hname,
      bytesOf_encodeResponseHeaders hH hN hB hencode' hname, hsent, texts_of_sent hH hsent]

/-! ## On a concrete response -/

/-- A response that pretends to come from `cloudflared` itself. -/
def pretending : Response Http.plain where
  status := 200
  headers := Http.plain.append
    (Http.plain.append Http.plain.emptyMap (.ofStatic "cf-cloudflared-response-meta")
      ⟨[120], by decide⟩)
    (.ofStatic "content-length") ⟨[53], by decide⟩
  body := .empty

theorem encodeResponseHeaders_pretending :
    (unreserved pretending).map (sentHeader Http.plain) = [("content-length", [53])] ∧
      ∃ headers, encodeResponseHeaders Http.plain .standardNoPad pretending = some headers ∧
        Partition .standardNoPad pretending headers :=
  ⟨by decide, encodeResponseHeaders_partition Http.lawful_plain Http.plainNames_plain
    TextCodec.lawful_standardNoPad pretending⟩

end Libcfd.Edge.H2

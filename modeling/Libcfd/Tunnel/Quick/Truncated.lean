import Libcfd.Edge.Discovery.Utf8
import Libcfd.Tunnel.Quick.Api

/-!
# Responses that are cut short

A response that gives its length says where its body ends. The parser cuts the body there if there
is that much of it; if there is less, it takes what there is, as it does for a response that gives
no length. What it refuses it refuses for its head, which it wants to be UTF-8 with a status code in
the first line, however much of the body has come.
-/

namespace Libcfd.Tunnel.Quick

open Libcfd.Text
open Libcfd.Origin
open Libcfd.Edge.Discovery (fromUtf8Lossy fromUtf8Lossy_utf8)

/-- What `post_empty` makes of all that it has read. -/
def postEmptyResult (received : List UInt8) : Except Error (Nat × List UInt8) := do
  let (status, _, body) ← parseHttpResponse received
  return (status, body)

/-! ## What has arrived -/

/-- The bytes before the blank line. -/
def headOf (received : List UInt8) : Option (List UInt8) :=
  (headerEnd received).map fun headEnd => received.take headEnd

def bodyOf (received : List UInt8) : List UInt8 :=
  received.drop ((headerEnd received).elim 0 (· + 4))

/-- The lines of a head after the first. A header may have bytes in it that are not UTF-8; they are
no part of a line break, of a name or of a number. -/
def headerLines (head : List UInt8) : List (List Char) :=
  (splitLines (fromUtf8Lossy head).toList).tail

/-- The value, if a line is a header that gives the length. -/
def lengthValue (line : List Char) : Option (List Char) :=
  (splitOnce ':' line).bind fun (name, value) =>
    if eqIgnoreAsciiCase name "content-length".toList then some (trim value) else none

/-- A head that gives the length `n`. -/
structure Declares (head : List UInt8) (n : Nat) : Prop where
  some : (headerLines head).filterMap lengthValue ≠ []
  all : ∀ line ∈ headerLines head, ∀ value ∈ lengthValue line, IsNumeral value n

/-- The connection has ended after the headers, and before all of the body was there. -/
def CutShort (received : List UInt8) (n : Nat) : Prop :=
  ∃ head, headOf received = some head ∧ Declares head n ∧ (bodyOf received).length < n

/-- The second word of the first line, if it is a number. -/
def statusOf (head : String) : Option Nat :=
  (splitLines head.toList).head?.bind fun statusLine =>
    (splitWhitespace statusLine)[1]?.bind (parseUnsigned (2 ^ 16))

/-- The head is not UTF-8, or there is no status code in it. -/
def Unreadable (received : List UInt8) : Prop :=
  ∃ head, headOf received = some head ∧
    (fromUtf8 head = none ∨ ∃ text, fromUtf8 head = some text ∧ statusOf text = none)

/-- Neither the parser nor `post_empty` takes it for a response. -/
def Refused (received : List UInt8) : Prop :=
  (∃ error, parseHttpResponse received = .error error) ∧
    ∀ answer, postEmptyResult received ≠ .ok answer

/-! ## What the parser makes of it -/

theorem contentLength_line {n : Nat} {line : List Char}
    (h : ∀ value ∈ lengthValue line, IsNumeral value n) {fields : Fields}
    (hfields : ∀ length ∈ fields.contentLength, length = n) :
    ∀ length ∈ (fields.line line).contentLength, length = n := by
  intro length hlength
  unfold Fields.line at hlength
  split at hlength
  · exact hfields length hlength
  · next name value hsplit =>
      by_cases hname : eqIgnoreAsciiCase name "content-length".toList = true
      · have hvalue : lengthValue line = some (trim value) := by
          rw [lengthValue, hsplit]
          exact if_pos hname
        rw [if_pos hname] at hlength
        exact eq_of_mem_parseUnsigned (h (trim value) hvalue) hlength
      · rw [if_neg hname] at hlength
        exact hfields length hlength

theorem contentLength_foldl {n : Nat} {lines : List (List Char)}
    (h : ∀ line ∈ lines, ∀ value ∈ lengthValue line, IsNumeral value n) {fields : Fields}
    (hfields : ∀ length ∈ fields.contentLength, length = n) :
    ∀ length ∈ (lines.foldl Fields.line fields).contentLength, length = n := by
  induction lines generalizing fields with
  | nil => exact hfields
  | cons line lines ih =>
      exact ih (fun other hother => h other (List.mem_cons_of_mem line hother))
        (contentLength_line (h line List.mem_cons_self) hfields)

/-- A body that is too short is not cut. -/
theorem cutBody_of_lt {contentLength : Option Nat} {body : List UInt8}
    (h : ∀ length ∈ contentLength, body.length < length) : cutBody contentLength body = body := by
  cases contentLength with
  | none => rfl
  | some length => exact if_neg (Nat.not_le_of_lt (h length rfl))

theorem fromUtf8Lossy_of_fromUtf8 {bytes : List UInt8} {text : String}
    (h : fromUtf8 bytes = some text) : fromUtf8Lossy bytes = text := by
  rw [fromUtf8, String.fromUTF8?] at h
  split at h
  · next hvalid =>
      have htext : text.toByteArray = bytes.toByteArray := by
        obtain rfl := Option.some.inj h
        rfl
      have hbytes : utf8 text = bytes := by
        rw [← toByteArray_utf8] at htext
        exact List.toByteArray_inj.mp htext
      rw [← hbytes]
      exact fromUtf8Lossy_utf8 text
  · cases h

theorem parseHttpResponse_of_head {received head : List UInt8} {text : String} {status : Nat}
    (hhead : headOf received = some head) (htext : fromUtf8 head = some text)
    (hstatus : statusOf text = some status) :
    ∃ headers, parseHttpResponse received = .ok (status, headers,
      cutBody ((headerLines head).foldl Fields.line {}).contentLength (bodyOf received)) := by
  obtain ⟨headEnd, hend, rfl⟩ := Option.map_eq_some_iff.mp hhead
  obtain ⟨statusLine, hline, hstatus⟩ := Option.bind_eq_some_iff.mp hstatus
  obtain ⟨code, hcode, hnumber⟩ := Option.bind_eq_some_iff.mp hstatus
  have hbody : bodyOf received = received.drop (headEnd + 4) := by
    rw [bodyOf, hend]
    rfl
  refine ⟨((splitLines text.toList).tail.foldl Fields.line {}).headers, ?_⟩
  simp only [parseHttpResponse, hend, htext, hline, hcode, hnumber, orResponse_some, pure_bind,
    hbody, headerLines, fromUtf8Lossy_of_fromUtf8 htext]
  rfl

/-- Without a status code the parser does not get to the body. -/
theorem parseHttpResponse_of_unreadable {received : List UInt8} (h : Unreadable received) :
    ∃ error, parseHttpResponse received = .error error := by
  obtain ⟨head, hhead, h⟩ := h
  obtain ⟨headEnd, hend, rfl⟩ := Option.map_eq_some_iff.mp hhead
  rcases h with htext | ⟨text, htext, hstatus⟩
  · simp only [parseHttpResponse, hend, htext, orResponse_some, pure_bind]
    exact ⟨_, rfl⟩
  simp only [parseHttpResponse, hend, htext, orResponse_some, pure_bind]
  cases hline : (splitLines text.toList).head? with
  | none => exact ⟨_, rfl⟩
  | some statusLine =>
      simp only [orResponse_some, pure_bind]
      rw [statusOf, hline, Option.bind_some] at hstatus
      cases hcode : (splitWhitespace statusLine)[1]? with
      | none => exact ⟨_, rfl⟩
      | some code =>
          rw [hcode, Option.bind_some] at hstatus
          simp only [orResponse_some, pure_bind, hstatus]
          exact ⟨_, rfl⟩

theorem refused_of_error {received : List UInt8}
    (h : ∃ error, parseHttpResponse received = .error error) : Refused received := by
  refine ⟨h, ?_⟩
  intro answer hanswer
  obtain ⟨error, herror⟩ := h
  rw [postEmptyResult, herror] at hanswer
  cases hanswer

/-- Of a body that is too short the parser takes all that there is. -/
theorem postEmptyResult_of_cutShort {received : List UInt8} {n : Nat} (h : CutShort received n)
    (hread : ¬ Unreadable received) :
    ∃ status, postEmptyResult received = .ok (status, bodyOf received) := by
  obtain ⟨head, hhead, hdeclares, hshort⟩ := h
  cases htext : fromUtf8 head with
  | none => exact absurd ⟨head, hhead, .inl htext⟩ hread
  | some text =>
      cases hstatus : statusOf text with
      | none => exact absurd ⟨head, hhead, .inr ⟨text, htext, hstatus⟩⟩ hread
      | some status =>
          obtain ⟨headers, hparse⟩ := parseHttpResponse_of_head hhead htext hstatus
          have hnone : ∀ length ∈ ({} : Fields).contentLength, length = n := nofun
          have hlength := contentLength_foldl hdeclares.all hnone
          have hbody : ∀ length ∈ ((headerLines head).foldl Fields.line {}).contentLength,
              (bodyOf received).length < length := by
            intro length hmem
            rw [hlength length hmem]
            exact hshort
          rw [cutBody_of_lt hbody] at hparse
          refine ⟨status, ?_⟩
          rw [postEmptyResult, hparse]
          rfl

/-! ## Every cut of a response -/

theorem lengthValue_line (header : Header) :
    lengthValue header.line = if header.IsContentLength then some header.value.toList else none := by
  have hvalue : trim (' ' :: header.value.toList) = header.value.toList :=
    trim_cons (by decide) header.isTrimmed
  rw [lengthValue, Header.line, splitOnce_append header.name_ne_colon]
  simp only [Option.bind_some, hvalue]
  rfl

theorem headerLines_head (response : Response) :
    headerLines (utf8 (String.ofList response.head)) = response.headers.map Header.line := by
  rw [headerLines, fromUtf8Lossy_utf8, String.toList_ofList, response.splitLines_head,
    List.tail_cons]

theorem declares_head (response : Response)
    (h : ∃ header ∈ response.headers, header.IsContentLength) :
    Declares (utf8 (String.ofList response.head)) response.body.length := by
  constructor
  · rw [headerLines_head]
    obtain ⟨header, hmem, hlength⟩ := h
    apply List.ne_nil_of_mem (a := header.value.toList)
    apply List.mem_filterMap.mpr
    refine ⟨header.line, List.mem_map_of_mem hmem, ?_⟩
    rw [lengthValue_line, if_pos hlength]
  · rw [headerLines_head]
    intro line hline value hvalue
    obtain ⟨header, hmem, rfl⟩ := List.mem_map.mp hline
    rw [lengthValue_line] at hvalue
    split at hvalue
    · next hlength =>
        obtain rfl := Option.some.inj hvalue
        exact response.contentLength header hmem hlength
    · cases hvalue

theorem headOf_head (response : Response) (piece : List UInt8) :
    headOf (utf8 (String.ofList response.head) ++ 13 :: 10 :: 13 :: 10 :: piece) =
      some (utf8 (String.ofList response.head)) := by
  rw [headOf, response.headerEnd_head]
  simp only [Option.map_some, List.take_left]

theorem bodyOf_head (response : Response) (piece : List UInt8) :
    bodyOf (utf8 (String.ofList response.head) ++ 13 :: 10 :: 13 :: 10 :: piece) = piece := by
  rw [bodyOf, response.headerEnd_head]
  simp only [Option.elim_some, ← List.drop_drop, List.drop_left]
  rfl

theorem statusOf_head (response : Response) :
    statusOf (String.ofList response.head) = some response.status := by
  have hcode : parseUnsigned (2 ^ 16) (threeDigits response.status) = some response.status :=
    parseUnsigned_eq (isNumeral_threeDigits response.status_lt)
      (Nat.lt_trans response.status_lt (by decide))
  rw [statusOf, String.toList_ofList, response.splitLines_head]
  simp only [List.head?_cons, Option.bind_some, response.word_statusLine, hcode]

/-- What is put into bytes can be read, however much of the body follows. -/
theorem not_unreadable_head (response : Response) (piece : List UInt8) :
    ¬ Unreadable (utf8 (String.ofList response.head) ++ 13 :: 10 :: 13 :: 10 :: piece) := by
  rintro ⟨head, hhead, h⟩
  rw [headOf_head] at hhead
  obtain rfl := Option.some.inj hhead
  rw [fromUtf8_utf8] at h
  rcases h with h | ⟨text, htext, hstatus⟩
  · cases h
  · obtain rfl := Option.some.inj htext
    rw [statusOf_head] at hstatus
    cases hstatus

/-- A response that gives its length, of which `k` bytes of the body have come. -/
theorem cutShort_take (response : Response)
    (h : ∃ header ∈ response.headers, header.IsContentLength) {k : Nat}
    (hk : k < response.body.length) :
    CutShort (utf8 (String.ofList response.head) ++ 13 :: 10 :: 13 :: 10 :: response.body.take k)
      response.body.length := by
  refine ⟨_, headOf_head response _, declares_head response h, ?_⟩
  rw [bodyOf_head, List.length_take]
  omega

/-! ## It is not refused -/

/-- **A response that is cut short is refused for its head only.** If that is UTF-8 and has a status
code in it, the response is taken for a complete one: `post_empty` returns the status with as much
of the body as there is. -/
theorem refused_iff_of_cutShort {received : List UInt8} {n : Nat} (h : CutShort received n) :
    (Refused received ↔ Unreadable received) ∧
      (¬ Unreadable received →
        ∃ status, postEmptyResult received = .ok (status, bodyOf received)) := by
  refine ⟨⟨?_, ?_⟩, postEmptyResult_of_cutShort h⟩
  · rintro ⟨-, hrefused⟩
    by_contra hread
    obtain ⟨status, hresult⟩ := postEmptyResult_of_cutShort h hread
    exact hrefused _ hresult
  · intro hunreadable
    exact refused_of_error (parseHttpResponse_of_unreadable hunreadable)

def helloResponse : Response :=
  { blankLineResponse with
    headers := [
      { name := "Content-Length", value := "5", isToken := by decide, noBreak := by decide
        isTrimmed := by decide }]
    body := utf8 "hello"
    contentLength := by
      rw [List.forall_mem_singleton]
      intro _
      exact ⟨by decide, List.all_eq_true.mp (by decide), by decide⟩
    isUsize := by decide }

/-- Three bytes of five. -/
def threeOfFive : List UInt8 := utf8 "HTTP/1.1 200 OK\r\nContent-Length: 5\r\n\r\nhel"

theorem cutShort_threeOfFive : CutShort threeOfFive 5 ∧ ¬ Unreadable threeOfFive :=
  ⟨cutShort_take helloResponse ⟨_, List.mem_singleton_self _, by decide⟩ (k := 3) (by decide),
    not_unreadable_head helloResponse (utf8 "hel")⟩

theorem refused_iff_threeOfFive :
    (Refused threeOfFive ↔ Unreadable threeOfFive) ∧ ¬ Unreadable threeOfFive ∧
      ∃ status, postEmptyResult threeOfFive = .ok (status, utf8 "hel") := by
  obtain ⟨hcut, hread⟩ := cutShort_threeOfFive
  obtain ⟨hiff, hresult⟩ := refused_iff_of_cutShort hcut
  exact ⟨hiff, hread, hresult hread⟩

theorem not_refused_threeOfFive : CutShort threeOfFive 5 ∧ ¬ Refused threeOfFive := by
  obtain ⟨hcut, hread⟩ := cutShort_threeOfFive
  obtain ⟨status, hresult⟩ := postEmptyResult_of_cutShort hcut hread
  refine ⟨hcut, ?_⟩
  rintro ⟨_, hrefused⟩
  exact hrefused _ hresult

end Libcfd.Tunnel.Quick

import Libcfd.Foundation.Text
import Libcfd.Origin.HeaderNames
import Libcfd.Tunnel.Error
import Mathlib.Algebra.Group.Nat.Defs

/-!
# Responses of the quick tunnel API

The parser looks for the blank line in the bytes, takes what is before it for text, takes that apart
at the line breaks and the colons, and cuts the body by the length that a header gave. A response
put into bytes comes out of it as it was: no line of it has a line break in it, so that the first
blank line is the one after the headers, whatever the body is.
-/

namespace Libcfd.Tunnel.Quick

open Libcfd.Text
open Libcfd.Origin

/-! ## The parser -/

/-- `windows(4).position(|w| w == b"\r\n\r\n")`. -/
def headerEnd : List UInt8 → Option Nat
  | [] => none
  | b :: bytes =>
      if [13, 10, 13, 10].isPrefixOf (b :: bytes) then some 0
      else (headerEnd bytes).map (· + 1)

/-- `str::from_utf8`. -/
def fromUtf8 (bytes : List UInt8) : Option String := String.fromUTF8? bytes.toByteArray

/-- `ok_or_else` and `map_err`. -/
def orResponse {α : Type} (message : String) : Option α → Except Error α
  | some a => .ok a
  | none => .error (.quickTunnelResponse message)

@[simp] theorem orResponse_some {α : Type} (message : String) (a : α) :
    orResponse message (some a) = pure a := rfl

/-- What the header lines are folded into. -/
structure Fields where
  headers : List (String × String) := []
  contentLength : Option Nat := none

def Fields.line (fields : Fields) (line : List Char) : Fields :=
  match splitOnce ':' line with
  | none => fields
  | some (name, value) =>
      { headers := fields.headers ++ [(String.ofList (trim name), String.ofList (trim value))]
        contentLength :=
          if eqIgnoreAsciiCase name "content-length".toList then
            parseUnsigned (2 ^ 64) (trim value)
          else fields.contentLength }

def cutBody (contentLength : Option Nat) (body : List UInt8) : List UInt8 :=
  match contentLength with
  | some length => if length ≤ body.length then body.take length else body
  | none => body

abbrev HttpResponse := Nat × List (String × String) × List UInt8

def parseHttpResponse (bytes : List UInt8) : Except Error HttpResponse := do
  let headEnd ← orResponse "missing response headers" (headerEnd bytes)
  let head ← orResponse "response headers not utf-8" (fromUtf8 (bytes.take headEnd))
  let lines := splitLines head.toList
  let statusLine ← orResponse "empty status line" lines.head?
  let code ← orResponse "malformed status line" (splitWhitespace statusLine)[1]?
  let status ← orResponse "malformed status code" (parseUnsigned (2 ^ 16) code)
  let fields := lines.tail.foldl Fields.line {}
  return (status, fields.headers, cutBody fields.contentLength (bytes.drop (headEnd + 4)))

/-! ## The end of the headers -/

theorem headerEnd_append {line : List UInt8} (h : 13 ∉ line) (rest : List UInt8) :
    headerEnd (line ++ rest) = (headerEnd rest).map (· + line.length) := by
  induction line with
  | nil => simp
  | cons b line ih =>
      have hb : (13 == b) = false := by
        rw [beq_eq_false_iff_ne]
        rintro rfl
        exact h List.mem_cons_self
      have hnot : ¬ [13, 10, 13, 10].isPrefixOf (b :: (line ++ rest)) = true := by
        simp [List.isPrefixOf, hb]
      rw [List.cons_append, headerEnd, if_neg hnot, ih fun h' => h (List.mem_cons_of_mem b h'),
        Option.map_map]
      rfl

/-- A line break that no other one follows. -/
theorem headerEnd_lineBreak {b : UInt8} (hb : b ≠ 13) (bytes : List UInt8) :
    headerEnd (13 :: 10 :: b :: bytes) = (headerEnd (b :: bytes)).map (· + 2) := by
  have hb' : (13 == b) = false := beq_eq_false_iff_ne.mpr (Ne.symm hb)
  have hfirst : ¬ [13, 10, 13, 10].isPrefixOf (13 :: 10 :: b :: bytes) = true := by
    simp [List.isPrefixOf, hb']
  have hsecond : ¬ [13, 10, 13, 10].isPrefixOf (10 :: b :: bytes) = true := by
    simp [List.isPrefixOf]
  rw [headerEnd, if_neg hfirst, headerEnd, if_neg hsecond, Option.map_map]
  rfl

/-- The first blank line is the one after the lines. -/
theorem headerEnd_lines {first : List UInt8} (hfirst : 13 ∉ first) {lines : List (List UInt8)}
    (h : ∀ line ∈ lines, line ≠ [] ∧ 13 ∉ line) (rest : List UInt8) :
    headerEnd (first ++ (lines.flatMap ([13, 10] ++ ·) ++ 13 :: 10 :: 13 :: 10 :: rest)) =
      some (first ++ lines.flatMap ([13, 10] ++ ·)).length := by
  induction lines generalizing first with
  | nil =>
      rw [headerEnd_append hfirst]
      simp [headerEnd]
  | cons line lines ih =>
      obtain ⟨hne, hline⟩ := h line List.mem_cons_self
      have hlines := ih hline fun other hother => h other (List.mem_cons_of_mem line hother)
      obtain ⟨b, line, rfl⟩ := List.exists_cons_of_ne_nil hne
      have hb : b ≠ 13 := by
        rintro rfl
        exact hline List.mem_cons_self
      have hbreak := headerEnd_lineBreak hb
        (line ++ (lines.flatMap ([13, 10] ++ ·) ++ 13 :: 10 :: 13 :: 10 :: rest))
      rw [headerEnd_append hfirst]
      simp only [List.flatMap_cons, List.cons_append, List.nil_append, List.append_assoc] at *
      rw [hbreak, hlines]
      simp
      omega

/-! ## Responses -/

/-- A header of which the name is a token and the value a text on one line, with no whitespace
around it. -/
structure Header where
  name : String
  value : String
  isToken : ∀ b ∈ utf8 name, IsToken b
  noBreak : NoBreak value.toList
  isTrimmed : IsTrimmed value.toList

def Header.IsContentLength (header : Header) : Prop :=
  eqIgnoreAsciiCase header.name.toList "content-length".toList = true

instance (header : Header) : Decidable header.IsContentLength :=
  inferInstanceAs (Decidable (_ = true))

/-- A response. The length that it gives, if it gives one, is the length of its body, which is the
length of a slice. -/
structure Response where
  status : Nat
  reason : String
  headers : List Header
  body : List UInt8
  status_lt : status < 1000
  noBreak : NoBreak reason.toList
  contentLength : ∀ header ∈ headers, header.IsContentLength →
    IsNumeral header.value.toList body.length
  isUsize : body.length < 2 ^ 64

def digit (n : Nat) : Char := Char.ofNat ('0'.toNat + n)

def threeDigits (n : Nat) : List Char := [digit (n / 100), digit (n / 10 % 10), digit (n % 10)]

def Header.line (header : Header) : List Char :=
  header.name.toList ++ ':' :: ' ' :: header.value.toList

namespace Response

variable (response : Response)

def statusLine : List Char :=
  "HTTP/1.1".toList ++ ' ' :: (threeDigits response.status ++ ' ' :: response.reason.toList)

/-- The lines up to the blank one. -/
def lines : List (List Char) := response.statusLine :: response.headers.map Header.line

/-- The response as it is sent. -/
def bytes : List UInt8 :=
  utf8 (String.ofList (response.lines.flatMap (· ++ ['\r', '\n']) ++ ['\r', '\n'])) ++ response.body

end Response

/-! ## Lines -/

theorem Header.token_char (header : Header) {c : Char} (hc : c ∈ header.name.toList) :
    33 ≤ c.toNat ∧ c.toNat < 127 ∧ c.toNat ≠ 58 := by
  obtain ⟨b, hb, heq⟩ := exists_mem_utf8_of_char hc
  obtain ⟨hlow, hhigh, hseparator⟩ := header.isToken b hb
  have hhigh' : b.toNat < 127 := UInt8.lt_iff_toNat_lt.mp hhigh
  rw [← heq (UInt8.lt_iff_toNat_lt.mpr (Nat.lt_trans hhigh' (by decide)))]
  refine ⟨UInt8.le_iff_toNat_le.mp hlow, hhigh', ?_⟩
  intro hcolon
  have hb' : b = 58 := UInt8.toNat_inj.mp hcolon
  rw [hb'] at hseparator
  exact hseparator (by decide)

theorem Header.name_noBreak (header : Header) : NoBreak header.name.toList := by
  intro c hc
  have hle := (header.token_char hc).1
  constructor
  · rintro rfl
    exact absurd hle (by decide)
  · rintro rfl
    exact absurd hle (by decide)

theorem Header.name_isTrimmed (header : Header) : IsTrimmed header.name.toList := by
  apply isTrimmed_of_forall
  intro c hc
  obtain ⟨hlow, hhigh, -⟩ := header.token_char hc
  simp [isWhitespace]
  omega

theorem Header.name_ne_colon (header : Header) : ∀ c ∈ header.name.toList, c ≠ ':' := by
  rintro c hc rfl
  exact (header.token_char hc).2.2 rfl

theorem digit_spec {n : Nat} (h : n < 10) :
    (digit n).isDigit = true ∧ (digit n).toNat - '0'.toNat = n := by
  revert n
  decide

theorem isNumeral_threeDigits {n : Nat} (h : n < 1000) : IsNumeral (threeDigits n) n := by
  obtain ⟨hhundreds, hhundreds'⟩ := digit_spec (n := n / 100) (by omega)
  obtain ⟨htens, htens'⟩ := digit_spec (n := n / 10 % 10) (by omega)
  obtain ⟨hunits, hunits'⟩ := digit_spec (n := n % 10) (by omega)
  refine ⟨List.cons_ne_nil _ _, ?_, ?_⟩
  · intro c hc
    rcases List.mem_cons.mp hc with rfl | hc
    · exact hhundreds
    rcases List.mem_cons.mp hc with rfl | hc
    · exact htens
    rw [List.mem_singleton.mp hc]
    exact hunits
  · simp only [numeral, threeDigits, List.foldl_cons, List.foldl_nil, hhundreds', htens', hunits']
    omega

/-! ## What the parser makes of them -/

theorem fields_line (fields : Fields) (header : Header) :
    fields.line header.line =
      { headers := fields.headers ++ [(header.name, header.value)]
        contentLength :=
          if header.IsContentLength then parseUnsigned (2 ^ 64) header.value.toList
          else fields.contentLength } := by
  have hvalue : trim (' ' :: header.value.toList) = header.value.toList :=
    trim_cons (by decide) header.isTrimmed
  rw [Fields.line, Header.line, splitOnce_append header.name_ne_colon]
  simp only [hvalue, trim_eq header.name_isTrimmed, String.ofList_toList]
  rfl

/-- The header lines give the headers in their order, and the length if one of them does. -/
theorem foldl_line {length : Nat} (hlength : length < 2 ^ 64) {headers : List Header}
    (h : ∀ header ∈ headers, header.IsContentLength → IsNumeral header.value.toList length)
    (fields : Fields) :
    (headers.map Header.line).foldl Fields.line fields =
      { headers := fields.headers ++ headers.map fun header => (header.name, header.value)
        contentLength :=
          if ∃ header ∈ headers, header.IsContentLength then some length
          else fields.contentLength } := by
  induction headers generalizing fields with
  | nil => simp
  | cons header headers ih =>
      rw [List.map_cons, List.foldl_cons, fields_line,
        ih fun other hother => h other (List.mem_cons_of_mem header hother)]
      simp only [List.map_cons, List.append_assoc, List.singleton_append, List.exists_mem_cons_iff]
      by_cases hheader : header.IsContentLength
      · have hvalue := parseUnsigned_eq (h header List.mem_cons_self hheader) hlength
        have hexists : header.IsContentLength ∨ ∃ other ∈ headers, other.IsContentLength :=
          .inl hheader
        rw [if_pos hexists, if_pos hheader, hvalue]
        split
        · rfl
        · rfl
      · simp only [hheader, false_or, if_false]

namespace Response

variable (response : Response)

/-- The lines with a break between each two. -/
def head : List Char :=
  response.statusLine ++ (response.headers.map Header.line).flatMap (['\r', '\n'] ++ ·)

theorem bytes_eq :
    response.bytes = utf8 (String.ofList response.head) ++ 13 :: 10 :: 13 :: 10 :: response.body := by
  have hbreak : (['\r', '\n'] ++ ['\r', '\n'] : List Char).flatMap String.utf8EncodeChar =
      [13, 10, 13, 10] := by decide
  rw [bytes, lines, flatMap_lineBreak, ← head, List.append_assoc, utf8_ofList, utf8_ofList,
    List.flatMap_append, hbreak, List.append_assoc]
  rfl

theorem statusLine_noBreak : NoBreak response.statusLine := by
  have hversion : NoBreak "HTTP/1.1".toList := by decide
  have hspace : ' ' ≠ '\r' ∧ ' ' ≠ '\n' := by decide
  intro c hc
  rcases List.mem_append.mp hc with hc | hc
  · exact hversion c hc
  rcases List.mem_cons.mp hc with rfl | hc
  · exact hspace
  rcases List.mem_append.mp hc with hc | hc
  · exact noBreak_of_isDigit (isNumeral_threeDigits response.status_lt).2.1 c hc
  rcases List.mem_cons.mp hc with rfl | hc
  · exact hspace
  · exact response.noBreak c hc

theorem word_statusLine :
    (splitWhitespace response.statusLine)[1]? = some (threeDigits response.status) := by
  apply splitWhitespace_second
  · decide
  · exact List.cons_ne_nil _ _
  · exact List.all_iff_forall_prop.mp (by decide)
  · intro c hc
    exact isWhitespace_of_isDigit ((isNumeral_threeDigits response.status_lt).2.1 c hc)
  · decide
  · decide

end Response

theorem Header.line_noBreak (header : Header) : NoBreak header.line := by
  intro c hc
  simp only [line, List.mem_append, List.mem_cons] at hc
  rcases hc with hc | rfl | rfl | hc
  · exact header.name_noBreak c hc
  · decide
  · decide
  · exact header.noBreak c hc

/-- A line without a break has no carriage return among its bytes. -/
theorem not_mem_utf8 {line : List Char} (h : NoBreak line) : 13 ∉ utf8 (String.ofList line) := by
  intro hmem
  obtain ⟨c, hc, heq⟩ := exists_char_of_mem_utf8 hmem (by decide)
  exact (h c hc).1 (Char.toNat_inj.mp heq)

theorem utf8_flatMap (first : List Char) (lines : List (List Char)) :
    utf8 (String.ofList (first ++ lines.flatMap (['\r', '\n'] ++ ·))) =
      utf8 (String.ofList first) ++
        (lines.map fun line => utf8 (String.ofList line)).flatMap ([13, 10] ++ ·) := by
  rw [utf8_ofList, List.flatMap_append, utf8_ofList, List.flatMap_assoc, List.flatMap_map]
  congr 1
  apply List.flatMap_congr
  intro line _
  rw [List.flatMap_append, utf8_ofList]
  rfl

theorem fromUtf8_utf8 (s : String) : fromUtf8 (utf8 s) = some s := by
  rw [fromUtf8, toByteArray_utf8, String.fromUTF8?, dif_pos s.isValidUTF8]
  rfl

namespace Response

variable (response : Response)

theorem headerEnd_head (rest : List UInt8) :
    headerEnd (utf8 (String.ofList response.head) ++ 13 :: 10 :: 13 :: 10 :: rest) =
      some (utf8 (String.ofList response.head)).length := by
  have hlines : ∀ line ∈ (response.headers.map Header.line).map fun line =>
      utf8 (String.ofList line), line ≠ [] ∧ 13 ∉ line := by
    intro line hline
    obtain ⟨chars, hchars, rfl⟩ := List.mem_map.mp hline
    obtain ⟨header, -, rfl⟩ := List.mem_map.mp hchars
    refine ⟨?_, not_mem_utf8 header.line_noBreak⟩
    intro hnil
    -- there is a colon in it
    have hcolon : ':' ∈ (String.ofList header.line).toList := by
      rw [String.toList_ofList]
      exact List.mem_append_right _ List.mem_cons_self
    obtain ⟨b, hb, -⟩ := exists_mem_utf8_of_char hcolon
    rw [hnil] at hb
    exact absurd hb List.not_mem_nil
  have hend := headerEnd_lines (not_mem_utf8 response.statusLine_noBreak) hlines rest
  rwa [← List.append_assoc, ← utf8_flatMap, ← head] at hend

theorem headerEnd_bytes (extra : List UInt8) :
    headerEnd (response.bytes ++ extra) = some (utf8 (String.ofList response.head)).length := by
  rw [bytes_eq, List.append_assoc]
  exact response.headerEnd_head _

theorem take_bytes (extra : List UInt8) :
    (response.bytes ++ extra).take (utf8 (String.ofList response.head)).length =
      utf8 (String.ofList response.head) := by
  rw [bytes_eq, List.append_assoc, List.take_left]

theorem drop_bytes (extra : List UInt8) :
    (response.bytes ++ extra).drop ((utf8 (String.ofList response.head)).length + 4) =
      response.body ++ extra := by
  rw [bytes_eq, List.append_assoc, ← List.drop_drop, List.drop_left]
  rfl

theorem splitLines_head :
    splitLines response.head = response.statusLine :: response.headers.map Header.line := by
  apply splitLines_flatMap response.statusLine_noBreak
  intro line hline
  obtain ⟨header, -, rfl⟩ := List.mem_map.mp hline
  exact header.line_noBreak

end Response

/-! ## The round trip -/

/-- What is parsed is what was put into bytes, whatever comes after the body if a header gives its
length. -/
theorem parseHttpResponse_bytes (response : Response) (extra : List UInt8)
    (h : extra ≠ [] → ∃ header ∈ response.headers, header.IsContentLength) :
    parseHttpResponse (response.bytes ++ extra) =
      .ok (response.status, response.headers.map fun header => (header.name, header.value),
        response.body) := by
  have hstatus : parseUnsigned (2 ^ 16) (threeDigits response.status) = some response.status :=
    parseUnsigned_eq (isNumeral_threeDigits response.status_lt)
      (Nat.lt_trans response.status_lt (by decide))
  have hfields := foldl_line response.isUsize response.contentLength {}
  have hbody : cutBody (if ∃ header ∈ response.headers, header.IsContentLength then
      some response.body.length else none) (response.body ++ extra) = response.body := by
    split
    · next hlength =>
        rw [cutBody, if_pos (by simp), List.take_left]
    · next hlength =>
        have hextra : extra = [] := by
          by_contra hne
          exact hlength (h hne)
        rw [cutBody, hextra, List.append_nil]
  simp only [parseHttpResponse, response.headerEnd_bytes, response.take_bytes, fromUtf8_utf8,
    String.toList_ofList, response.splitLines_head, List.head?_cons, List.tail_cons,
    response.word_statusLine, hstatus, hfields, response.drop_bytes, hbody, orResponse_some,
    pure_bind, List.nil_append]
  rfl

/-- A response of which the body is a blank line. -/
def blankLineResponse : Response where
  status := 200
  reason := "OK"
  headers := [
    { name := "X-Text", value := "é: a", isToken := by decide, noBreak := by decide
      isTrimmed := by decide },
    { name := "CONTENT-length", value := "04", isToken := by decide, noBreak := by decide
      isTrimmed := by decide }]
  body := [13, 10, 13, 10]
  status_lt := by decide
  noBreak := by decide
  contentLength := by
    simp only [List.forall_mem_cons]
    refine ⟨?_, ?_, by simp⟩
    · intro h
      exact absurd h (by decide)
    · intro _
      exact ⟨by decide, List.all_eq_true.mp (by decide), by decide⟩
  isUsize := by decide

theorem parseHttpResponse_blankLineResponse :
    parseHttpResponse (blankLineResponse.bytes ++ [33]) =
      .ok (200, [("X-Text", "é: a"), ("CONTENT-length", "04")], [13, 10, 13, 10]) := by
  apply parseHttpResponse_bytes blankLineResponse [33]
  intro _
  exact ⟨_, List.mem_cons_of_mem _ List.mem_cons_self, by decide⟩

end Libcfd.Tunnel.Quick

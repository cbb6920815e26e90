import Mathlib.Data.Bool.AllAny
import Mathlib.Data.List.DropRight

/-!
# Texts

The functions of a `str` that take it apart, on its characters: at line breaks, at whitespace, at the
first of a character, and as a number. Each undoes putting the pieces together, provided that no
piece has in it what it is taken apart at.
-/

namespace Libcfd.Text

/-! ## Whitespace -/

/-- `char::is_whitespace`: the property `White_Space`. -/
def isWhitespace (c : Char) : Bool :=
  (9 ≤ c.toNat && c.toNat ≤ 13) || (0x2000 ≤ c.toNat && c.toNat ≤ 0x200A) ||
    c.toNat ∈ [0x20, 0x85, 0xA0, 0x1680, 0x2028, 0x2029, 0x202F, 0x205F, 0x3000]

/-- `trim`. -/
def trim (cs : List Char) : List Char := (cs.dropWhile isWhitespace).rdropWhile isWhitespace

/-- `split_whitespace`. -/
def splitWhitespace (cs : List Char) : List (List Char) :=
  (cs.splitOnP isWhitespace).filter (· ≠ [])

/-- Neither begins nor ends with whitespace. -/
structure IsTrimmed (cs : List Char) : Prop where
  head : ∀ c ∈ cs.head?, isWhitespace c = false
  last : ∀ c ∈ cs.getLast?, isWhitespace c = false

instance (cs : List Char) : Decidable (IsTrimmed cs) :=
  @decidable_of_iff _ (_ ∧ _) ⟨fun h => ⟨h.1, h.2⟩, fun h => ⟨h.head, h.last⟩⟩
    (@instDecidableAnd _ _ (Option.decidableForallMem cs.head?)
      (Option.decidableForallMem cs.getLast?))

theorem trim_eq {cs : List Char} (h : IsTrimmed cs) : trim cs = cs := by
  have hfront : cs.dropWhile isWhitespace = cs := by
    cases cs with
    | nil => rfl
    | cons c cs =>
        apply List.dropWhile_cons_of_neg
        rw [h.head c rfl]
        exact Bool.false_ne_true
  rw [trim, hfront, List.rdropWhile_eq_self_iff]
  intro hne
  rw [h.last _ (List.getLast?_eq_some_getLast hne)]
  exact Bool.false_ne_true

/-- Whitespace before it is taken off. -/
theorem trim_cons {c : Char} (hc : isWhitespace c = true) {cs : List Char} (h : IsTrimmed cs) :
    trim (c :: cs) = cs := by
  rw [trim, List.dropWhile_cons_of_pos hc]
  exact trim_eq h

theorem isTrimmed_of_forall {cs : List Char} (h : ∀ c ∈ cs, isWhitespace c = false) :
    IsTrimmed cs where
  head c hc := h c (List.mem_of_mem_head? hc)
  last c hc := h c (List.mem_of_mem_getLast? hc)

theorem isWhitespace_of_isDigit {c : Char} (h : c.isDigit = true) : isWhitespace c = false := by
  have hbounds : 48 ≤ c.toNat ∧ c.toNat ≤ 57 := by
    simpa [Char.isDigit, UInt32.le_iff_toNat_le] using h
  simp [isWhitespace]
  omega

/-- The second word. -/
theorem splitWhitespace_second {first second rest : List Char} {space space' : Char}
    (hfirst : first ≠ []) (hsecond : second ≠ []) (h : ∀ c ∈ first, isWhitespace c = false)
    (h' : ∀ c ∈ second, isWhitespace c = false) (hspace : isWhitespace space = true)
    (hspace' : isWhitespace space' = true) :
    (splitWhitespace (first ++ space :: (second ++ space' :: rest)))[1]? = some second := by
  rw [splitWhitespace, List.splitOnP_append_cons_of_forall_mem h _ hspace,
    List.splitOnP_append_cons_of_forall_mem h' _ hspace',
    List.filter_cons_of_pos (by simpa using hfirst),
    List.filter_cons_of_pos (by simpa using hsecond)]
  rfl

/-! ## Line breaks -/

/-- `split("\r\n")`. -/
def splitLines : List Char → List (List Char)
  | '\r' :: '\n' :: cs => [] :: splitLines cs
  | c :: cs =>
      match splitLines cs with
      | line :: lines => (c :: line) :: lines
      | [] => [[c]]
  | [] => [[]]

/-- Neither a carriage return nor a line feed. -/
def NoBreak (cs : List Char) : Prop := ∀ c ∈ cs, c ≠ '\r' ∧ c ≠ '\n'

instance (cs : List Char) : Decidable (NoBreak cs) := List.decidableBAll _ cs

theorem noBreak_of_isDigit {cs : List Char} (h : ∀ c ∈ cs, c.isDigit = true) : NoBreak cs := by
  intro c hc
  have hdigit := h c hc
  constructor
  · rintro rfl
    exact absurd hdigit (by decide)
  · rintro rfl
    exact absurd hdigit (by decide)

theorem splitLines_noBreak {line : List Char} (h : NoBreak line) : splitLines line = [line] := by
  induction line with
  | nil => rfl
  | cons c line ih =>
      have hc := (h c List.mem_cons_self).1
      rw [splitLines]
      · rw [ih fun d hd => h d (List.mem_cons_of_mem c hd)]
      · rintro cs rfl
        exact absurd rfl hc

theorem splitLines_append {line : List Char} (h : NoBreak line) (rest : List Char) :
    splitLines (line ++ '\r' :: '\n' :: rest) = line :: splitLines rest := by
  induction line with
  | nil => rfl
  | cons c line ih =>
      have hc := (h c List.mem_cons_self).1
      rw [List.cons_append, splitLines]
      · rw [ih fun d hd => h d (List.mem_cons_of_mem c hd)]
      · rintro cs rfl
        exact absurd rfl hc

/-- Lines with a break between each two. -/
theorem splitLines_flatMap {first : List Char} (hfirst : NoBreak first) {lines : List (List Char)}
    (h : ∀ line ∈ lines, NoBreak line) :
    splitLines (first ++ lines.flatMap (['\r', '\n'] ++ ·)) = first :: lines := by
  induction lines generalizing first with
  | nil =>
      rw [List.flatMap_nil, List.append_nil]
      exact splitLines_noBreak hfirst
  | cons line lines ih =>
      have hlines := ih (h line List.mem_cons_self)
        fun other hother => h other (List.mem_cons_of_mem line hother)
      rw [List.flatMap_cons, List.append_assoc]
      exact (splitLines_append hfirst _).trans (congrArg (first :: ·) hlines)

/-- A break after each line leaves one at the end. -/
theorem flatMap_lineBreak (first : List Char) (lines : List (List Char)) :
    (first :: lines).flatMap (· ++ ['\r', '\n']) =
      first ++ lines.flatMap (['\r', '\n'] ++ ·) ++ ['\r', '\n'] := by
  induction lines generalizing first with
  | nil => simp
  | cons line lines ih =>
      rw [List.flatMap_cons, ih line, List.flatMap_cons]
      simp only [List.append_assoc]

/-! ## One character -/

/-- `split_once`. -/
def splitOnce (sep : Char) (cs : List Char) : Option (List Char × List Char) :=
  match cs.dropWhile (· ≠ sep) with
  | [] => none
  | _ :: value => some (cs.takeWhile (· ≠ sep), value)

theorem splitOnce_append {sep : Char} {name : List Char} (h : ∀ c ∈ name, c ≠ sep)
    (value : List Char) : splitOnce sep (name ++ sep :: value) = some (name, value) := by
  have hname : ∀ c ∈ name, decide (c ≠ sep) = true := by
    intro c hc
    exact decide_eq_true (h c hc)
  have hdrop : (name ++ sep :: value).dropWhile (· ≠ sep) = sep :: value := by
    rw [List.dropWhile_append_of_pos hname, List.dropWhile_cons_of_neg (by simp)]
  have htake : (name ++ sep :: value).takeWhile (· ≠ sep) = name := by
    rw [List.takeWhile_append_of_pos hname, List.takeWhile_cons_of_neg (by simp), List.append_nil]
  rw [splitOnce, hdrop, htake]

/-- `eq_ignore_ascii_case`. -/
def eqIgnoreAsciiCase (cs cs' : List Char) : Bool :=
  cs.map Char.toLower = cs'.map Char.toLower

/-! ## Numbers -/

/-- The number that decimal digits stand for. -/
def numeral (digits : List Char) : Nat :=
  digits.foldl (fun n c => n * 10 + (c.toNat - '0'.toNat)) 0

def withoutSign : List Char → List Char
  | '+' :: cs => cs
  | cs => cs

/-- `parse` of an unsigned integer below `limit`. -/
def parseUnsigned (limit : Nat) (cs : List Char) : Option Nat :=
  if withoutSign cs ≠ [] ∧ (withoutSign cs).all Char.isDigit = true ∧
      numeral (withoutSign cs) < limit then
    some (numeral (withoutSign cs))
  else none

/-- A number in decimal digits, with any number of zeros before it. -/
def IsNumeral (cs : List Char) (n : Nat) : Prop :=
  cs ≠ [] ∧ (∀ c ∈ cs, c.isDigit = true) ∧ numeral cs = n

theorem IsNumeral.withoutSign_eq {n : Nat} {cs : List Char} (h : IsNumeral cs n) :
    withoutSign cs = cs := by
  unfold withoutSign
  split
  · next cs =>
      exact absurd (h.2.1 '+' List.mem_cons_self) (by decide)
  · rfl

theorem parseUnsigned_eq {limit n : Nat} {cs : List Char} (h : IsNumeral cs n) (hn : n < limit) :
    parseUnsigned limit cs = some n := by
  rw [parseUnsigned, h.withoutSign_eq]
  obtain ⟨hne, hdigits, rfl⟩ := h
  exact if_pos ⟨hne, List.all_eq_true.mpr hdigits, hn⟩

/-- Whatever the limit is, a numeral is not taken for another number. -/
theorem eq_of_mem_parseUnsigned {limit n m : Nat} {cs : List Char} (h : IsNumeral cs n)
    (hm : m ∈ parseUnsigned limit cs) : m = n := by
  rw [parseUnsigned, h.withoutSign_eq, h.2.2] at hm
  split at hm
  · exact (Option.some.inj hm).symm
  · cases hm

end Libcfd.Text

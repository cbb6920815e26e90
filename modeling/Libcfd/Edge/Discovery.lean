import Libcfd.Foundation.Loop
import Libcfd.Rpc.Error

/-!
# Edge discovery: the answer to the SRV query

`parse_srv_response` with the two loops under it. `skip_name` only moves forward. `decode_name`
follows compression pointers wherever they lead, so its loop is run for a number of turns, and
`none` stands for a parse that has not come back by then. A `usize` is a natural number: no position
comes near its limit.
-/

namespace Libcfd.Edge.Discovery

open Libcfd.Loop Libcfd.Rpc

/-! ## Bytes and text -/

/-- `u16::from_be_bytes` of the two bytes at `position`, which the caller has checked are there. -/
def u16At (bytes : List UInt8) (position : Nat) : UInt16 :=
  (bytes.getD position 0).toUInt16 <<< 8 ||| (bytes.getD (position + 1) 0).toUInt16

/-- The ranges the bytes after a first byte must lie in for a well-formed sequence, if there is
one. -/
def continuations (first : UInt8) : Option (List (UInt8 × UInt8)) :=
  if first < 0x80 then some []
  else if first < 0xc2 then none
  else if first < 0xe0 then some [(0x80, 0xbf)]
  else if first < 0xf0 then
    some [(if first = 0xe0 then 0xa0 else 0x80, if first = 0xed then 0x9f else 0xbf), (0x80, 0xbf)]
  else if first < 0xf5 then
    some [(if first = 0xf0 then 0x90 else 0x80, if first = 0xf4 then 0x8f else 0xbf), (0x80, 0xbf),
      (0x80, 0xbf)]
  else none

/-- The longest start of `bytes` that fits the ranges. -/
def fitting : List (UInt8 × UInt8) → List UInt8 → List UInt8
  | (low, high) :: ranges, b :: bytes =>
      if low ≤ b ∧ b ≤ high then b :: fitting ranges bytes else []
  | _, _ => []

/-- The code point of a first byte and the bytes after it. -/
def codePoint (first : UInt8) (more : List UInt8) : Nat :=
  more.foldl (fun n b => n * 64 + b.toNat % 64)
    (if more = [] then first.toNat else first.toNat % 2 ^ (6 - more.length))

/-- The next character, and how many bytes after the first it takes. -/
def lossyChar (first : UInt8) (bytes : List UInt8) : Char × Nat :=
  match continuations first with
  | none => (Char.ofNat 0xfffd, 0)
  | some ranges =>
      let more := fitting ranges bytes
      if more.length = ranges.length then (Char.ofNat (codePoint first more), more.length)
      else (Char.ofNat 0xfffd, more.length)

/-- `String::from_utf8_lossy`: a replacement character for each maximal start of a sequence that is
broken off, and for each byte that starts none. -/
def fromUtf8Lossy : List UInt8 → String
  | [] => ""
  | first :: bytes =>
      let next := lossyChar first bytes
      String.singleton next.1 ++ fromUtf8Lossy (bytes.drop next.2)
termination_by bytes => bytes.length
decreasing_by
  rw [List.length_drop, List.length_cons]
  exact Nat.lt_succ_of_le (Nat.sub_le _ _)

/-! ## Names -/

/-- What stands at a position of a name: the checks of a turn of `decode_name`, in their order. -/
inductive Entry where
  | terminator
  | pointer (target : Nat)
  | label (text : List UInt8)
  | malformed (error : IoError)
  deriving DecidableEq, Repr

def entryAt (bytes : List UInt8) (p : Nat) : Entry :=
  if p ≥ bytes.length then .malformed ⟨"name overflow"⟩
  else
    let length := bytes.getD p 0
    if length = 0 then .terminator
    else if length &&& 0xc0 = 0xc0 then
      if p + 1 ≥ bytes.length then .malformed ⟨"bad pointer"⟩
      else .pointer ((length &&& 0x3f).toNat <<< 8 ||| (bytes.getD (p + 1) 0).toNat)
    else if length &&& 0xc0 ≠ 0 then .malformed ⟨"bad label"⟩
    else if p + 1 + length.toNat > bytes.length then .malformed ⟨"label overflow"⟩
    else .label ((bytes.drop (p + 1)).take length.toNat)

/-- The variables of `decode_name`, `position` and `out` being its two out parameters. -/
structure Decoding where
  p : Nat
  position : Nat
  jumped : Bool
  out : String
  deriving DecidableEq, Repr

/-- A turn of the loop of `decode_name`. -/
def decodeTurn (bytes : List UInt8) (s : Decoding) :
    Turn Decoding (Except IoError (Nat × String)) :=
  match entryAt bytes s.p with
  | .malformed error => .leave (.error error)
  | .terminator => .leave (.ok (if s.jumped then s.position else s.p + 1, s.out))
  | .pointer target =>
      .again { s with
        p := target
        position := if s.jumped then s.position else s.p + 2
        jumped := true }
  | .label text =>
      .again { s with
        p := s.p + 1 + text.length
        out := (if s.out.isEmpty then s.out else s.out.push '.') ++ fromUtf8Lossy text }

/-- `decode_name`, which leaves its position and its output behind. -/
def decodeName (fuel : Nat) (bytes : List UInt8) (position : Nat) (out : String) :
    Option (Except IoError (Nat × String)) :=
  run (decodeTurn bytes) fuel ⟨position, position, false, out⟩

/-- `skip_name`: every turn moves forward. -/
def skipName (bytes : List UInt8) (position : Nat) : Except IoError Nat :=
  if position ≥ bytes.length then .error ⟨"name overflow"⟩
  else
    let length := bytes.getD position 0
    if length = 0 then .ok (position + 1)
    else if length &&& 0xc0 = 0xc0 then .ok (position + 2)
    else if length &&& 0xc0 ≠ 0 then .error ⟨"bad label"⟩
    else skipName bytes (position + 1 + length.toNat)
termination_by bytes.length - position

/-! ## The answer section -/

/-- The port of an SRV record and where the name of its target begins. -/
structure Target where
  port : UInt16
  position : Nat
  deriving DecidableEq, Repr

/-- A turn of the loop over the answers up to where it decodes a name: the position after the
answer and, if the answer is an SRV record, its target. -/
def readAnswer (bytes : List UInt8) (position : Nat) : Except IoError (Nat × Option Target) :=
  if position ≥ bytes.length then .error ⟨"truncated dns answer"⟩
  else
    match skipName bytes position with
    | .error error => .error error
    | .ok position =>
        if position + 10 > bytes.length then .error ⟨"truncated rr"⟩
        else
          let rtype := u16At bytes position
          let rclass := u16At bytes (position + 2)
          let rdlen := (u16At bytes (position + 8)).toNat
          let position := position + 10
          if position + rdlen > bytes.length then .error ⟨"truncated rdata"⟩
          else
            let rdata := (bytes.drop position).take rdlen
            let position := position + rdlen
            if rclass ≠ 1 then .ok (position, none)
            else if rtype = 33 ∧ rdlen ≥ 6 then
              .ok (position, some ⟨u16At rdata 4, position - rdlen + 6⟩)
            else .ok (position, none)

/-- The loop over the answers that are left. -/
def readAnswers (fuel : Nat) (bytes : List UInt8) :
    Nat → Nat → List (String × UInt16) → Option (Except IoError (List (String × UInt16)))
  | 0, _, records => some (.ok records)
  | count + 1, position, records =>
      match readAnswer bytes position with
      | .error error => some (.error error)
      | .ok (position, none) => readAnswers fuel bytes count position records
      | .ok (position, some target) =>
          match decodeName fuel bytes target.position "" with
          | none => none
          | some (.error error) => some (.error error)
          | some (.ok (_, name)) =>
              readAnswers fuel bytes count position (records ++ [(name, target.port)])

/-- The header and the question: how many answers there are and where the first begins. -/
def readHeader (bytes : List UInt8) (identifier : UInt16) : Except IoError (Nat × Nat) :=
  if bytes.length < 12 then .error ⟨"short dns header"⟩
  else if u16At bytes 0 ≠ identifier then .error ⟨"dns id mismatch"⟩
  else
    match skipName bytes 12 with
    | .error error => .error error
    | .ok position => .ok ((u16At bytes 6).toNat, position + 4)

/-- `parse_srv_response`. -/
def parseSrvResponse (fuel : Nat) (bytes : List UInt8) (identifier : UInt16) :
    Option (Except IoError (List (String × UInt16))) :=
  match readHeader bytes identifier with
  | .error error => some (.error error)
  | .ok (count, position) => readAnswers fuel bytes count position []

end Libcfd.Edge.Discovery

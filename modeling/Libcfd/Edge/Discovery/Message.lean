import Libcfd.Edge.Discovery.Answer

/-!
# Well-formed responses

A DNS response as it is written: a header, one question, answer records and whatever comes behind
them. Of such a response `parse_srv_response` gives the targets and ports of the SRV records of the
Internet, in their order.
-/

namespace Libcfd.Edge.Discovery

open Libcfd.Loop Libcfd.Rpc

/-! ## How a response is written -/

inductive Rdata where
  | srv (priority weight port : UInt16) (target : WireName)
  | other (bytes : List UInt8)

def Rdata.bytes : Rdata → List UInt8
  | .srv priority weight port target =>
      u16Bytes priority ++ u16Bytes weight ++ u16Bytes port ++ target.bytes
  | .other bytes => bytes

def u32Bytes (n : UInt32) : List UInt8 :=
  u16Bytes (n >>> 16).toUInt16 ++ u16Bytes n.toUInt16

/-- An answer record. An SRV record of the Internet has a port and a target. -/
structure Record where
  owner : WireName
  rtype : UInt16
  rclass : UInt16
  ttl : UInt32
  rdata : Rdata
  length_rdata : rdata.bytes.length < 2 ^ 16
  srv : rclass = 1 ∧ rtype = 33 →
    ∃ priority weight port target, rdata = .srv priority weight port target

namespace Record

variable (record : Record)

/-- The fields of a fixed length. -/
def fixed : List UInt8 :=
  u16Bytes record.rtype ++ u16Bytes record.rclass ++ u32Bytes record.ttl ++
    u16Bytes record.rdata.bytes.length.toUInt16

def bytes : List UInt8 := record.owner.bytes ++ record.fixed ++ record.rdata.bytes

/-- The target and the port of an SRV record of the Internet. -/
def target : Option (WireName × UInt16) :=
  match record.rdata with
  | .srv _ _ port target =>
      if record.rclass = 1 ∧ record.rtype = 33 then some (target, port) else none
  | .other _ => none

/-- Where a record that begins at `p` is in its message. -/
def answer (p : Nat) : Answer where
  rtype := record.rtype
  rclass := record.rclass
  start := p + record.owner.bytes.length + 10
  rdlen := record.rdata.bytes.length

end Record

/-- A response with one question. -/
structure Message where
  identifier : UInt16
  flags : UInt16
  question : WireName
  qtype : UInt16
  qclass : UInt16
  answers : List Record
  length_answers : answers.length < 2 ^ 16
  -- how many records the authority and the additional section have, and their bytes
  nscount : UInt16
  arcount : UInt16
  trailing : List UInt8

namespace Message

variable (message : Message)

def header : List UInt8 :=
  u16Bytes message.identifier ++ u16Bytes message.flags ++ u16Bytes 1 ++
    u16Bytes message.answers.length.toUInt16 ++ u16Bytes message.nscount ++ u16Bytes message.arcount

def bytes : List UInt8 :=
  message.header ++ message.question.bytes ++ u16Bytes message.qtype ++ u16Bytes message.qclass ++
    message.answers.flatMap Record.bytes ++ message.trailing

/-- The targets and ports of the SRV records of the Internet. -/
def targets : List (WireName × UInt16) := message.answers.filterMap Record.target

end Message

/-- A target stands for labels of ASCII without dots, and `record` has them as a host name. -/
def Resolves (bytes : List UInt8) (target : WireName × UInt16) (record : String × UInt16) : Prop :=
  record.2 = target.2 ∧ ∃ labels, target.1.Denotes bytes labels ∧
    (∀ label ∈ labels, IsPlain label) ∧ record.1 = hostname labels

/-! ## How it is parsed -/

section Parse

variable {bytes : List UInt8} {p : Nat}

theorem length_u16Bytes (n : UInt16) : (u16Bytes n).length = 2 := rfl

theorem isLabel_of_nameAt {labels : List (List UInt8)} (h : NameAt bytes p labels) :
    ∀ label ∈ labels, IsLabel label := by
  induction h with
  | root => exact List.forall_mem_nil _
  | label hlabel _ _ ih => exact List.forall_mem_cons.mpr ⟨hlabel, ih⟩
  | pointer _ _ _ ih => exact ih

theorem length_fixed (record : Record) : record.fixed.length = 10 := rfl

theorem stop_answer (record : Record) (p : Nat) :
    (record.answer p).stop = p + record.bytes.length := by
  rw [Answer.stop, Record.answer, Record.bytes, List.length_append, List.length_append,
    length_fixed]
  show p + record.owner.bytes.length + 10 + record.rdata.bytes.length = _
  omega

theorem fixedAt_bytes {record : Record} (h : Stands bytes p record.bytes) :
    fixedAt bytes (p + record.owner.bytes.length) = record.answer p := by
  have hfixed : Stands bytes (p + record.owner.bytes.length) record.fixed := h.left.right
  have hrdlen : record.rdata.bytes.length.toUInt16.toNat = record.rdata.bytes.length :=
    UInt16.toNat_ofNat_of_lt' record.length_rdata
  have hrtype := u16At_u16Bytes hfixed.left.left.left
  have hrclass := u16At_u16Bytes hfixed.left.left.right
  have hlength := u16At_u16Bytes hfixed.right
  rw [fixedAt, Record.answer, hrtype, show p + record.owner.bytes.length + 2 =
    p + record.owner.bytes.length + (u16Bytes record.rtype).length from rfl, hrclass,
    show p + record.owner.bytes.length + 8 = p + record.owner.bytes.length +
      (u16Bytes record.rtype ++ u16Bytes record.rclass ++ u32Bytes record.ttl).length from rfl,
    hlength, hrdlen]

theorem answerAt_bytes {record : Record} (h : Stands bytes p record.bytes) :
    answerAt bytes p = some (record.answer p) := by
  have hne : record.bytes ≠ [] := by
    apply List.ne_nil_of_length_pos
    rw [Record.bytes, List.length_append, List.length_append, length_fixed]
    omega
  have hlength := h.length_le hne
  have hstop := stop_answer record p
  have hstart : (record.answer p).start = p + record.owner.bytes.length + 10 := rfl
  rw [answerAt, skipName_bytes h.left.left]
  dsimp only
  rw [fixedAt_bytes h, if_pos]
  rw [Answer.stop] at hstop
  exact ⟨by omega, by rw [Answer.stop]; omega⟩

/-- Where the records are that begin at `p`. -/
def answersAt : Nat → List Record → List Answer
  | _, [] => []
  | p, record :: records => record.answer p :: answersAt (p + record.bytes.length) records

theorem answersFrom_bytes {records : List Record}
    (h : Stands bytes p (records.flatMap Record.bytes)) :
    answersFrom bytes records.length p = some (answersAt p records) := by
  induction records generalizing p with
  | nil => rfl
  | cons record records ih =>
      rw [List.flatMap_cons] at h
      rw [List.length_cons, answersFrom, answerAt_bytes h.left]
      simp only [Option.bind_eq_bind, Option.bind_some, stop_answer, ih h.right]
      rfl

theorem stands_rdata {record : Record} (h : Stands bytes p record.bytes) :
    Stands bytes (record.answer p).start record.rdata.bytes := by
  have hrdata := h.right
  rwa [List.length_append, length_fixed, ← Nat.add_assoc] at hrdata

/-- The code takes a record for an SRV record of the Internet where it is one. -/
theorem target_answer {record : Record} (h : Stands bytes p record.bytes) :
    (record.answer p).target bytes = record.target.map fun target =>
      ⟨target.2, (record.answer p).start + 6⟩ := by
  have hrdata := stands_rdata h
  rw [Answer.target, Record.target]
  by_cases hsrv : record.rclass = 1 ∧ record.rtype = 33
  · obtain ⟨priority, weight, port, target, heq⟩ := record.srv hsrv
    have hrdlen : 6 ≤ (record.answer p).rdlen := by
      show 6 ≤ record.rdata.bytes.length
      rw [heq, Rdata.bytes, List.length_append]
      exact Nat.le_add_right 6 _
    rw [heq] at hrdata
    have hport := u16At_u16Bytes hrdata.left.right
    rw [if_pos ⟨hsrv, hrdlen⟩, heq]
    dsimp only
    rw [if_pos hsrv, Option.map_some, ← hport]
    rfl
  · rw [if_neg fun h => hsrv h.1]
    cases record.rdata with
    | srv priority weight port target =>
        dsimp only
        rw [if_neg hsrv]
        rfl
    | other rdata => rfl

theorem stands_target {record : Record} (h : Stands bytes p record.bytes)
    {target : WireName × UInt16} (htarget : record.target = some target) :
    Stands bytes ((record.answer p).start + 6) target.1.bytes := by
  have hrdata := stands_rdata h
  unfold Record.target at htarget
  split at htarget
  · next heq =>
      obtain ⟨_, htarget⟩ := Option.ite_none_right_eq_some.mp htarget
      cases htarget
      rw [heq] at hrdata
      exact hrdata.right
  · cases htarget

theorem decodes_of_resolves {target : WireName × UInt16} {position : Nat}
    (h : Stands bytes position target.1.bytes) {record : String × UInt16}
    (hresolves : Resolves bytes target record) : Decodes bytes ⟨target.2, position⟩ record := by
  obtain ⟨hport, labels, hdenotes, hplain, hname⟩ := hresolves
  have hnameAt := nameAt_of_denotes h hdenotes
  obtain ⟨position', hleaves⟩ := leaves_of_nameAt hnameAt position false ""
  refine ⟨hport, position', ?_⟩
  rw [hname, ← foldl_addLabel fun label hlabel =>
    ⟨isLabel_of_nameAt hnameAt label hlabel, hplain label hlabel⟩]
  exact hleaves

theorem forall₂_decodes {records : List Record} {found : List (String × UInt16)}
    (h : Stands bytes p (records.flatMap Record.bytes))
    (hfound : List.Forall₂ (Resolves bytes) (records.filterMap Record.target) found) :
    List.Forall₂ (Decodes bytes) ((answersAt p records).filterMap (Answer.target bytes)) found := by
  induction records generalizing p found with
  | nil => 
      cases hfound
      exact .nil
  | cons record records ih =>
      rw [List.flatMap_cons] at h
      have htarget := target_answer h.left
      rw [answersAt]
      cases hrecord : record.target with
      | none =>
          rw [hrecord] at htarget
          rw [List.filterMap_cons_none hrecord] at hfound
          rw [List.filterMap_cons_none htarget]
          exact ih h.right hfound
      | some target =>
          rw [hrecord] at htarget
          rw [List.filterMap_cons_some hrecord] at hfound
          rw [List.filterMap_cons_some htarget]
          cases hfound with
          | cons hone hrest =>
            exact .cons (decodes_of_resolves (stands_target h.left hrecord) hone)
              (ih h.right hrest)

theorem length_header (message : Message) : message.header.length = 12 := rfl

theorem stands_bytes (message : Message) : Stands message.bytes 0 message.bytes :=
  List.prefix_refl _

theorem stands_header (message : Message) : Stands message.bytes 0 message.header :=
  (stands_bytes message).left.left.left.left.left

theorem stands_question (message : Message) :
    Stands message.bytes 12 message.question.bytes := by
  have hquestion := (stands_bytes message).left.left.left.left.right
  rwa [length_header] at hquestion

theorem stands_answers (message : Message) :
    Stands message.bytes (12 + message.question.bytes.length + 4)
      (message.answers.flatMap Record.bytes) := by
  have hanswers := (stands_bytes message).left.right
  simp only [List.length_append, length_header, length_u16Bytes] at hanswers
  have hposition : 0 + (12 + message.question.bytes.length + 2 + 2) =
      12 + message.question.bytes.length + 4 := by omega
  rwa [hposition] at hanswers

theorem readHeader_bytes (message : Message) :
    readHeader message.bytes message.identifier =
      .ok (message.answers.length, 12 + message.question.bytes.length + 4) := by
  have hheader := stands_header message
  have hlength : 12 ≤ message.bytes.length := by
    have hle := hheader.length_le (List.cons_ne_nil _ _)
    rwa [length_header, Nat.zero_add] at hle
  have hidentifier := u16At_u16Bytes hheader.left.left.left.left.left
  have hcount : u16At message.bytes 6 = message.answers.length.toUInt16 :=
    u16At_u16Bytes hheader.left.left.right
  have hanswers : message.answers.length.toUInt16.toNat = message.answers.length :=
    UInt16.toNat_ofNat_of_lt' message.length_answers
  rw [readHeader, if_neg (Nat.not_lt_of_le hlength), if_neg (not_not_intro hidentifier),
    skipName_bytes (stands_question message), hcount, hanswers]

end Parse

theorem parseSrvResponse_mono {bytes : List UInt8} {identifier : UInt16} {fuel more : Nat}
    {result : Except IoError (List (String × UInt16))}
    (h : parseSrvResponse fuel bytes identifier = some result) (hle : fuel ≤ more) :
    parseSrvResponse more bytes identifier = some result := by
  unfold parseSrvResponse at h ⊢
  split at h
  · exact h
  · exact readAnswers_mono h hle

/-- **A well-formed response is parsed**: the result is the targets and the ports of the SRV records
of the Internet, in the order of the records, and nothing of the others. -/
theorem parseSrvResponse_bytes (message : Message) {records : List (String × UInt16)}
    (h : List.Forall₂ (Resolves message.bytes) message.targets records) :
    ∃ turns, ∀ fuel, turns ≤ fuel →
      parseSrvResponse fuel message.bytes message.identifier = some (.ok records) := by
  have hstands := stands_answers message
  obtain ⟨turns, hturns⟩ := (parseSrvResponse_ok_iff message.identifier records).mpr
    ⟨_, _, _, readHeader_bytes message, answersFrom_bytes hstands, forall₂_decodes hstands h⟩
  exact ⟨turns, fun fuel hle => parseSrvResponse_mono hturns hle⟩

/-! ## A response -/

/-- "a". -/
def shortName : WireName := ⟨[[97]], .root, by decide⟩

/-- "b", and from there on the name at offset 12. -/
def compressedName : WireName := ⟨[[98]], .pointer 12, by decide⟩

/-- The question is for "a"; the answers are an address and an SRV record with a target "b.a". -/
def shortResponse : Message where
  identifier := 0x1234
  flags := 0x8180
  question := shortName
  qtype := 33
  qclass := 1
  answers :=
    [⟨⟨[], .pointer 12, by decide⟩, 1, 1, 60, .other [127, 0, 0, 1], by decide,
        fun h => absurd h.2 (by decide)⟩,
      ⟨shortName, 33, 1, 60, .srv 0 0 7844 compressedName, by decide, fun _ => ⟨_, _, _, _, rfl⟩⟩]
  length_answers := by decide
  nscount := 0
  arcount := 1
  trailing := [1, 2, 3]

theorem parseSrvResponse_shortResponse :
    ∃ turns, ∀ fuel, turns ≤ fuel →
      parseSrvResponse fuel shortResponse.bytes 0x1234 = some (.ok [("b.a", 7844)]) := by
  have hname : NameAt shortResponse.bytes 12 [[97]] :=
    nameAt_of_denotes (stands_question shortResponse) rfl
  have hresolves : Resolves shortResponse.bytes (compressedName, 7844) ("b.a", 7844) :=
    ⟨rfl, [[98], [97]], ⟨[[97]], hname, rfl⟩, by decide, by decide⟩
  exact parseSrvResponse_bytes shortResponse (.cons hresolves .nil)

end Libcfd.Edge.Discovery

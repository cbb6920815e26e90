import Mathlib.Data.Bool.AllAny
import Libcfd.Edge.Discovery.Name

/-!
# Edge discovery: the SRV query

The owner of an SRV record is `_service._proto.name`. The query is put together from labels without
the underscores, so it never asks for the record the discovery is about.
-/

namespace Libcfd.Edge.Discovery

open Libcfd.Loop Libcfd.Origin Libcfd.Rpc

/-! ## `query_srv` -/

/-- `SRV_SERVICE`. -/
def srvService : String := "v2-origintunneld"

/-- `SRV_PROTO`. -/
def srvProto : String := "tcp"

/-- `SRV_NAME`. -/
def srvName : String := "argotunnel.com"

/-- The service `discover_edges` looks up. -/
def serviceOf (region : Option String) : String :=
  match region with
  | some r => if r.isEmpty then srvService else r ++ "-" ++ srvService
  | none => srvService

/-- A turn of the loop of `encode_name`. -/
def encodeLabel (out : List UInt8) (label : String) : Except IoError (List UInt8) :=
  if label.isEmpty ∨ (utf8 label).length > 63 then .error ⟨"bad label"⟩
  else .ok (out ++ (utf8 label).length.toUInt8 :: utf8 label)

/-- `encode_name`, which leaves its output behind. -/
def encodeName (out : List UInt8) (name : String) : Except IoError (List UInt8) :=
  ((name.toList.splitOn '.').map String.ofList).foldlM encodeLabel out

/-- What `query_srv` sends. -/
def srvQuery (identifier : UInt16) (service proto name : String) : Except IoError (List UInt8) := do
  let qname ← encodeName [] service
  let qname ← encodeName qname proto
  let qname ← encodeName qname name
  let qname := qname ++ [0]
  return u16Bytes identifier ++ [0x01, 0x00] ++ [0, 1] ++ [0, 0] ++ [0, 0] ++ [0, 0] ++ qname ++
    [0, 33] ++ [0, 1]

/-! ## What it asks for -/

/-- The question, decoded as the answers are, is for `name`. -/
def AsksFor (identifier : UInt16) (region : Option String) (name : String) : Prop :=
  ∃ query fuel position, srvQuery identifier (serviceOf region) srvProto srvName = .ok query ∧
    decodeName fuel query 12 "" = some (.ok (position, name))

/-- The record the documentation has the discovery look up. -/
def documentedName (region : Option String) : String :=
  match region with
  | some r =>
      if r.isEmpty then "_v2-origintunneld._tcp.argotunnel.com"
      else "_" ++ r ++ "-v2-origintunneld._tcp.argotunnel.com"
  | none => "_v2-origintunneld._tcp.argotunnel.com"

/-- A region that makes one label with the service. -/
def IsRegion (region : Option String) : Prop :=
  ∀ r ∈ region, (∀ c ∈ r.toList, c.toNat < 128 ∧ c ≠ '.') ∧ r.length + 17 ≤ 63

/-! ### The labels of the question -/

/-- ASCII without a dot. -/
def IsPlainText (s : String) : Prop := ∀ c ∈ s.toList, c.toNat < 128 ∧ c ≠ '.'

instance (s : String) : Decidable (IsPlainText s) := List.decidableBAll _ s.toList

theorem utf8_plainText {s : String} (h : IsPlainText s) :
    utf8 s = s.toList.map fun c => c.toNat.toUInt8 := by
  have hascii := utf8_ascii fun c hc => (h c hc).1
  rwa [String.ofList_toList] at hascii

theorem length_utf8_plainText {s : String} (h : IsPlainText s) : (utf8 s).length = s.length := by
  rw [utf8_plainText h, List.length_map, String.length_toList]

theorem isPlain_utf8 {s : String} (h : IsPlainText s) : IsPlain (utf8 s) := by
  intro b hb
  rw [utf8_plainText h] at hb
  obtain ⟨c, hc, rfl⟩ := List.mem_map.mp hb
  obtain ⟨hascii, hdot⟩ := h c hc
  have htoNat : c.toNat.toUInt8.toNat = c.toNat :=
    UInt8.toNat_ofNat_of_lt' (Nat.lt_trans hascii (by decide))
  constructor
  · rw [UInt8.lt_iff_toNat_lt, htoNat]
    exact hascii
  · intro hb
    rw [← UInt8.toNat_inj, htoNat] at hb
    exact hdot (Char.toNat_inj.mp hb)

theorem ofAscii_utf8 {s : String} (h : IsPlainText s) : ofAscii (utf8 s) = s := by
  apply utf8_injective
  apply utf8_ofAscii
  intro b hb
  exact (isPlain_utf8 h b hb).1

/-- A text that fits a label. -/
def FitsLabel (s : String) : Prop := IsPlainText s ∧ 0 < s.length ∧ s.length < 64

instance (s : String) : Decidable (FitsLabel s) := inferInstanceAs (Decidable (_ ∧ _))

theorem isLabel_utf8 {s : String} (h : FitsLabel s) : IsLabel (utf8 s) := by
  rw [IsLabel, length_utf8_plainText h.1]
  exact h.2

theorem encodeLabel_ok {s : String} (h : FitsLabel s) (out : List UInt8) :
    encodeLabel out s = .ok (out ++ labelBytes (utf8 s)) := by
  apply if_neg
  rintro (hempty | hlong)
  · rw [String.isEmpty_iff.mp hempty] at h
    exact absurd h.2.1 (by decide)
  · rw [length_utf8_plainText h.1] at hlong
    exact absurd h.2.2 (by omega)

theorem encodeName_label {s : String} (h : FitsLabel s) (out : List UInt8) :
    encodeName out s = .ok (out ++ labelBytes (utf8 s)) := by
  have hsplit : s.toList.splitOn '.' = [s.toList] := by
    apply List.splitOn_eq_singleton
    intro hdot
    exact (h.1 '.' hdot).2 rfl
  rw [encodeName, hsplit, List.map_cons, List.map_nil, String.ofList_toList, List.foldlM_cons,
    encodeLabel_ok h]
  rfl

theorem encodeName_srvName (out : List UInt8) :
    encodeName out srvName =
      .ok (out ++ labelBytes (utf8 "argotunnel") ++ labelBytes (utf8 "com")) := by
  have hsplit : (srvName.toList.splitOn '.').map String.ofList = ["argotunnel", "com"] := by
    decide
  rw [encodeName, hsplit, List.foldlM_cons, encodeLabel_ok (by decide)]
  show encodeLabel _ "com" >>= _ = _
  rw [encodeLabel_ok (by decide)]
  rfl

/-- The name of the question. -/
def questionName (service : String) (h : FitsLabel service) : WireName where
  labels := [utf8 service, utf8 srvProto, utf8 "argotunnel", utf8 "com"]
  ending := .root
  isLabel := by
    intro label hlabel
    rcases List.mem_cons.mp hlabel with rfl | hlabel
    · exact isLabel_utf8 h
    · exact List.all_iff_forall_prop.mp (by decide) label hlabel

theorem srvQuery_eq (identifier : UInt16) {service : String} (h : FitsLabel service) :
    srvQuery identifier service srvProto srvName =
      .ok (u16Bytes identifier ++ [0x01, 0x00] ++ [0, 1] ++ [0, 0] ++ [0, 0] ++ [0, 0] ++
        (questionName service h).bytes ++ ([0, 33] ++ [0, 1])) := by
  have hproto : FitsLabel srvProto := by decide
  simp only [srvQuery, encodeName_label h, encodeName_label hproto, encodeName_srvName, bind,
    Except.bind, pure, Except.pure, questionName, WireName.bytes, Ending.bytes, List.flatMap_cons,
    List.flatMap_nil, List.append_assoc, List.nil_append]

theorem fitsLabel_serviceOf {region : Option String} (h : IsRegion region) :
    FitsLabel (serviceOf region) := by
  have hservice : FitsLabel srvService := by decide
  cases region with
  | none => exact hservice
  | some r =>
      obtain ⟨hplain, hlength⟩ := h r rfl
      by_cases hempty : r.isEmpty = true
      · rw [serviceOf, if_pos hempty]
        exact hservice
      · rw [serviceOf, if_neg hempty]
        have hsuffix : IsPlainText ("-" ++ srvService) := by decide
        have hseventeen : ("-" ++ srvService).length = 17 := by decide
        rw [String.append_assoc]
        refine ⟨?_, ?_, ?_⟩
        · intro c hc
          rw [String.toList_append] at hc
          rcases List.mem_append.mp hc with hc | hc
          · exact hplain c hc
          · exact hsuffix c hc
        · rw [String.length_append, hseventeen]
          omega
        · rw [String.length_append, hseventeen]
          omega

theorem nameAt_question (identifier : UInt16) {service : String} (h : FitsLabel service)
    {query : List UInt8} (hquery : srvQuery identifier service srvProto srvName = .ok query) :
    NameAt query 12 (questionName service h).labels := by
  rw [srvQuery_eq identifier h] at hquery
  cases hquery
  exact nameAt_of_denotes (stands_append_append _ _ _) rfl

theorem hostname_question {service : String} (h : FitsLabel service) :
    (questionName service h).labels.foldl addLabel "" = service ++ ".tcp.argotunnel.com" := by
  have hplain : ∀ label ∈ (questionName service h).labels, IsLabel label ∧ IsPlain label := by
    intro label hlabel
    refine ⟨(questionName service h).isLabel label hlabel, ?_⟩
    rcases List.mem_cons.mp hlabel with rfl | hlabel
    · exact isPlain_utf8 h.1
    · exact List.all_iff_forall_prop.mp (by decide) label hlabel
  have hsuffix : ∀ s : String, s ++ ".tcp.argotunnel.com" =
      s ++ "." ++ "tcp" ++ "." ++ "argotunnel" ++ "." ++ "com" := by
    intro s
    simp only [String.append_assoc]
    rfl
  rw [foldl_addLabel hplain, hsuffix]
  simp only [questionName, hostname, List.foldl_cons, List.foldl_nil, ofAscii_utf8 h.1]
  rfl

/-- The discovery asks for the service without underscores, and for nothing else. -/
theorem asksFor_iff (identifier : UInt16) {region : Option String} (h : IsRegion region)
    (name : String) :
    AsksFor identifier region name ↔ name = serviceOf region ++ ".tcp.argotunnel.com" := by
  have hfits := fitsLabel_serviceOf h
  constructor
  · rintro ⟨query, fuel, position, hquery, hdecode⟩
    obtain ⟨position', hleaves⟩ := leaves_of_nameAt (nameAt_question identifier hfits hquery)
      12 false ""
    have hsame := Leaves.unique ⟨fuel, hdecode⟩ hleaves
    rw [hostname_question hfits] at hsame
    cases hsame
    rfl
  · rintro rfl
    have hquery := srvQuery_eq identifier hfits
    obtain ⟨position, fuel, hdecode⟩ := leaves_of_nameAt (nameAt_question identifier hfits hquery)
      12 false ""
    rw [hostname_question hfits] at hdecode
    exact ⟨_, fuel, position, hquery, hdecode⟩

/-- The documented name has the two underscores more. -/
theorem length_documentedName (region : Option String) :
    (documentedName region).length = (serviceOf region ++ ".tcp.argotunnel.com").length + 2 := by
  have hplain : "_v2-origintunneld._tcp.argotunnel.com".length =
      (srvService ++ ".tcp.argotunnel.com").length + 2 := by decide
  cases region with
  | none => exact hplain
  | some r =>
      by_cases hempty : r.isEmpty = true
      · rw [documentedName, serviceOf, if_pos hempty, if_pos hempty]
        exact hplain
      · have hsuffix : "-v2-origintunneld._tcp.argotunnel.com".length =
            ("-" ++ srvService ++ ".tcp.argotunnel.com").length + 1 := by decide
        rw [documentedName, serviceOf, if_neg hempty, if_neg hempty]
        simp only [String.length_append] at hsuffix ⊢
        rw [hsuffix]
        have hone : "_".length = 1 := rfl
        omega

/-- **The query never asks for the documented record**, whatever the region: the name on the wire is
the one without the underscores. -/
theorem srvQuery_never_documented (identifier : UInt16) {region : Option String}
    (h : IsRegion region) :
    AsksFor identifier region (serviceOf region ++ ".tcp.argotunnel.com") ∧
      ¬ AsksFor identifier region (documentedName region) := by
  refine ⟨(asksFor_iff identifier h _).mpr rfl, ?_⟩
  intro hasks
  have hlength := length_documentedName region
  rw [(asksFor_iff identifier h _).mp hasks] at hlength
  omega

theorem srvQuery_never_documented_us :
    AsksFor 0 (some "us") "us-v2-origintunneld.tcp.argotunnel.com" ∧
      ¬ AsksFor 0 (some "us") "_us-v2-origintunneld._tcp.argotunnel.com" := by
  have hregion : IsRegion (some "us") := by
    rintro r ⟨⟩
    exact ⟨List.all_iff_forall_prop.mp (by decide), by decide⟩
  exact srvQuery_never_documented 0 hregion

theorem not_asksFor_documented : ¬ AsksFor 0 none (documentedName none) := by
  have hregion : IsRegion none := by
    rintro r ⟨⟩
  rw [asksFor_iff 0 hregion]
  decide

end Libcfd.Edge.Discovery

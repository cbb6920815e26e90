import Libcfd.Edge.Discovery.Query

/-!
# Names there and back

`encode_name` takes a name apart at its dots and writes the labels; `decode_name` reads labels and
puts dots between them. So several names written one after another are read as one, and what is read
is what was written.
-/

namespace Libcfd.Edge.Discovery

open Libcfd.Loop Libcfd.Origin Libcfd.Rpc

/-! ## Writing -/

def labelsOf (name : String) : List String := (name.toList.splitOn '.').map String.ofList

/-- The bytes of labels of text. -/
def textBytes (labels : List String) : List UInt8 :=
  labels.flatMap fun label => labelBytes (utf8 label)

theorem labelsOf_ne_nil (name : String) : labelsOf name ≠ [] := by
  intro h
  exact List.splitOn_ne_nil '.' name.toList (List.map_eq_nil_iff.mp h)

theorem intercalate_labelsOf (name : String) : ".".intercalate (labelsOf name) = name := by
  have hmap : (labelsOf name).map String.toList = name.toList.splitOn '.' := by
    rw [labelsOf, List.map_map]
    conv => rhs; rw [← List.map_id (name.toList.splitOn '.')]
    apply List.map_congr_left
    intro cs _
    exact String.toList_ofList
  rw [← String.toList_inj, String.toList_intercalate, hmap]
  exact List.intercalate_splitOn '.'

theorem intercalate_flatMap_labelsOf (names : List String) :
    ".".intercalate (names.flatMap labelsOf) = ".".intercalate names := by
  induction names with
  | nil => rfl
  | cons name names ih =>
      by_cases hne : names = []
      · subst hne
        rw [List.flatMap_cons, List.flatMap_nil, List.append_nil, intercalate_labelsOf,
          String.intercalate_singleton]
      · have hlabels : names.flatMap labelsOf ≠ [] := by
          obtain ⟨other, hother⟩ := List.exists_mem_of_ne_nil names hne
          intro h
          exact labelsOf_ne_nil other (List.flatMap_eq_nil_iff.mp h other hother)
        rw [List.flatMap_cons, String.intercalate_append_of_ne_nil (labelsOf_ne_nil name) hlabels,
          intercalate_labelsOf, ih, String.intercalate_cons_of_ne_nil hne]

theorem isLabel_utf8_iff {label : String} :
    IsLabel (utf8 label) ↔ ¬ (label.isEmpty ∨ (utf8 label).length > 63) := by
  have hempty : label.isEmpty = true ↔ (utf8 label).length = 0 := by
    rw [List.length_eq_zero_iff, String.isEmpty_iff]
    constructor
    · rintro rfl
      rfl
    · intro h
      exact utf8_injective h
  rw [hempty, IsLabel]
  omega

theorem encodeLabel_eq_ok {out out' : List UInt8} {label : String} :
    encodeLabel out label = .ok out' ↔
      IsLabel (utf8 label) ∧ out' = out ++ labelBytes (utf8 label) := by
  rw [isLabel_utf8_iff, encodeLabel]
  split
  · next hbad => exact iff_of_false nofun fun h => h.1 hbad
  · next hgood =>
      constructor
      · rintro ⟨⟩
        exact ⟨hgood, rfl⟩
      · rintro ⟨_, rfl⟩
        rfl

theorem foldlM_encodeLabel_eq_ok {out out' : List UInt8} {labels : List String} :
    labels.foldlM encodeLabel out = .ok out' ↔
      (∀ label ∈ labels, IsLabel (utf8 label)) ∧ out' = out ++ textBytes labels := by
  induction labels generalizing out with
  | nil =>
      constructor
      · rintro ⟨⟩
        exact ⟨nofun, (List.append_nil _).symm⟩
      · rintro ⟨_, rfl⟩
        exact congrArg Except.ok (List.append_nil _).symm
  | cons label labels ih =>
      rw [List.foldlM_cons, List.forall_mem_cons, textBytes, List.flatMap_cons]
      constructor
      · intro h
        cases hlabel : encodeLabel out label with
        | error e =>
            rw [hlabel] at h
            cases h
        | ok next =>
            rw [hlabel] at h
            obtain ⟨hvalid, rfl⟩ := encodeLabel_eq_ok.mp hlabel
            obtain ⟨hrest, rfl⟩ := ih.mp h
            exact ⟨⟨hvalid, hrest⟩, List.append_assoc _ _ _⟩
      · rintro ⟨⟨hvalid, hrest⟩, rfl⟩
        rw [encodeLabel_eq_ok.mpr ⟨hvalid, rfl⟩]
        exact ih.mpr ⟨hrest, (List.append_assoc _ _ _).symm⟩

/-- What `encode_name` writes for names one after another. -/
theorem foldlM_encodeName_eq_ok {out out' : List UInt8} {names : List String} :
    names.foldlM encodeName out = .ok out' ↔
      (∀ label ∈ names.flatMap labelsOf, IsLabel (utf8 label)) ∧
        out' = out ++ textBytes (names.flatMap labelsOf) := by
  have hfold : names.foldlM encodeName out = (names.flatMap labelsOf).foldlM encodeLabel out := by
    induction names generalizing out with
    | nil => rfl
    | cons name names ih =>
        rw [List.foldlM_cons, List.flatMap_cons, List.foldlM_append]
        congr 1
        funext out
        exact ih
  rw [hfold]
  exact foldlM_encodeLabel_eq_ok

/-! ## Reading -/

theorem addLabel_utf8 {out : String} (hout : out ≠ "") (label : String) :
    addLabel out (utf8 label) = out ++ "." ++ label := by
  rw [addLabel, if_neg fun h => hout (String.isEmpty_iff.mp h), fromUtf8Lossy_utf8]
  rfl

theorem foldl_addLabel_utf8_of_ne {out : String} (hout : out ≠ "") (labels : List String) :
    labels.foldl (fun out label => addLabel out (utf8 label)) out =
      ".".intercalate (out :: labels) := by
  induction labels generalizing out with
  | nil => exact String.intercalate_singleton.symm
  | cons label labels ih =>
      have hne : out ++ "." ++ label ≠ "" := by
        intro hempty
        exact hout (String.append_eq_empty_iff.mp (String.append_eq_empty_iff.mp hempty).1).1
      rw [List.foldl_cons, addLabel_utf8 hout, ih hne, String.intercalate_cons_append,
        String.intercalate_cons_cons]

theorem foldl_addLabel_utf8 {labels : List String}
    (h : ∀ label ∈ labels, IsLabel (utf8 label)) :
    labels.foldl (fun out label => addLabel out (utf8 label)) "" = ".".intercalate labels := by
  cases labels with
  | nil => rfl
  | cons label labels =>
      have hne : label ≠ "" := by
        rintro rfl
        exact absurd (h "" List.mem_cons_self).1 (by decide)
      have hone : addLabel "" (utf8 label) = label := by
        rw [addLabel, fromUtf8Lossy_utf8]
        exact String.empty_append
      rw [List.foldl_cons, hone, foldl_addLabel_utf8_of_ne hne]

/-- Labels up to the root are spelled out, and the position left behind is the one after it. -/
theorem leaves_textBytes {bytes : List UInt8} {p : Nat} {labels : List String}
    (h : ∀ label ∈ labels, IsLabel (utf8 label)) (hstands : Stands bytes p (textBytes labels ++ [0]))
    (position : Nat) (out : String) :
    Leaves (decodeTurn bytes) ⟨p, position, false, out⟩
      (.ok (p + (textBytes labels).length + 1,
        labels.foldl (fun out label => addLabel out (utf8 label)) out)) := by
  induction labels generalizing p out with
  | nil =>
      apply leaves_of_leave
      simp only [decodeTurn, entryAt_root hstands]
      rfl
  | cons label labels ih =>
      have hlabel := h label List.mem_cons_self
      rw [textBytes, List.flatMap_cons, List.append_assoc] at hstands
      have hlength : p + 1 + (utf8 label).length = p + (labelBytes (utf8 label)).length := by
        rw [labelBytes, List.length_cons]
        omega
      have hrest := hstands.right
      rw [← hlength] at hrest
      have hleaves := ih (fun other hother => h other (List.mem_cons_of_mem label hother)) hrest
        (addLabel out (utf8 label))
      have hend : p + 1 + (utf8 label).length + (textBytes labels).length + 1 =
          p + (textBytes (label :: labels)).length + 1 := by
        rw [textBytes, textBytes, List.flatMap_cons, List.length_append, hlength]
        omega
      rw [hend] at hleaves
      refine (leaves_again ?_).mpr hleaves
      simp only [decodeTurn, entryAt_labelBytes hlabel hstands.left]
      rfl

/-! ## The round trip -/

theorem leaves_encodeNames {names : List String} {out bytes : List UInt8} {p : Nat}
    (hout : names.foldlM encodeName [] = .ok out) (hstands : Stands bytes p (out ++ [0])) :
    Leaves (decodeTurn bytes) ⟨p, p, false, ""⟩ (.ok (p + out.length + 1, ".".intercalate names)) := by
  obtain ⟨hlabels, rfl⟩ := foldlM_encodeName_eq_ok.mp hout
  have hleaves := leaves_textBytes hlabels hstands p ""
  rwa [foldl_addLabel_utf8 hlabels, intercalate_flatMap_labelsOf] at hleaves

theorem skipName_encodeNames {names : List String} {out bytes : List UInt8} {p : Nat}
    (hout : names.foldlM encodeName [] = .ok out) (hstands : Stands bytes p (out ++ [0])) :
    skipName bytes p = .ok (p + out.length + 1) := by
  obtain ⟨hlabels, rfl⟩ := foldlM_encodeName_eq_ok.mp hout
  let name : WireName :=
    { labels := (names.flatMap labelsOf).map utf8
      ending := .root
      isLabel := List.forall_mem_map.mpr hlabels }
  have hbytes : name.bytes = [] ++ textBytes (names.flatMap labelsOf) ++ [0] := by
    rw [WireName.bytes, List.flatMap_map]
    rfl
  rw [← hbytes] at hstands
  rw [skipName_bytes hstands, hbytes, List.length_append, List.length_singleton, Nat.add_assoc]

theorem intercalate_eq_of_encodeNames {names names' : List String} {out : List UInt8}
    (h : names.foldlM encodeName [] = .ok out) (h' : names'.foldlM encodeName [] = .ok out) :
    ".".intercalate names = ".".intercalate names' := by
  have hstands : Stands (out ++ [0]) 0 (out ++ [0]) := List.prefix_rfl
  have heq := (leaves_encodeNames h hstands).unique (leaves_encodeNames h' hstands)
  injection heq with heq
  exact congrArg Prod.snd heq

theorem encodeName_injective {name name' : String} {out : List UInt8}
    (h : encodeName [] name = .ok out) (h' : encodeName [] name' = .ok out) : name = name' := by
  have hone : ∀ {name : String}, encodeName [] name = .ok out →
      [name].foldlM encodeName [] = .ok out := by
    intro name h
    rw [List.foldlM_cons, h]
    rfl
  have heq := intercalate_eq_of_encodeNames (hone h) (hone h')
  rwa [String.intercalate_singleton, String.intercalate_singleton] at heq

/-- **What is written is read.** Names written one after another come back with dots between them,
wherever they stand, the position is the one after them, and `skip_name` comes to it as well. So
names that are written alike are the same. -/
theorem decodeName_encodeNames {names : List String} {out bytes : List UInt8} {p : Nat}
    (hout : names.foldlM encodeName [] = .ok out) (hstands : Stands bytes p (out ++ [0])) :
    (∃ turns, ∀ fuel, turns ≤ fuel →
      decodeName fuel bytes p "" = some (.ok (p + out.length + 1, ".".intercalate names))) ∧
    skipName bytes p = .ok (p + out.length + 1) ∧
    ∀ name name' code, encodeName [] name = .ok code → encodeName [] name' = .ok code →
      name = name' := by
  obtain ⟨turns, hrun⟩ := leaves_encodeNames hout hstands
  refine ⟨⟨turns, fun fuel hle => run_mono hrun hle⟩, skipName_encodeNames hout hstands, ?_⟩
  intro name name' code h h'
  exact encodeName_injective h h'

theorem decodeName_encodeNames_accent :
    (∃ turns, ∀ fuel, turns ≤ fuel →
      decodeName fuel [255, 2, 195, 169, 1, 97, 3, 99, 111, 109, 0, 7] 1 "" =
        some (.ok (11, "é.a.com"))) ∧
    skipName [255, 2, 195, 169, 1, 97, 3, 99, 111, 109, 0, 7] 1 = .ok 11 := by
  have hout : ["é.a", "com"].foldlM encodeName [] =
      .ok [2, 195, 169, 1, 97, 3, 99, 111, 109] := by decide
  have hstands : Stands [255, 2, 195, 169, 1, 97, 3, 99, 111, 109, 0, 7] 1
      ([2, 195, 169, 1, 97, 3, 99, 111, 109] ++ [0]) := ⟨[7], rfl⟩
  obtain ⟨hdecode, hskip, _⟩ := decodeName_encodeNames hout hstands
  exact ⟨hdecode, hskip⟩

end Libcfd.Edge.Discovery

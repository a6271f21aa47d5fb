/-
  The labels of the fields of a type.

  A metadata field is written under its name with a capital first letter, and any text but the empty
  one is a name.  Nothing checks that such a label is one that a line can carry, nor that it is the
  label of no other field.

  Capital letters are blank exactly where the letters are, which takes a look at all runs and
  expansions of the upper-case map (`Text.any_isBlankChar_upperChar`).  So a field is found again by
  its label exactly if its name holds no blank, and a field with a blank in its name gets a line
  more with each value that is set.  Two fields have one label exactly if their names differ in no
  more than the first letter and what its capital form makes of it (`Text.SameCapital`).  All this
  is `Schema.labels_of_ofDocument`.
-/
import GraphKeeper.Proofs.EntityCalls
import GraphKeeper.Proofs.EntityTypes
import GraphKeeper.Proofs.MetadataLines

namespace GraphKeeper

/-! ## Capital letters -/

namespace Text

/-- The blank characters as ranges. -/
def blankRanges : List (Nat × Nat) :=
  [(9, 13), (0x20, 0x20), (0x85, 0x85), (0xA0, 0xA0), (0x1680, 0x1680), (0x2000, 0x200A),
    (0x2028, 0x2029), (0x202F, 0x202F), (0x205F, 0x205F), (0x3000, 0x3000)]

/-- A character is blank if it lies in one of these ranges. -/
theorem isBlankChar_iff {c : Char} :
    isBlankChar c = true ↔ ∃ r ∈ blankRanges, r.1 ≤ c.toNat ∧ c.toNat ≤ r.2 := by
  simp only [isBlankChar, blankRanges, List.mem_cons, List.not_mem_nil, or_false, exists_eq_or_imp,
    exists_eq_left, Bool.or_eq_true, Bool.and_eq_true, decide_eq_true_eq, beq_iff_eq]
  omega

/-- A number that is no code stands for a character that is not blank. -/
theorem exists_range_of_isBlankChar_ofNat {n : Nat} (h : isBlankChar (Char.ofNat n) = true) :
    ∃ r ∈ blankRanges, r.1 ≤ n ∧ n ≤ r.2 := by
  by_cases hn : n.isValidChar
  · have hcode : (Char.ofNat n).toNat = n := by
      rw [Char.ofNat, dif_pos hn]
      rfl
    rw [← hcode]
    exact isBlankChar_iff.mp h
  · rw [Char.ofNat, dif_neg hn] at h
    exact absurd h (by decide)

/-- No run starts at a blank character, and none leads to one. -/
theorem isBlankChar_of_covers {run : CaseRun} (hrun : run ∈ upperRuns) {c : Char}
    (h : run.covers c.toNat = true) : isBlankChar c = false ∧
      isBlankChar (Char.ofNat (Int.toNat (c.toNat + run.shift))) = false := by
  -- The table of runs is finite, and so are the ranges, so this is computed.
  have hapart : ∀ run ∈ upperRuns, ∀ r ∈ blankRanges, (run.last < r.1 ∨ r.2 < run.first) ∧
      (run.last + run.shift < (r.1 : Int) ∨ (r.2 : Int) < run.first + run.shift) := by
    decide +kernel
  have hpos : ∀ r ∈ blankRanges, 0 < r.1 := by decide
  simp only [CaseRun.covers, Bool.and_eq_true, decide_eq_true_eq] at h
  -- The run and its image lie apart from the blank ranges as a whole, whatever the step is.
  constructor
  · rw [Bool.eq_false_iff]
    intro hblank
    obtain ⟨r, hr, hfirst, hlast⟩ := isBlankChar_iff.mp hblank
    have := (hapart run hrun r hr).1
    omega
  · rw [Bool.eq_false_iff]
    intro hblank
    obtain ⟨r, hr, hfirst, hlast⟩ := exists_range_of_isBlankChar_ofNat hblank
    have := (hapart run hrun r hr).2
    have := hpos r hr
    omega

/-- **A capital letter is blank where the letter is.** -/
theorem any_isBlankChar_upperChar (c : Char) : (upperChar c).any isBlankChar = isBlankChar c := by
  have hascii : ∀ n < 0x80, isBlankChar (Char.ofNat n).toUpper = isBlankChar (Char.ofNat n) := by
    decide
  have hexpansions : ∀ e ∈ upperExpansions, isBlankChar (Char.ofNat e.1) = false ∧
      (e.2.map Char.ofNat).any isBlankChar = false := by
    decide +kernel
  -- Letters of ASCII have a map of their own; any other letter is expanded, moved or left alone.
  unfold upperChar
  split
  · rename_i hc
    have := hascii c.toNat hc
    rw [Char.ofNat_toNat] at this
    rw [List.any_cons, List.any_nil, Bool.or_false, this]
  · unfold expandBy
    split
    · rename_i e he
      obtain ⟨hc, hexpansion⟩ := hexpansions e (List.mem_of_find?_eq_some he)
      have hcode := List.find?_some he
      rw [eq_of_beq hcode, Char.ofNat_toNat] at hc
      rw [hc, hexpansion]
    · rw [List.any_cons, List.any_nil, Bool.or_false, shiftBy]
      split
      · rename_i run hrun
        have hcovers := List.find?_some hrun
        obtain ⟨hc, hshifted⟩ := isBlankChar_of_covers (List.mem_of_find?_eq_some hrun) hcovers
        rw [hc, hshifted]
      · rfl

/-- So a text holds a blank exactly if it does with a capital first letter. -/
theorem any_isBlankChar_capitalize (s : String) :
    (capitalize s).toList.any isBlankChar = s.toList.any isBlankChar := by
  unfold capitalize
  split
  · rename_i hs
    rw [hs]
    rfl
  · rename_i c cs hs
    rw [hs, String.toList_ofList, List.any_append, any_isBlankChar_upperChar, List.any_cons]

/-! ## Names with one capital form -/

/-- What the names begin with has one capital form, or that of one name's first letter has more
characters, which the other name goes on with. -/
def SameCapital : List Char → List Char → Prop
  | c :: cs, d :: ds =>
    (∃ more, upperChar d = upperChar c ++ more ∧ cs = more ++ ds) ∨
      ∃ more, upperChar c = upperChar d ++ more ∧ ds = more ++ cs
  | cs, ds => cs = ds

/-- **Texts have one capital form** as `SameCapital` says: one expansion may run into the other
text. -/
theorem capitalize_eq_iff {s t : String} :
    capitalize s = capitalize t ↔ SameCapital s.toList t.toList := by
  have hne : ∀ c cs, "" ≠ String.ofList (upperChar c ++ cs) := by
    intro c cs hempty
    have hnil := String.ofList_eq_empty_iff.mp hempty.symm
    exact upperChar_ne_nil c (List.append_eq_nil_iff.mp hnil).1
  unfold capitalize
  cases s.toList with
  | nil =>
    cases t.toList with
    | nil => exact iff_of_true rfl rfl
    | cons d ds => exact iff_of_false (hne d ds) (List.cons_ne_nil d ds).symm
  | cons c cs =>
    cases t.toList with
    | nil => exact iff_of_false (hne c cs).symm (List.cons_ne_nil c cs)
    | cons d ds => exact String.ofList_inj.trans List.append_eq_append_iff

end Text

/-! ## Fields -/

namespace Schema

open Metadata Tool GraphKeeper.Graph

/-- A line of the field carries its label, whatever the value is. -/
def EntityField.Addressable (f : EntityField) : Prop :=
  ∀ value, label? (line f.label value) = some f.label

variable {doc : Document} {type : EntityType} {f : EntityField}

/-- The label of a field is its name with a capital first letter. -/
theorem label_eq_capitalize (h : EntityType.ofDocument doc = .ok type)
    (hf : f ∈ type.metadataFields) : f.name ≠ "" ∧ f.label = Text.capitalize f.name := by
  obtain ⟨hf, hrole⟩ := mem_metadataFields.mp hf
  obtain ⟨p, _, hp⟩ := ofProperty_of_mem h hf (by rw [hrole]; exact fun he => nomatch he)
  obtain ⟨role, hroleOf, rfl⟩ := ofProperty_eq_ok_iff.mp hp
  exact ⟨(roleOf_eq_ok_iff.mp hroleOf).1, rfl⟩

/-- **It is a label exactly if the name holds no blank.** -/
theorem isLabel_label_iff (h : EntityType.ofDocument doc = .ok type)
    (hf : f ∈ type.metadataFields) :
    isLabel f.label.toList = true ↔ f.name.toList.any Text.isBlankChar = false := by
  rw [← Text.any_isBlankChar_capitalize, ← (label_eq_capitalize h hf).2]
  constructor
  · intro hlabel
    rw [isLabel, Bool.and_eq_true, Bool.not_eq_true', Bool.not_eq_true'] at hlabel
    exact hlabel.2
  · exact isLabel_label h hf

/-- A line is read back to the label that it was made of if that is one. -/
theorem addressable_iff_isLabel : f.Addressable ↔ isLabel f.label.toList = true :=
  ⟨fun h => isLabel_of_label? (h ""), fun h value => label?_line h value⟩

/-- **Labels, told from the names of fields.**  A field is found by its label exactly if its name
holds no blank.  If it does hold one, no value replaces the value before: each of them is added as a
line of its own, and clearing the field does nothing.  The labels are distinct exactly if no two
names have one capital form. -/
theorem labels_of_ofDocument (h : EntityType.ofDocument doc = .ok type) :
    (∀ f ∈ type.metadataFields,
        (f.Addressable ↔ f.name.toList.any Text.isBlankChar = false)) ∧
      (∀ f ∈ type.metadataFields, f.name.toList.any Text.isBlankChar = true →
        ∀ value lines, Metadata.set f.label value lines =
          lines ++ (value.map (line f.label)).toList) ∧
      ((type.metadataFields.map EntityField.label).Nodup ↔
        type.metadataFields.Pairwise fun f f' =>
          ¬ Text.SameCapital f.name.toList f'.name.toList) := by
  refine ⟨fun f hf => addressable_iff_isLabel.trans (isLabel_label_iff h hf), fun f hf hblank => ?_,
    ?_⟩
  · -- No line carries what is no label, so the field never finds the line before.
    refine set_of_not_isLabel (Bool.eq_false_iff.mpr fun hlabel => ?_)
    rw [(isLabel_label_iff h hf).mp hlabel] at hblank
    nomatch hblank
  · rw [List.Nodup, List.pairwise_map]
    refine List.Pairwise.iff_of_mem fun hf hf' => ?_
    rw [(label_eq_capitalize h hf).2, (label_eq_capitalize h hf').2]
    exact not_congr Text.capitalize_eq_iff

/-! ## A type with fields that are not found again -/

/-- A document with a blank in a name, and with two names that differ in the case of a letter. -/
def townDocument : Document where
  name := "add_citizen"
  description := ""
  properties :=
    [("home town", ⟨.string, "", false, none, none, none⟩),
      ("role", ⟨.string, "", false, none, none, none⟩),
      ("Role", ⟨.string, "", false, none, none, none⟩)]
  additional := false

def townType : EntityType :=
  ((EntityType.ofDocument townDocument).toOption).getD ⟨"", "", [], true⟩

theorem labels_of_townDocument :
    EntityType.ofDocument townDocument = .ok townType ∧
      (∀ f ∈ townType.metadataFields,
        (f.Addressable ↔ f.name.toList.any Text.isBlankChar = false)) ∧
      (∀ f ∈ townType.metadataFields, f.name.toList.any Text.isBlankChar = true →
        ∀ value lines, Metadata.set f.label value lines =
          lines ++ (value.map (line f.label)).toList) ∧
      ((townType.metadataFields.map EntityField.label).Nodup ↔
        townType.metadataFields.Pairwise fun f f' =>
          ¬ Text.SameCapital f.name.toList f'.name.toList) :=
  have hdoc : EntityType.ofDocument townDocument = .ok townType := rfl
  ⟨hdoc, labels_of_ofDocument hdoc⟩

/-- A new entity with a value for each field, and an update of the first one. -/
def annSettled : Members :=
  [("name", .str "Ann"), ("home town", .str "Rome"), ("role", .str "smith"), ("Role", .str "bard")]

def annMoved : Members := [("name", .str "Ann"), ("home town", .str "Oslo")]

/-- **There are fields that are not found by their labels, and some that share one.**  So of the
three values of the new entity two are kept, and the update adds a line where it should
replace one. -/
theorem not_addressable_townType :
    let added := (EntityTool.call ⟨.add, townType⟩ ⟨"m", .empty⟩ .empty (.obj annSettled)).2.1
    let updated := (EntityTool.call ⟨.update, townType⟩ added .empty (.obj annMoved)).2.1
    EntityType.ofDocument townDocument = .ok townType ∧
      ¬ (∀ f ∈ townType.metadataFields, f.Addressable) ∧
      ¬ (townType.metadataFields.map EntityField.label).Nodup ∧
      added.graph.nodes = [⟨"Ann", "citizen", ["Home town: Rome", "Role: bard"]⟩] ∧
      updated.graph.nodes =
        [⟨"Ann", "citizen", ["Home town: Rome", "Role: bard", "Home town: Oslo"]⟩] := by
  intro added updated
  refine ⟨rfl, fun h => ?_, by decide, by decide +kernel, by decide +kernel⟩
  have hfound : label? (line "Home town" "Rome") = some "Home town" :=
    h _ List.mem_cons_self "Rome"
  exact absurd hfound (by decide)

end Schema

end GraphKeeper

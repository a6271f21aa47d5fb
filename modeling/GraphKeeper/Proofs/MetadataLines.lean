/-
  Metadata lines as a table from labels to values.

  A label has no blank in it, so the first colon with a space behind it in `label: value` is the
  one that was written there, whatever colons the label holds and whatever the value is
  (`label?_line`).

  Lines may be looked at one label at a time (`carrying`).  Setting a label touches the first line
  that carries it and no line of another label (`carrying_set_self`, `carrying_set_of_ne`).  A text
  that is no label finds no line at all, so what is set for it is added (`set_of_not_isLabel`), and
  the added line may carry a label: `a: b` is no label, and its lines carry `a`.

  What a run of settings does to one label that it sets once is said in full by
  `carrying_applyMetadata_split`.  If all texts that are set are labels and distinct, each of them
  has what was set for it (`carrying_applyMetadata`) and the labels that were not set have what they
  had (`carrying_applyMetadata_of_forall_ne`); if besides no line carries them yet, one line after
  another is added (`applyMetadata_eq_append`).
-/
import GraphKeeper.Graph.Entity

namespace GraphKeeper.Metadata

/-! ## Labels -/

/-- The cut is made behind the label, however many colons are in it. -/
theorem cutLabel_append {label : List Char} (h : ' ' ∉ label) (value : List Char) :
    cutLabel (label ++ ':' :: ' ' :: value) = some (label, value) := by
  induction label with
  | nil => rfl
  | cons c cs ih =>
    have hcs := List.not_mem_of_not_mem_cons h
    -- Whatever `c` is, the character behind it is no space.
    have hhead : (cs ++ ':' :: ' ' :: value).head? ≠ some ' ' := by
      cases cs with
      | nil => exact fun h => nomatch h
      | cons c' cs =>
        intro h
        exact List.ne_of_not_mem_cons hcs (Option.some.inj h).symm
    rw [List.cons_append, cutLabel, if_neg fun h => hhead h.2, ih hcs]
    rfl

/-- A label has no space in it, as it has no blank. -/
theorem space_not_mem_of_isLabel {label : List Char} (h : isLabel label = true) :
    ' ' ∉ label := by
  intro hspace
  rw [isLabel, Bool.and_eq_true, Bool.not_eq_true', Bool.not_eq_true'] at h
  have hany : label.any Text.isBlankChar = true :=
    List.any_eq_true.mpr ⟨' ', hspace, by decide⟩
  rw [hany] at h
  exact Bool.noConfusion h.2

variable {label other : String}

/-- What a line carries is a label. -/
theorem isLabel_of_label? {l : String} (h : label? l = some label) :
    isLabel label.toList = true := by
  obtain ⟨⟨lead, value⟩, hsplit, rfl⟩ := Option.map_eq_some_iff.mp h
  obtain ⟨⟨cs, rest⟩, _, hif⟩ := Option.bind_eq_some_iff.mp hsplit
  obtain ⟨hlabel, hpair⟩ := Option.ite_none_right_eq_some.mp hif
  cases hpair
  rw [String.toList_ofList]
  exact hlabel

theorem toList_line (label value : String) :
    (line label value).toList = label.toList ++ ':' :: ' ' :: value.toList := by
  rw [line, String.toList_append, String.toList_append, List.append_assoc]
  rfl

/-- A line is taken apart into the label and the value that it was made of. -/
theorem split?_line (h : isLabel label.toList = true) (value : String) :
    split? (line label value) = some (label, value) := by
  rw [split?, toList_line, cutLabel_append (space_not_mem_of_isLabel h)]
  show (if isLabel label.toList = true then _ else _) = _
  rw [if_pos h, String.ofList_toList, String.ofList_toList]

/-- **A line that was made of a label carries the label.** -/
theorem label?_line (h : isLabel label.toList = true) (value : String) :
    label? (line label value) = some label := by
  rw [label?, split?_line h]
  rfl

/-! ## The lines of one label -/

/-- The lines that carry a label, in order. -/
def carrying (label : String) (lines : List String) : List String :=
  lines.filter fun l => label? l = some label

theorem carrying_cons_of_eq {l : String} (h : label? l = some label) (ls : List String) :
    carrying label (l :: ls) = l :: carrying label ls :=
  List.filter_cons_of_pos (decide_eq_true h)

theorem carrying_cons_of_ne {l : String} (h : label? l ≠ some label) (ls : List String) :
    carrying label (l :: ls) = carrying label ls :=
  List.filter_cons_of_neg (by rw [decide_eq_true_iff]; exact h)

theorem carrying_append (ls ls' : List String) :
    carrying label (ls ++ ls') = carrying label ls ++ carrying label ls' :=
  List.filter_append ls ls'

/-- What is set for a label carries that label. -/
theorem carrying_line (h : isLabel label.toList = true) (value : Option String) :
    carrying label (value.map (line label)).toList = (value.map (line label)).toList := by
  cases value with
  | none => rfl
  | some v => exact carrying_cons_of_eq (label?_line h v) []

/-- And it carries no other one. -/
theorem carrying_line_of_ne (h : isLabel label.toList = true) (hne : label ≠ other)
    (value : Option String) : carrying other (value.map (line label)).toList = [] := by
  cases value with
  | none => rfl
  | some v =>
    refine carrying_cons_of_ne ?_ []
    rw [label?_line h]
    exact fun he => hne (Option.some.inj he)

/-- The first line of the label is replaced or removed; one that is missing is added. -/
theorem carrying_set_self (h : isLabel label.toList = true) (value : Option String)
    (lines : List String) :
    carrying label (set label value lines) =
      (value.map (line label)).toList ++ (carrying label lines).tail := by
  induction lines with
  | nil => exact (carrying_line h value).trans (List.append_nil _).symm
  | cons l ls ih =>
    rw [set]
    -- The first line of the label ends the walk; a line of another label is passed by.
    by_cases hl : label? l = some label
    · rw [if_pos hl, carrying_append, carrying_line h, carrying_cons_of_eq hl, List.tail_cons]
    · rw [if_neg hl, carrying_cons_of_ne hl, carrying_cons_of_ne hl, ih]

/-- The lines of other labels stay. -/
theorem carrying_set_of_ne (h : isLabel label.toList = true) (hne : label ≠ other)
    (value : Option String) (lines : List String) :
    carrying other (set label value lines) = carrying other lines := by
  induction lines with
  | nil => exact carrying_line_of_ne h hne value
  | cons l ls ih =>
    rw [set]
    by_cases hl : label? l = some label
    · have hother : label? l ≠ some other := by
        rw [hl]
        exact fun he => hne (Option.some.inj he)
      rw [if_pos hl, carrying_append, carrying_line_of_ne h hne, carrying_cons_of_ne hother,
        List.nil_append]
    · rw [if_neg hl]
      by_cases hother : label? l = some other
      · rw [carrying_cons_of_eq hother, carrying_cons_of_eq hother, ih]
      · rw [carrying_cons_of_ne hother, carrying_cons_of_ne hother, ih]

/-- What is set for a label that no line carries comes behind all lines. -/
theorem set_of_carrying_eq_nil {lines : List String} (h : carrying label lines = [])
    (value : Option String) :
    set label value lines = lines ++ (value.map (line label)).toList := by
  induction lines with
  | nil => rfl
  | cons l ls ih =>
    by_cases hl : label? l = some label
    · rw [carrying_cons_of_eq hl] at h
      nomatch h
    · rw [carrying_cons_of_ne hl] at h
      rw [set, if_neg hl, ih h, List.cons_append]

/-- What is set for a text that is no label comes behind all lines. -/
theorem set_of_not_isLabel (h : isLabel label.toList = false) (value : Option String)
    (lines : List String) : set label value lines = lines ++ (value.map (line label)).toList := by
  refine set_of_carrying_eq_nil (List.filter_eq_nil_iff.mpr fun l _ hl => ?_) value
  rw [isLabel_of_label? (of_decide_eq_true hl)] at h
  nomatch h

/-- The lines of a label stay when another text is set, and the new line is behind them if it
carries the label too. -/
theorem carrying_set_other (hne : other ≠ label) (value : Option String) (lines : List String) :
    carrying label (set other value lines) =
      carrying label lines ++ carrying label (value.map (line other)).toList := by
  by_cases h : isLabel other.toList = true
  · rw [carrying_set_of_ne h hne, carrying_line_of_ne h hne, List.append_nil]
  · rw [set_of_not_isLabel (Bool.eq_false_iff.mpr h), carrying_append]

/-- A line after the setting was there before or is the one that was set. -/
theorem mem_set {value : Option String} {lines : List String} {l : String}
    (h : l ∈ set label value lines) : l ∈ lines ∨ ∃ v, value = some v ∧ l = line label v := by
  have hvalue : l ∈ (value.map (line label)).toList → ∃ v, value = some v ∧ l = line label v := by
    intro hl
    rw [Option.mem_toList, Option.map_eq_some_iff] at hl
    obtain ⟨v, hv, rfl⟩ := hl
    exact ⟨v, hv, rfl⟩
  induction lines with
  | nil => exact Or.inr (hvalue h)
  | cons l' ls ih =>
    rw [set] at h
    split at h
    · rcases List.mem_append.mp h with h | h
      · exact Or.inr (hvalue h)
      · exact Or.inl (List.mem_cons_of_mem _ h)
    · rcases List.mem_cons.mp h with rfl | h
      · exact Or.inl List.mem_cons_self
      · rcases ih h with h | h
        · exact Or.inl (List.mem_cons_of_mem _ h)
        · exact Or.inr h

end GraphKeeper.Metadata

/-! ## Several changes -/

namespace GraphKeeper.Graph

open Metadata

variable {changes : List MetadataChange} {label : String}

theorem applyMetadata_cons (lines : List String) (c : MetadataChange)
    (changes : List MetadataChange) :
    applyMetadata lines (c :: changes) =
      applyMetadata (Metadata.set c.label c.value lines) changes :=
  rfl

/-- The lines that changes write. -/
def writtenLines (changes : List MetadataChange) : List String :=
  changes.flatMap fun c => (c.value.map (line c.label)).toList

theorem writtenLines_cons (c : MetadataChange) (changes : List MetadataChange) :
    writtenLines (c :: changes) = (c.value.map (line c.label)).toList ++ writtenLines changes :=
  List.flatMap_cons

/-- Lines that are written for other labels do not carry the label. -/
theorem carrying_writtenLines_eq_nil (hlabels : ∀ c ∈ changes, isLabel c.label.toList = true)
    (hne : ∀ c ∈ changes, c.label ≠ label) : carrying label (writtenLines changes) = [] := by
  induction changes with
  | nil => rfl
  | cons c changes ih =>
    rw [writtenLines_cons, carrying_append,
      carrying_line_of_ne (hlabels c List.mem_cons_self) (hne c List.mem_cons_self),
      List.nil_append]
    exact ih (fun c hc => hlabels c (List.mem_cons_of_mem _ hc))
      fun c hc => hne c (List.mem_cons_of_mem _ hc)

/-- A label that is not set keeps its lines, and whatever is written for other texts and carries it
is added to them. -/
theorem carrying_applyMetadata_others (hne : ∀ c ∈ changes, c.label ≠ label) :
    ∀ lines, carrying label (applyMetadata lines changes) =
      carrying label lines ++ carrying label (writtenLines changes) := by
  induction changes with
  | nil => exact fun lines => (List.append_nil _).symm
  | cons c changes ih =>
    intro lines
    -- Each change adds what it writes behind the lines of the label, so the written lines stand in
    -- the order of the changes.
    have hrest := ih fun c hc => hne c (List.mem_cons_of_mem _ hc)
    rw [applyMetadata_cons, hrest, carrying_set_other (hne c List.mem_cons_self), writtenLines_cons,
      carrying_append, List.append_assoc]

/-- **The lines of a label that is set once.**  The change of the label replaces or removes the
first line that carries it by then, be it one that was there or one written by the changes in front;
the other ones stay, and those written by the changes behind are added. -/
theorem carrying_applyMetadata_split {c : MetadataChange} {front back : List MetadataChange}
    (h : isLabel c.label.toList = true) (hother : ∀ d ∈ front ++ back, d.label ≠ c.label)
    (lines : List String) :
    carrying c.label (applyMetadata lines (front ++ c :: back)) =
      (c.value.map (line c.label)).toList ++
        (carrying c.label lines ++ carrying c.label (writtenLines front)).tail ++
        carrying c.label (writtenLines back) := by
  have happly : applyMetadata lines (front ++ c :: back) =
      applyMetadata (Metadata.set c.label c.value (applyMetadata lines front)) back :=
    List.foldl_append
  rw [happly, carrying_applyMetadata_others fun d hd => hother d (List.mem_append_right _ hd),
    carrying_set_self h,
    carrying_applyMetadata_others fun d hd => hother d (List.mem_append_left _ hd)]

/-- A label that is not set keeps its lines. -/
theorem carrying_applyMetadata_of_forall_ne
    (hlabels : ∀ c ∈ changes, isLabel c.label.toList = true)
    (hne : ∀ c ∈ changes, c.label ≠ label) (lines : List String) :
    carrying label (applyMetadata lines changes) = carrying label lines := by
  rw [carrying_applyMetadata_others hne, carrying_writtenLines_eq_nil hlabels hne, List.append_nil]

/-- **A label that is set once has what was set for it**, before any further line that carried it
already. -/
theorem carrying_applyMetadata (hlabels : ∀ c ∈ changes, isLabel c.label.toList = true)
    (hnodup : (changes.map MetadataChange.label).Nodup) {c : MetadataChange} (hc : c ∈ changes)
    (lines : List String) :
    carrying c.label (applyMetadata lines changes) =
      (c.value.map (line c.label)).toList ++ (carrying c.label lines).tail := by
  obtain ⟨front, back, rfl⟩ := List.append_of_mem hc
  have hother : ∀ d ∈ front ++ back, d.label ≠ c.label := by
    intro d hd hlabel
    have hcons := (List.perm_middle.map MetadataChange.label).nodup_iff.mp hnodup
    exact (List.nodup_cons.mp hcons).1 (List.mem_map.mpr ⟨d, hd, hlabel⟩)
  -- All changes set labels, and of other labels, so none of their lines carries this one.
  have hwritten : ∀ part ⊆ front ++ back, carrying c.label (writtenLines part) = [] := by
    intro part hpart
    refine carrying_writtenLines_eq_nil (fun d hd => hlabels d ?_) fun d hd => hother d (hpart hd)
    exact List.perm_middle.mem_iff.mpr (List.mem_cons_of_mem c (hpart hd))
  rw [carrying_applyMetadata_split (hlabels c hc) hother,
    hwritten front (List.subset_append_left _ _), hwritten back (List.subset_append_right _ _),
    List.append_nil, List.append_nil]

/-- **Labels that are new are written in the order of the changes**, each behind all lines before
it. -/
theorem applyMetadata_eq_append (hlabels : ∀ c ∈ changes, isLabel c.label.toList = true)
    (hnodup : (changes.map MetadataChange.label).Nodup) :
    ∀ lines, (∀ c ∈ changes, carrying c.label lines = []) →
      applyMetadata lines changes = lines ++ writtenLines changes := by
  induction changes with
  | nil => exact fun lines _ => (List.append_nil lines).symm
  | cons c changes ih =>
    intro lines hnew
    obtain ⟨hlabel, hlabels⟩ := List.forall_mem_cons.mp hlabels
    obtain ⟨hc, hnew⟩ := List.forall_mem_cons.mp hnew
    obtain ⟨hother, hnodup⟩ := List.nodup_cons.mp hnodup
    -- The line that is written now carries none of the labels that are still to come.
    have hnext : ∀ d ∈ changes,
        carrying d.label (lines ++ (c.value.map (line c.label)).toList) = [] := by
      intro d hd
      have hne : c.label ≠ d.label := fun he => hother (List.mem_map.mpr ⟨d, hd, he.symm⟩)
      rw [carrying_append, hnew d hd, carrying_line_of_ne hlabel hne, List.append_nil]
    rw [applyMetadata_cons, set_of_carrying_eq_nil hc, ih hlabels hnodup _ hnext, writtenLines_cons,
      List.append_assoc]

/-- A line after the changes was there before or was set by one of them. -/
theorem mem_applyMetadata {l : String} :
    ∀ {lines : List String}, l ∈ applyMetadata lines changes →
      l ∈ lines ∨ ∃ c ∈ changes, ∃ v, c.value = some v ∧ l = line c.label v := by
  induction changes with
  | nil => exact fun h => Or.inl h
  | cons c changes ih =>
    intro lines h
    rcases ih h with h | ⟨c', hc', h⟩
    · rcases mem_set h with h | h
      · exact Or.inl h
      · exact Or.inr ⟨c, List.mem_cons_self, h⟩
    · exact Or.inr ⟨c', List.mem_cons_of_mem _ hc', h⟩

end GraphKeeper.Graph

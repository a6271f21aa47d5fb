/-
  Lines and the parts that they are made of.

  `line` puts a label and a value together, and `split?` takes a line apart at the first colon with
  a space behind it.

  1. **Parts of a line** — the text in front of that colon and the text behind the space make up
     the line again (`eq_of_cutLabel`), so a line is what its parts make up (`line_of_split?`).
  2. **The line of two parts** — a label has no blank, so no colon with a space behind it stands in
     it or reaches into it, and the parts are found again (`split?_line`).  A text that is no label
     is never given as a part (`isLabel_of_label?`).

  Both together say which parts each line has (`split?_eq_some_iff`), and that putting together and
  taking apart are inverse to each other (`split?_inverse`).
-/
import GraphKeeper.Proofs.MetadataLines
import Mathlib.Data.Set.Function

namespace GraphKeeper.Metadata

variable {label value l : String}

/-- The place where a text is cut is a colon with a space behind it. -/
theorem eq_of_cutLabel {cs front back : List Char} (h : cutLabel cs = some (front, back)) :
    cs = front ++ ':' :: ' ' :: back := by
  induction cs generalizing front with
  | nil => nomatch h
  | cons c cs ih =>
    rw [cutLabel] at h
    split at h
    · rename_i hcolon
      obtain ⟨rfl, hspace⟩ := hcolon
      obtain ⟨rest, rfl⟩ := List.head?_eq_some_iff.mp hspace
      cases h
      rfl
    · obtain ⟨⟨front', back'⟩, hcut, hpair⟩ := Option.map_eq_some_iff.mp h
      cases hpair
      rw [List.cons_append, ← ih hcut]

/-- A line is what its parts make up. -/
theorem line_of_split? (h : split? l = some (label, value)) : line label value = l := by
  obtain ⟨⟨front, back⟩, hcut, hif⟩ := Option.bind_eq_some_iff.mp h
  obtain ⟨_, hpair⟩ := Option.ite_none_right_eq_some.mp hif
  cases hpair
  apply String.toList_inj.mp
  rw [eq_of_cutLabel hcut, toList_line, String.toList_ofList, String.toList_ofList]

/-- **The parts of a line** are a label and a value that make it up. -/
theorem split?_eq_some_iff :
    split? l = some (label, value) ↔ isLabel label.toList = true ∧ l = line label value := by
  constructor
  · intro h
    have hlabel : label? l = some label := by
      rw [label?, h]
      rfl
    exact ⟨isLabel_of_label? hlabel, (line_of_split? h).symm⟩
  · rintro ⟨hlabel, rfl⟩
    exact split?_line hlabel value

/-- A label is a text with some character and no blank one. -/
theorem isLabel_iff :
    isLabel label.toList = true ↔
      label ≠ "" ∧ ∀ c ∈ label.toList, ¬ Text.isBlankChar c = true := by
  rw [isLabel, Bool.and_eq_true, Bool.not_eq_true', Bool.not_eq_true', List.isEmpty_eq_false_iff,
    List.any_eq_false, ne_eq, String.toList_eq_nil_iff]

/-- **Putting together and taking apart are inverse to each other.**  A line that has parts is what
they make up.  The line of any two texts has these as its parts exactly if the first of them is not
empty and holds no blank character.  So such pairs and the lines that have parts are matched one to
one. -/
theorem split?_inverse :
    (∀ l label value, split? l = some (label, value) → line label value = l) ∧
      (∀ label value, split? (line label value) = some (label, value) ↔
        label ≠ "" ∧ ∀ c ∈ label.toList, ¬ Text.isBlankChar c = true) ∧
      Set.BijOn (fun parts : String × String => line parts.1 parts.2)
        {parts | parts.1 ≠ "" ∧ ∀ c ∈ parts.1.toList, ¬ Text.isBlankChar c = true}
        {l | (split? l).isSome} := by
  -- The three conditions of the matching are read off this one: that the image is right, that no
  -- two pairs have one line, and that every line with parts has a pair.
  have hfound : ∀ label value, split? (line label value) = some (label, value) ↔
      label ≠ "" ∧ ∀ c ∈ label.toList, ¬ Text.isBlankChar c = true := by
    intro label value
    rw [split?_eq_some_iff, and_iff_left rfl, isLabel_iff]
  refine ⟨fun l label value => line_of_split?, hfound, ?_, ?_, ?_⟩
  · rintro ⟨label, value⟩ hlabel
    exact Option.isSome_of_eq_some ((hfound label value).mpr hlabel)
  · rintro ⟨label, value⟩ hlabel ⟨label', value'⟩ hlabel' hline
    have hparts := (hfound label value).mpr hlabel
    have hparts' := (hfound label' value').mpr hlabel'
    exact Option.some.inj (hparts.symm.trans ((congrArg split? hline).trans hparts'))
  · intro l hl
    obtain ⟨⟨label, value⟩, hparts⟩ := Option.isSome_iff_exists.mp hl
    have hline := line_of_split? hparts
    refine ⟨(label, value), (hfound label value).mp ?_, hline⟩
    rw [hline, hparts]

end GraphKeeper.Metadata

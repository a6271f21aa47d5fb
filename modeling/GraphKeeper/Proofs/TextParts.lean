/-
  What trimming leaves of a text, what a text begins with, and what stands in it.

  Trimming takes blank characters off both ends.  Behind a lead that begins and ends in characters
  that are not blank it only takes off the trailing ones of what follows (`trim_append`), and of
  that trimming leaves what it leaves of all that followed (`trim_trimEnd`).

  A search for a part of a list looks at each place in turn.  It finds the part exactly if it is an
  infix (`occursIn_iff`).
-/
import GraphKeeper.Text.Blank
import Mathlib.Data.List.Infix

namespace GraphKeeper.Text

/-! ## Ends of lists -/

section Ends

variable {α : Type} {p : α → Bool}

/-- What is dropped anyway may be left out. -/
theorem dropTrailing_append_of_all {bs : List α} (h : bs.all p = true) (as : List α) :
    dropTrailing p (as ++ bs) = dropTrailing p as := by
  induction as with
  | nil => exact (dropTrailing_eq_nil_iff p bs).mpr h
  | cons a as ih =>
    rw [List.cons_append, dropTrailing, ih]
    rfl

theorem dropTrailing_dropWhile_append_of_all {bs : List α} (h : bs.all p = true) (as : List α) :
    dropTrailing p ((as ++ bs).dropWhile p) = dropTrailing p (as.dropWhile p) := by
  -- If all of the front is dropped, then so is what follows; else it stays behind what is left.
  rw [List.dropWhile_append]
  split
  · rename_i hnil
    rw [List.isEmpty_iff.mp hnil]
    exact (dropTrailing_eq_nil_iff p _).mpr ((all_dropWhile_iff p bs).mpr h)
  · exact dropTrailing_append_of_all h _

/-- Nothing in front of an element that stays is dropped. -/
theorem dropTrailing_append_cons {a : α} (h : p a = false) (as bs : List α) :
    dropTrailing p (as ++ a :: bs) = as ++ a :: dropTrailing p bs := by
  induction as with
  | nil =>
    rw [List.nil_append, List.nil_append, dropTrailing]
    split
    · rename_i hnil
      rw [hnil, if_neg (by rw [h]; exact Bool.false_ne_true)]
    · rfl
  | cons b as ih =>
    rw [List.cons_append, dropTrailing, ih]
    cases as <;> rfl

/-- What is dropped satisfies the predicate throughout. -/
theorem exists_eq_dropTrailing_append (p : α → Bool) (as : List α) :
    ∃ bs, bs.all p = true ∧ as = dropTrailing p as ++ bs := by
  induction as with
  | nil => exact ⟨[], rfl, rfl⟩
  | cons a as ih =>
    obtain ⟨bs, hbs, has⟩ := ih
    rw [dropTrailing]
    cases hrest : dropTrailing p as with
    | nil =>
      rw [hrest, List.nil_append] at has
      show ∃ bs, _ ∧ a :: as = (if p a then [] else [a]) ++ bs
      -- Nothing behind this element stays, so it is dropped with the rest if it can be.
      by_cases ha : p a = true
      · refine ⟨a :: bs, ?_, ?_⟩
        · rw [List.all_cons, ha, hbs, Bool.and_self]
        · rw [if_pos ha, has, List.nil_append]
      · refine ⟨bs, hbs, ?_⟩
        rw [if_neg ha, has, List.singleton_append]
    | cons c cs =>
      rw [hrest] at has
      exact ⟨bs, hbs, by rw [List.cons_append, ← has]⟩

theorem exists_eq_append_dropWhile (p : α → Bool) (as : List α) :
    ∃ bs, bs.all p = true ∧ as = bs ++ as.dropWhile p :=
  ⟨as.takeWhile p, List.all_takeWhile, List.takeWhile_append_dropWhile.symm⟩

end Ends

/-! ## Trimming -/

/-- The text without blank characters at its end. -/
def trimEnd (s : String) : String := String.ofList (dropTrailing isBlankChar s.toList)

theorem exists_eq_trimEnd_append (s : String) : ∃ t, isBlank t = true ∧ s = trimEnd s ++ t := by
  obtain ⟨bs, hbs, hs⟩ := exists_eq_dropTrailing_append isBlankChar s.toList
  refine ⟨String.ofList bs, ?_, String.toList_inj.mp ?_⟩
  · rw [isBlank, String.toList_ofList, hbs]
  · rw [String.toList_append, trimEnd, String.toList_ofList, String.toList_ofList, ← hs]

/-- What trimming leaves stands in the text, in one piece. -/
theorem exists_eq_append_trim (s : String) : ∃ front back, s = front ++ (trim s ++ back) := by
  obtain ⟨front, _, hfront⟩ := exists_eq_append_dropWhile isBlankChar s.toList
  obtain ⟨back, _, hback⟩ :=
    exists_eq_dropTrailing_append isBlankChar (s.toList.dropWhile isBlankChar)
  refine ⟨String.ofList front, String.ofList back, String.toList_inj.mp ?_⟩
  rw [String.toList_append, String.toList_append, trim, String.toList_ofList, String.toList_ofList,
    String.toList_ofList, ← hback, ← hfront]

/-- Blank characters at the end are trimmed off. -/
theorem trim_append_of_isBlank {t : String} (h : isBlank t = true) (s : String) :
    trim (s ++ t) = trim s := by
  rw [trim, String.toList_append, dropTrailing_dropWhile_append_of_all h]
  rfl

theorem isBlank_append_of_isBlank {t : String} (h : isBlank t = true) (s : String) :
    isBlank (s ++ t) = isBlank s := by
  rw [Bool.eq_iff_iff, ← trim_eq_empty_iff, ← trim_eq_empty_iff, trim_append_of_isBlank h]

/-- Trimming the end first changes nothing. -/
theorem trim_trimEnd (s : String) : trim (trimEnd s) = trim s := by
  obtain ⟨t, ht, hs⟩ := exists_eq_trimEnd_append s
  conv_rhs => rw [hs, trim_append_of_isBlank ht]

theorem isBlank_trimEnd (s : String) : isBlank (trimEnd s) = isBlank s := by
  rw [Bool.eq_iff_iff, ← trim_eq_empty_iff, ← trim_eq_empty_iff, trim_trimEnd]

/-- Behind a lead with an end that is not blank, trimming only takes off what is behind. -/
theorem trim_append {first last : Char} {cs : List Char} (hfirst : isBlankChar first = false)
    (hlast : isBlankChar last = false) (s : String) :
    trim (String.ofList (first :: cs ++ [last]) ++ s) =
      String.ofList (first :: cs ++ [last]) ++ trimEnd s := by
  have hfirst : ¬ isBlankChar first = true := by
    rw [hfirst]
    exact Bool.false_ne_true
  refine String.toList_inj.mp ?_
  rw [trim, trimEnd, String.toList_append, String.toList_append, String.toList_ofList,
    String.toList_ofList, String.toList_ofList, List.cons_append, List.cons_append,
    List.dropWhile_cons_of_neg hfirst, List.append_assoc, List.singleton_append,
    ← List.cons_append, dropTrailing_append_cons hlast]
  simp only [List.cons_append, List.append_assoc, List.nil_append]

/-- A text is left alone if it begins and ends in characters that are not blank. -/
theorem trim_eq_self {first last : Char} {cs : List Char} (hfirst : isBlankChar first = false)
    (hlast : isBlankChar last = false) :
    trim (String.ofList (first :: cs ++ [last])) = String.ofList (first :: cs ++ [last]) := by
  have h : trim (String.ofList (first :: cs ++ [last]) ++ "") = _ := trim_append hfirst hlast ""
  rwa [show trimEnd "" = "" from rfl, String.append_empty] at h

/-! ## Leads and parts -/

/-- What is left behind a lead is what follows it. -/
theorem afterLead?_eq_some_iff {α : Type} [DecidableEq α] {lead as rest : List α} :
    afterLead? lead as = some rest ↔ as = lead ++ rest := by
  induction lead generalizing as with
  | nil => exact Option.some_inj
  | cons l lead ih =>
    cases as with
    | nil => exact iff_of_false nofun nofun
    | cons a as =>
      rw [afterLead?, List.cons_append, List.cons_eq_cons]
      by_cases hl : l = a
      · rw [if_pos hl, ih]
        exact ⟨fun h => ⟨hl.symm, h⟩, And.right⟩
      · rw [if_neg hl]
        exact iff_of_false nofun fun h => hl h.1.symm

theorem stripLead?_eq_some_iff {lead s rest : String} :
    stripLead? lead s = some rest ↔ s = lead ++ rest := by
  rw [stripLead?, Option.map_eq_some_iff]
  constructor
  · rintro ⟨as, has, rfl⟩
    refine String.toList_inj.mp ?_
    rw [String.toList_append, String.toList_ofList, afterLead?_eq_some_iff.mp has]
  · rintro rfl
    refine ⟨rest.toList, afterLead?_eq_some_iff.mpr String.toList_append, String.ofList_toList⟩

theorem stripLead?_eq_none_iff {lead s : String} :
    stripLead? lead s = none ↔ ¬ lead.toList <+: s.toList := by
  rw [stripLead?, Option.map_eq_none_iff, Option.eq_none_iff_forall_ne_some]
  refine ⟨fun h ⟨rest, hrest⟩ => h rest (afterLead?_eq_some_iff.mpr hrest.symm), ?_⟩
  exact fun h rest hrest => h ⟨rest, (afterLead?_eq_some_iff.mp hrest).symm⟩

/-- A part is found exactly if it is there. -/
theorem occursIn_iff {α : Type} [DecidableEq α] {needle as : List α} :
    occursIn needle as = true ↔ needle <:+: as := by
  -- At each place the lead is looked for, which finds it if it is a prefix of what is left.
  have hprefix : ∀ as, (afterLead? needle as).isSome = true ↔ needle <+: as := by
    intro as
    rw [Option.isSome_iff_exists]
    exact exists_congr fun rest => afterLead?_eq_some_iff.trans eq_comm
  induction as with
  | nil => rw [occursIn, List.isEmpty_iff, List.infix_nil]
  | cons a as ih =>
    rw [occursIn, Bool.or_eq_true, hprefix, List.infix_cons_iff]
    exact or_congr_right ih

theorem contains_iff {s needle : String} :
    contains s needle = true ↔ needle.toList <:+: s.toList := occursIn_iff

end GraphKeeper.Text

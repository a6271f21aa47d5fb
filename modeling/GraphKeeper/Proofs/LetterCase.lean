/-
  The case of letters, in texts and in parts of texts.

  The maps to upper and to lower case drop no character (`upperChar_ne_nil`, `lowerChar_ne_nil`), so
  a text does not become shorter.

  The lower case of a text is not made up of the lower case of its parts: a capital sigma looks at
  what is around it, and that may stand outside of the part.  `lowerBetween` is the lower case of a
  part in its place (`lowerFrom_append`).  It is the lower case of the part by itself exactly if
  every capital sigma of the part has one form there and here (`lowerBetween_eq_iff`), and then the
  one text in lower case is a part of the other (`lower_isInfix`).
-/
import GraphKeeper.Text.Case
import Mathlib.Data.List.Basic

namespace GraphKeeper.Text

/-! ## Nothing is dropped -/

/-- A character is expanded to some characters, or moved to one. -/
theorem expandBy_ne_nil {expansions : List (Nat × List Nat)} (h : ∀ e ∈ expansions, e.2 ≠ [])
    (runs : List CaseRun) (c : Char) : expandBy expansions runs c ≠ [] := by
  unfold expandBy
  split
  · rename_i e he
    have he := h e (List.mem_of_find?_eq_some he)
    exact fun hnil => he (List.map_eq_nil_iff.mp hnil)
  · exact List.cons_ne_nil _ _

/-- **The map to upper case drops no character**, nor does the one to lower case. -/
theorem upperChar_ne_nil (c : Char) : upperChar c ≠ [] := by
  unfold upperChar
  split
  · exact List.cons_ne_nil _ _
  · exact expandBy_ne_nil (by decide) _ c

theorem lowerChar_ne_nil (c : Char) : lowerChar c ≠ [] := by
  unfold lowerChar
  split
  · exact List.cons_ne_nil _ _
  · exact expandBy_ne_nil (by decide) _ c

/-- So a text with a capital first letter is not empty. -/
theorem capitalize_ne_empty {s : String} (h : s ≠ "") : capitalize s ≠ "" := by
  unfold capitalize
  split
  · rename_i hs
    exact absurd (String.toList_eq_nil_iff.mp hs) h
  · rename_i c cs hs
    intro hempty
    have hnil := String.ofList_eq_empty_iff.mp hempty
    exact upperChar_ne_nil c (List.append_eq_nil_iff.mp hnil).1

/-! ## Lower case in place -/

/-- Lower case of `cs` between the characters in front, nearest first, and the ones behind. -/
def lowerBetween (before : List Char) : (cs : List Char) → (after : List Char) → List Char
  | [], _ => []
  | c :: cs, after =>
    (if c = capitalSigma then [lowerSigma before (cs ++ after)] else lowerChar c) ++
      lowerBetween (c :: before) cs after

/-- A text is taken to lower case part by part, each in its place. -/
theorem lowerFrom_append (before cs after : List Char) :
    lowerFrom before (cs ++ after) =
      lowerBetween before cs after ++ lowerFrom (cs.reverse ++ before) after := by
  induction cs generalizing before with
  | nil => rfl
  | cons c cs ih =>
    rw [List.cons_append, lowerFrom, ih, lowerBetween, List.reverse_cons, List.append_assoc,
      List.append_assoc, List.singleton_append]

theorem lowerBetween_nil (before cs : List Char) :
    lowerBetween before cs [] = lowerFrom before cs := by
  have h := lowerFrom_append before cs []
  rw [List.append_nil, lowerFrom, List.append_nil] at h
  exact h.symm

/-- The surroundings decide on the form of a sigma, but every form is one character. -/
theorem length_lowerBetween (before before' cs after after' : List Char) :
    (lowerBetween before cs after).length = (lowerBetween before' cs after').length := by
  induction cs generalizing before before' with
  | nil => rfl
  | cons c cs ih =>
    rw [lowerBetween, lowerBetween, List.length_append, List.length_append,
      ih (c :: before) (c :: before')]
    by_cases hc : c = capitalSigma
    · rw [if_pos hc, if_pos hc, List.length_singleton, List.length_singleton]
    · rw [if_neg hc, if_neg hc]

/-- Lower case has at least as many characters. -/
theorem length_le_lowerBetween (before cs after : List Char) :
    cs.length ≤ (lowerBetween before cs after).length := by
  induction cs generalizing before with
  | nil => exact Nat.le_refl 0
  | cons c cs ih =>
    have hpos : 0 < (if c = capitalSigma then [lowerSigma before (cs ++ after)]
        else lowerChar c).length := by
      split
      · exact Nat.zero_lt_one
      · exact List.length_pos_iff.mpr (lowerChar_ne_nil c)
    have hrest := ih (c :: before)
    rw [lowerBetween, List.length_append, List.length_cons]
    omega

/-- A text has another lower case than a part of it that is not all of it. -/
theorem lowerFrom_eq_part_iff {before cs after : List Char} :
    lowerFrom [] (before ++ (cs ++ after)) = lowerFrom [] cs ↔ before = [] ∧ after = [] := by
  constructor
  · -- In length the part has the same lower case in its place, so nothing is left for the rest.
    intro h
    have hlength := congrArg List.length h
    have hbefore := length_le_lowerBetween [] before (cs ++ after)
    have hafter := length_le_lowerBetween (cs.reverse ++ (before.reverse ++ [])) after []
    have hpart := length_lowerBetween (before.reverse ++ []) [] cs after []
    rw [lowerFrom_append, lowerFrom_append, ← lowerBetween_nil _ after, ← lowerBetween_nil _ cs,
      List.length_append, List.length_append] at hlength
    constructor <;> refine List.length_eq_zero_iff.mp ?_ <;> omega
  · rintro ⟨rfl, rfl⟩
    rw [List.append_nil, List.nil_append]

/-! ## Sigmas in place -/

/-- Every capital sigma of `cs` has the form that it has in `cs` by itself. -/
def SameSigmas (before cs after : List Char) : Prop :=
  ∀ front back, cs = front ++ capitalSigma :: back →
    lowerSigma (front.reverse ++ before) (back ++ after) = lowerSigma front.reverse back

/-- The places of an element are the first place, if it stands there, and those behind. -/
theorem forall_cons_eq_append_cons {α : Type} {a b : α} {as : List α}
    {P : List α → List α → Prop} :
    (∀ front back, b :: as = front ++ a :: back → P front back) ↔
      (b = a → P [] as) ∧ ∀ front back, as = front ++ a :: back → P (b :: front) back := by
  constructor
  · intro h
    refine ⟨fun hb => h [] as (by rw [hb, List.nil_append]), fun front back has => ?_⟩
    exact h (b :: front) back (by rw [has, List.cons_append])
  · rintro ⟨hfirst, hrest⟩ front back has
    cases front with
    | nil =>
      obtain ⟨hb, rfl⟩ := List.cons.inj has
      exact hfirst hb
    | cons c front =>
      obtain ⟨rfl, htail⟩ := List.cons.inj has
      exact hrest front back htail

/-- The induction goes on behind a `front` of the part, which the part by itself has as well. -/
theorem lowerBetween_eq_lowerFrom_iff {front before cs after : List Char} :
    lowerBetween (front ++ before) cs after = lowerFrom front cs ↔
      ∀ mid back, cs = mid ++ capitalSigma :: back →
        lowerSigma (mid.reverse ++ (front ++ before)) (back ++ after) =
          lowerSigma (mid.reverse ++ front) back := by
  induction cs generalizing front with
  | nil => exact iff_of_true rfl fun mid back h => nomatch List.append_eq_nil_iff.mp h.symm
  | cons c cs ih =>
    have hrest : lowerBetween (c :: front ++ before) cs after = lowerFrom (c :: front) cs ↔ _ := ih
    rw [forall_cons_eq_append_cons]
    simp only [List.reverse_cons, List.append_assoc, List.singleton_append]
    rw [lowerBetween, lowerFrom, List.reverse_nil, List.nil_append, List.nil_append]
    rw [List.cons_append] at hrest
    -- Only at a sigma do the two sides look at what is around, and only there is a place to mind.
    by_cases hc : c = capitalSigma
    · rw [if_pos hc, if_pos hc, List.singleton_append, List.singleton_append, List.cons_eq_cons,
        hrest]
      exact and_congr_left fun _ => ⟨fun h _ => h, fun h => h hc⟩
    · rw [if_neg hc, if_neg hc, List.append_right_inj, hrest]
      exact ⟨fun h => ⟨fun h' => absurd h' hc, h⟩, And.right⟩

/-- **Lower case of a part.**  It is the same in its place as by itself exactly if the
sigmas are. -/
theorem lowerBetween_eq_iff {before cs after : List Char} :
    lowerBetween before cs after = lowerFrom [] cs ↔ SameSigmas before cs after := by
  have h : lowerBetween ([] ++ before) cs after = lowerFrom [] cs ↔ _ :=
    lowerBetween_eq_lowerFrom_iff
  simp only [List.nil_append, List.append_nil] at h
  exact h

instance (before cs after : List Char) : Decidable (SameSigmas before cs after) :=
  decidable_of_iff _ lowerBetween_eq_iff

/-- A part with the same sigmas stays a part when both texts are taken to lower case. -/
theorem lower_isInfix {s t : String} {before after : List Char}
    (hparts : t.toList = before ++ (s.toList ++ after))
    (h : SameSigmas before.reverse s.toList after) : (lower s).toList <:+: (lower t).toList := by
  refine ⟨lowerBetween [] before (s.toList ++ after),
    lowerFrom (s.toList.reverse ++ before.reverse) after, ?_⟩
  rw [lower, lower, String.toList_ofList, String.toList_ofList, hparts, lowerFrom_append,
    lowerFrom_append, List.append_nil, lowerBetween_eq_iff.mpr h, List.append_assoc]

/-- A part without a capital sigma is the same everywhere. -/
theorem sameSigmas_of_not_mem {before cs after : List Char} (h : capitalSigma ∉ cs) :
    SameSigmas before cs after := by
  rintro front back rfl
  exact absurd (List.mem_append_right _ List.mem_cons_self) h

end GraphKeeper.Text

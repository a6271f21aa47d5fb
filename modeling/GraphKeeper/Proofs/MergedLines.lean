/-
  Merging lines into lines.

  A line with a label that is merged takes the place of the first line of that label, and comes
  behind all lines if there is none.  A line without a label comes behind all lines unless it is
  there.

  Both are one operation.  Each line has a slot (`slot`): its label or, if it has none, the line as
  a whole.  Merging a line writes it over the first line of its slot, or behind all lines; a line
  without a label that is written over is written over itself.

  1. **One line** — it is written at the place of its slot and nowhere else (`getElem?_mergeLine`),
     and the slots stay as they are but for one that may be added behind (`slots_mergeLine`).
  2. **Several lines** — the slots from before stay in front of those that are added
     (`slots_prefix_merge`), so a slot that is there once keeps its place, and all lines of a slot
     are written at one place.  The crux is `getElem?_merge`: at each place stands the last line
     that was merged there, or what stood there before.
  3. **Consequences** — merging again writes the same lines at the same places (`merge_again`), and
     `Merged` says in terms of labels what becomes of each line.
-/
import GraphKeeper.Proofs.LineParts
import Mathlib.Data.List.Basic

namespace GraphKeeper.Metadata

variable {label l m : String} {lines added : List String} {i : Nat}

/-! ## Slots -/

/-- What tells where a line is merged: its label, or the whole line if it has none. -/
inductive Slot where
  | ofLabel (label : String)
  | ofLine (l : String)
deriving DecidableEq

/-- The slot of a line. -/
def slot (l : String) : Slot :=
  match label? l with
  | some label => .ofLabel label
  | none => .ofLine l

/-- A line with a label has the slot of its label. -/
theorem slot_of_label (h : label? l = some label) : slot l = .ofLabel label := by
  rw [slot, h]

/-- A line without a label has a slot of its own. -/
theorem slot_of_none (h : label? l = none) : slot l = .ofLine l := by
  rw [slot, h]

/-- Lines share the slot of a label exactly if they carry it. -/
theorem slot_eq_ofLabel_iff : slot l = .ofLabel label ↔ label? l = some label := by
  cases h : label? l with
  | none => rw [slot_of_none h]; exact ⟨(nomatch ·), (nomatch ·)⟩
  | some label' => rw [slot_of_label h, Slot.ofLabel.injEq, Option.some.injEq]

/-- A line without a label has its slot to itself. -/
theorem eq_of_slot_eq_ofLine (h : slot l = .ofLine m) : l = m := by
  cases hlabel : label? l with
  | none => exact Slot.ofLine.inj ((slot_of_none hlabel).symm.trans h)
  | some label => nomatch (slot_of_label hlabel).symm.trans h

/-- The slots of lines, in order. -/
def slots (lines : List String) : List Slot := lines.map slot

/-- The place of the first line of the slot of `l`, or the place behind all lines. -/
def place (lines : List String) (l : String) : Nat := (slots lines).idxOf (slot l)

/-! ## One line -/

/-- A line with a label is merged by setting its label to its value. -/
theorem mergeLine_of_label (h : label? l = some label) :
    ∃ value, line label value = l ∧ ∀ lines, mergeLine lines l = set label (some value) lines := by
  obtain ⟨⟨_, value⟩, hparts, rfl⟩ := Option.map_eq_some_iff.mp h
  refine ⟨value, line_of_split? hparts, fun lines => ?_⟩
  rw [mergeLine, hparts]

/-- A line without a label is added unless it is there. -/
theorem mergeLine_of_none (h : label? l = none) (lines : List String) :
    mergeLine lines l = if l ∈ lines then lines else lines ++ [l] := by
  rw [mergeLine, Option.map_eq_none_iff.mp h]

/-- Merged into nothing, any line is all there is. -/
theorem mergeLine_nil (l : String) : mergeLine [] l = [l] := by
  cases h : label? l with
  | none => exact mergeLine_of_none h []
  | some label =>
    obtain ⟨value, hline, hmerge⟩ := mergeLine_of_label h
    rw [hmerge, set, ← hline]
    rfl

/-- A line is written over the first line of its slot. -/
theorem mergeLine_cons_of_eq (h : slot m = slot l) (lines : List String) :
    mergeLine (m :: lines) l = l :: lines := by
  cases hlabel : label? l with
  | none =>
    rw [slot_of_none hlabel] at h
    rw [eq_of_slot_eq_ofLine h, mergeLine_of_none hlabel, if_pos List.mem_cons_self]
  | some label =>
    obtain ⟨value, hline, hmerge⟩ := mergeLine_of_label hlabel
    rw [slot_of_label hlabel] at h
    rw [hmerge, set, if_pos (slot_eq_ofLabel_iff.mp h), ← hline]
    rfl

/-- A line of another slot stays. -/
theorem mergeLine_cons_of_ne (h : slot m ≠ slot l) (lines : List String) :
    mergeLine (m :: lines) l = m :: mergeLine lines l := by
  cases hlabel : label? l with
  | none =>
    have hne : l ≠ m := fun he => h (congrArg slot he.symm)
    rw [mergeLine_of_none hlabel, mergeLine_of_none hlabel]
    by_cases hmem : l ∈ lines
    · rw [if_pos hmem, if_pos (List.mem_cons_of_mem m hmem)]
    · rw [if_neg hmem, if_neg fun hcons => hmem (List.mem_of_ne_of_mem hne hcons), List.cons_append]
  | some label =>
    obtain ⟨value, _, hmerge⟩ := mergeLine_of_label hlabel
    rw [slot_of_label hlabel] at h
    rw [hmerge, hmerge, set, if_neg fun hm => h (slot_eq_ofLabel_iff.mpr hm)]

/-- A line of the slot in front has the place of the line. -/
theorem place_cons_of_eq (h : slot m = slot l) (lines : List String) : place (m :: lines) l = 0 :=
  List.idxOf_cons_eq _ h

/-- A line of another slot in front moves the place by one. -/
theorem place_cons_of_ne (h : slot m ≠ slot l) (lines : List String) :
    place (m :: lines) l = place lines l + 1 :=
  List.idxOf_cons_ne _ h

/-- **Merging a line** writes it at its place, and leaves every other place alone. -/
theorem getElem?_mergeLine (lines : List String) (l : String) (i : Nat) :
    (mergeLine lines l)[i]? = if i = place lines l then some l else lines[i]? := by
  -- The line in front is of the slot, and then it is the place that is written, or it stays.
  induction lines generalizing i with
  | nil =>
    have hplace : place [] l = 0 := rfl
    rw [mergeLine_nil, hplace]
    cases i <;> rfl
  | cons m lines ih =>
    by_cases h : slot m = slot l
    · rw [mergeLine_cons_of_eq h, place_cons_of_eq h]
      cases i <;> rfl
    · rw [mergeLine_cons_of_ne h, place_cons_of_ne h]
      cases i with
      | zero => rfl
      | succ i =>
        rw [List.getElem?_cons_succ, ih, List.getElem?_cons_succ]
        simp only [Nat.add_right_cancel_iff]

/-- The slot of a merged line is added behind the others if it is new. -/
theorem slots_mergeLine (lines : List String) (l : String) :
    slots (mergeLine lines l) =
      if slot l ∈ slots lines then slots lines else slots lines ++ [slot l] := by
  induction lines with
  | nil => rw [mergeLine_nil]; rfl
  | cons m lines ih =>
    have hcons : slots (m :: lines) = slot m :: slots lines := rfl
    by_cases h : slot m = slot l
    · rw [mergeLine_cons_of_eq h, hcons, h, if_pos List.mem_cons_self]
      rfl
    · have hmerged : slots (m :: mergeLine lines l) = slot m :: slots (mergeLine lines l) := rfl
      rw [mergeLine_cons_of_ne h, hmerged, ih, hcons]
      by_cases hmem : slot l ∈ slots lines
      · rw [if_pos hmem, if_pos (List.mem_cons_of_mem _ hmem)]
      · rw [if_neg hmem, if_neg fun hl => hmem (List.mem_of_ne_of_mem (Ne.symm h) hl),
          List.cons_append]

/-- No slot is lost or moved by merging a line. -/
theorem slots_prefix_mergeLine (lines : List String) (l : String) :
    slots lines <+: slots (mergeLine lines l) := by
  rw [slots_mergeLine]
  split
  · exact List.prefix_rfl
  · exact List.prefix_append _ _

/-- The slot of the merged line is there afterwards. -/
theorem mem_slots_mergeLine (lines : List String) (l : String) :
    slot l ∈ slots (mergeLine lines l) := by
  rw [slots_mergeLine]
  split
  · assumption
  · exact List.mem_append_right _ (List.mem_singleton.mpr rfl)

/-- The place of a slot that is there does not change when slots are added behind. -/
theorem place_of_prefix_slots {lines' : List String} (h : slots lines <+: slots lines')
    (hl : slot l ∈ slots lines) : place lines' l = place lines l := by
  obtain ⟨behind, hbehind⟩ := h
  rw [place, ← hbehind]
  exact List.idxOf_append_of_mem hl

/-- A merged line is found at the place where it was written. -/
theorem place_mergeLine (lines : List String) (l : String) :
    place (mergeLine lines l) l = place lines l := by
  by_cases h : slot l ∈ slots lines
  · exact place_of_prefix_slots (slots_prefix_mergeLine lines l) h
  · rw [place, slots_mergeLine, if_neg h, List.idxOf_append_of_notMem h, List.idxOf_cons_self,
      place, List.idxOf_of_notMem h]
    rfl

/-! ## Several lines -/

/-- Lines are merged one after another. -/
theorem merge_cons (lines : List String) (m : String) (added : List String) :
    merge lines (m :: added) = merge (mergeLine lines m) added := rfl

/-- **No slot is lost or moved by merging lines.** -/
theorem slots_prefix_merge (lines added : List String) :
    slots lines <+: slots (merge lines added) := by
  induction added generalizing lines with
  | nil => exact List.prefix_rfl
  | cons m added ih => exact (slots_prefix_mergeLine lines m).trans (ih (mergeLine lines m))

/-- The slots of all merged lines are there afterwards. -/
theorem mem_slots_merge (h : l ∈ added) (lines : List String) :
    slot l ∈ slots (merge lines added) := by
  induction added generalizing lines with
  | nil => exact absurd h List.not_mem_nil
  | cons m added ih =>
    rcases List.mem_cons.mp h with rfl | h
    · exact (slots_prefix_merge _ added).subset (mem_slots_mergeLine lines l)
    · exact ih h (mergeLine lines m)

/-- The lines that are merged at a place, in order. -/
def mergedAt (lines added : List String) (i : Nat) : List String :=
  added.filter fun l => place (merge lines added) l = i

/-- **At each place stands the last line that was merged there**, or what stood there before. -/
theorem getElem?_merge (lines added : List String) (i : Nat) :
    (merge lines added)[i]? = (mergedAt lines added i).getLast?.or lines[i]? := by
  -- Lines that are merged later write over earlier ones, but slots stay where they are.
  induction added generalizing lines with
  | nil => rfl
  | cons m added ih =>
    -- The first line is written where its slot is in the end.
    have hplace : place (merge lines (m :: added)) m = place lines m := by
      rw [merge_cons, place_of_prefix_slots (slots_prefix_merge _ added)
        (mem_slots_mergeLine lines m), place_mergeLine]
    rw [merge_cons, ih, getElem?_mergeLine]
    by_cases h : place lines m = i
    · have hfirst : mergedAt lines (m :: added) i = m :: mergedAt (mergeLine lines m) added i :=
        List.filter_cons_of_pos (decide_eq_true (hplace.trans h))
      rw [if_pos h.symm, hfirst, List.getLast?_cons]
      cases (mergedAt (mergeLine lines m) added i).getLast? <;> rfl
    · have hrest : mergedAt lines (m :: added) i = mergedAt (mergeLine lines m) added i :=
        List.filter_cons_of_neg fun hi => h (hplace.symm.trans (of_decide_eq_true hi))
      rw [if_neg (Ne.symm h), hrest]

/-- **Merging lines again changes nothing**: each place has the last line that is merged there
already. -/
theorem merge_again (lines added : List String) :
    merge (merge lines added) added = merge lines added := by
  -- The second time every slot is there already, so each line goes to the same place.
  have hmerged : ∀ i, mergedAt (merge lines added) added i = mergedAt lines added i := by
    intro i
    refine List.filter_congr fun l hl => ?_
    rw [place_of_prefix_slots (slots_prefix_merge (merge lines added) added)
      (mem_slots_merge hl lines)]
  refine List.ext_getElem? fun i => ?_
  rw [getElem?_merge (merge lines added), hmerged, getElem?_merge lines, ← Option.or_assoc,
    Option.or_self]

/-! ## What becomes of each line -/

/-- The place of the first line that carries a label. -/
def firstOf (label : String) (lines : List String) : Option Nat :=
  lines.findIdx? fun l => label? l = some label

/-- The first line of a label stands at the place of its slot, if there is such a line. -/
theorem firstOf_eq_some_iff :
    firstOf label lines = some i ↔ i < lines.length ∧ (slots lines).idxOf (.ofLabel label) = i := by
  have hcarries : (fun l => decide (label? l = some label)) = (· == .ofLabel label) ∘ slot := by
    funext l
    rw [Function.comp_apply, Bool.eq_iff_iff, decide_eq_true_iff, beq_iff_eq, slot_eq_ofLabel_iff]
  rw [firstOf, List.findIdx?_eq_some_iff_findIdx_eq, hcarries, ← List.findIdx_map]
  rfl

/-- What merging lines into `lines` makes of these, told by labels. -/
structure Merged (lines added result : List String) : Prop where
  /-- No place is lost. -/
  length_le : lines.length ≤ result.length
  /-- The first line of a label that is merged makes way for the last line merged for it. -/
  replaced : ∀ {i : Nat} {label : String}, firstOf label lines = some i →
    carrying label added ≠ [] → result[i]? = (carrying label added).getLast?
  /-- Any other line stays where it is. -/
  kept : ∀ {i : Nat} {l : String}, lines[i]? = some l →
    (∀ label, firstOf label lines = some i → carrying label added = []) → result[i]? = some l
  /-- Merged lines without a label are there. -/
  present : ∀ l ∈ added, label? l = none → l ∈ result
  /-- The lines at new places were merged. -/
  appended : ∀ l ∈ result.drop lines.length, l ∈ added

/-- The slot at a place is that of the line there. -/
theorem getElem?_slots (lines : List String) (i : Nat) : (slots lines)[i]? = lines[i]?.map slot :=
  List.getElem?_map

/-- There are as many slots as lines. -/
theorem length_slots (lines : List String) : (slots lines).length = lines.length :=
  List.length_map _

/-- A slot stands at its place. -/
theorem getElem?_slots_place (h : slot l ∈ slots lines) :
    (slots lines)[place lines l]? = some (slot l) := by
  have hlt : place lines l < (slots lines).length := List.idxOf_lt_length_of_mem h
  rw [List.getElem?_eq_getElem hlt]
  exact congrArg some (List.getElem_idxOf hlt)

/-- The first line of a label makes way for the last line merged for it. -/
theorem merge_replaced (hfirst : firstOf label lines = some i)
    (hadded : carrying label added ≠ []) :
    (merge lines added)[i]? = (carrying label added).getLast? := by
  obtain ⟨hi, hidx⟩ := firstOf_eq_some_iff.mp hfirst
  have hmem : .ofLabel label ∈ slots lines := by
    rw [← List.idxOf_lt_length_iff, hidx, length_slots]
    exact hi
  obtain ⟨behind, hbehind⟩ := slots_prefix_merge lines added
  have hidx' : (slots (merge lines added)).idxOf (.ofLabel label) = i := by
    rw [← hbehind, List.idxOf_append_of_mem hmem, hidx]
  -- The lines merged at this place are those of the label, since other labels have other places.
  have hsame : mergedAt lines added i = carrying label added := by
    refine List.filter_congr fun l hl => decide_eq_decide.mpr ?_
    rw [place, ← hidx', List.idxOf_inj (mem_slots_merge hl lines), slot_eq_ofLabel_iff]
  rw [getElem?_merge, hsame, Option.or_of_isSome (List.getLast?_isSome.mpr hadded)]

/-- A line that is merged where a line stood before has the slot of this line. -/
theorem slot_eq_of_place_merge (hm : m ∈ added)
    (hl : lines[place (merge lines added) m]? = some l) : slot l = slot m := by
  obtain ⟨behind, hbehind⟩ := slots_prefix_merge lines added
  obtain ⟨hi, _⟩ := List.getElem?_eq_some_iff.mp hl
  rw [← length_slots] at hi
  have hat := getElem?_slots_place (mem_slots_merge hm lines)
  rw [← hbehind, List.getElem?_append_left hi, getElem?_slots, hl] at hat
  exact Option.some.inj hat

/-- Any other line stays. -/
theorem merge_kept (hl : lines[i]? = some l)
    (hnot : ∀ label, firstOf label lines = some i → carrying label added = []) :
    (merge lines added)[i]? = some l := by
  rw [getElem?_merge, hl]
  cases hlast : (mergedAt lines added i).getLast? with
  | none => rfl
  | some m =>
    -- The line written last has the slot of `l`; it cannot have a label, so it is `l`.
    obtain ⟨hm, hplace⟩ := List.mem_filter.mp (List.mem_of_getLast? hlast)
    obtain rfl : place (merge lines added) m = i := of_decide_eq_true hplace
    have hslot : slot l = slot m := slot_eq_of_place_merge hm hl
    rw [Option.some_or, Option.some.injEq]
    cases hlabel : label? m with
    | none => exact (eq_of_slot_eq_ofLine (hslot.trans (slot_of_none hlabel))).symm
    | some label =>
      have hmem : slot m ∈ slots lines := by
        rw [← hslot]
        exact List.mem_map_of_mem (List.mem_of_getElem? hl)
      have hfirst : firstOf label lines = some (place (merge lines added) m) := by
        rw [firstOf_eq_some_iff, ← slot_of_label hlabel]
        exact ⟨(List.getElem?_eq_some_iff.mp hl).1,
          (place_of_prefix_slots (slots_prefix_merge lines added) hmem).symm⟩
      exact absurd (List.mem_filter.mpr ⟨hm, decide_eq_true hlabel⟩)
        (List.eq_nil_iff_forall_not_mem.mp (hnot label hfirst) m)

/-- **Merging lines is idempotent and loses no place.**  Whatever labels the lines and the merged
lines repeat, merging the same lines again changes nothing.  Of the lines from before, the first
one of each label that is merged makes way for the last line merged for it, and all others stay
where they are; merged lines without a label are there afterwards; and all new lines behind are
merged lines. -/
theorem merged_merge (lines added : List String) :
    merge (merge lines added) added = merge lines added ∧
      Merged lines added (merge lines added) := by
  refine ⟨merge_again lines added, ?_, merge_replaced, merge_kept, fun l hl hnone => ?_,
    fun l hl => ?_⟩
  · rw [← length_slots, ← length_slots]
    exact (slots_prefix_merge lines added).length_le
  · have hmem := mem_slots_merge hl lines
    rw [slot_of_none hnone] at hmem
    obtain ⟨l', hl', hslot⟩ := List.mem_map.mp hmem
    rwa [← eq_of_slot_eq_ofLine hslot]
  · obtain ⟨k, hk⟩ := List.mem_iff_getElem?.mp hl
    rw [List.getElem?_drop, getElem?_merge, List.getElem?_eq_none (Nat.le_add_right _ k),
      Option.or_none] at hk
    exact (List.mem_filter.mp (List.mem_of_getLast? hk)).1

end GraphKeeper.Metadata

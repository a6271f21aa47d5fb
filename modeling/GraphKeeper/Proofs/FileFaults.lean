/-
  Which line of a graph file is blamed.

  Reading has two passes.  The first takes the lines one after another and stops at the first that
  is at fault by itself: no text, no record, or a node with a name that a line in front has.  Only
  when there is no such line the second looks for the ends of edges, which may stand in front of
  their nodes.  So a line in front of all others may be at fault for its end and yet not be the one
  that is blamed.

  The specification knows no reader: `held?` is the record of one line, `FaultyLine` and
  `DanglingLine` say what may be wrong with the line of a number, and the line that is blamed is the
  `First` of its kind.

  1. **The first pass** comes through exactly if no line is faulty (`readable_iff`, by induction
     from the last line on, because a line is judged by those in front of it).  If the lines in
     front of a faulty one are not, the reader stops there (`readLines_of_refused`).

  2. **The second pass** goes over the edges only, each with the number that the first pass has
     given it.  These are the numbers of the lines, in increasing order, however many blank lines
     and nodes stand between them (`readLines_eq_ok_numbers`).  So the first edge of the list with a
     missing end is the one with the least number (`forM_eq_error_iff_least`).

  The main theorem is `parse_blames`.
-/
import GraphKeeper.Proofs.GraphFile
import Mathlib.Data.List.Induction
import Mathlib.Order.Nat

namespace GraphKeeper

namespace LineFile

open Json

/-! ## Lines at fault -/

/-- The record of a line that is text, not blank, and read as one. -/
def held? (l : Bytes) : Option Record :=
  match Text.Utf8.decode l with
  | .error _ => none
  | .ok s => if Text.isBlank s then none else (decodeText Record.decoder s).toOption

/-- The nodes and the edges that lines hold, each in order. -/
def graphIn (lines : List Bytes) : Graph := graphOf (lines.filterMap held?)

/-- What is wrong with a line by itself, given the lines in front of it. -/
inductive Faulty (front : List Bytes) (l : Bytes) : LineFault → Prop
  | notUtf8 {fault : Text.Utf8.Fault} (h : Text.Utf8.decode l = .error fault) :
    Faulty front l (.notUtf8 fault)
  | notRecord {s : String} {error : DecodeError} (htext : Text.Utf8.decode l = .ok s)
    (hwritten : Text.isBlank s = false) (h : decodeText Record.decoder s = .error error) :
    Faulty front l (.notRecord error)
  | repeatedName {n : Node} (h : held? l = some (.node n))
    (hseen : n.name ∈ (graphIn front).names) :
    Faulty front l (.repeatedName n.name)

/-- The first end of an edge that is not among the names. -/
def MissingEnd (names : List String) (e : Edge) (name : String) : Prop :=
  name ∉ names ∧ (name = e.source ∨ e.source ∈ names ∧ name = e.target)

/-- The line with a number, counted from 1, and the lines in front of it. -/
def LineAt (lines front : List Bytes) (l : Bytes) (number : Nat) : Prop :=
  (∃ back, lines = front ++ l :: back) ∧ number = front.length + 1

/-- A line is at fault by itself. -/
def FaultyLine (lines : List Bytes) (c : Corruption) : Prop :=
  ∃ front l, LineAt lines front l c.line ∧ Faulty front l c.fault

/-- A line holds an edge with an end that no line gives to a node. -/
def DanglingLine (lines : List Bytes) (c : Corruption) : Prop :=
  ∃ front l e name, LineAt lines front l c.line ∧ held? l = some (.edge e) ∧
    MissingEnd (graphIn lines).names e name ∧ c.fault = .missingEnd e name

/-- No line of its kind comes before it. -/
def First (P : Corruption → Prop) (c : Corruption) : Prop := P c ∧ ∀ c', P c' → c.line ≤ c'.line

/-- **Where some line is at fault, there is a first one.** -/
theorem exists_first {P : Corruption → Prop} {c : Corruption} (h : P c) : ∃ c', First P c' := by
  classical
  -- The numbers of such lines have a least one.
  have hex : ∃ number c', P c' ∧ c'.line = number := ⟨_, c, h, rfl⟩
  obtain ⟨c', hc', hline⟩ := Nat.find_spec hex
  exact ⟨c', hc', fun other hother => hline ▸ Nat.find_min' hex ⟨other, hother, rfl⟩⟩

/-! ## Lines and their reader -/

/-- The reader cuts a file at its newlines, as anybody would. -/
theorem splitLines_eq_splitOn (content : Bytes) : splitLines content = content.splitOn 10 := by
  induction content with
  | nil => rfl
  | cons b bs ih =>
    obtain ⟨l, ls, hl⟩ := List.exists_cons_of_ne_nil (List.splitOn_ne_nil 10 bs)
    rw [splitLines, List.splitOn_cons_eq_if_modifyHead, ih, hl]
    by_cases hb : b = 10
    · rw [if_pos hb, if_pos (beq_iff_eq.mpr hb)]
    · rw [if_neg hb, if_neg (mt beq_iff_eq.mp hb)]
      rfl

/-- The record that the reader gives a line is the one that it holds. -/
theorem recordOf?_eq_held? : recordOf? = held? := by
  funext l
  rw [recordOf?, readLine, held?]
  cases Text.Utf8.decode l with
  | error fault => rfl
  | ok s =>
    dsimp only
    cases Text.isBlank s with
    | true => rfl
    | false => cases decodeText Record.decoder s <;> rfl

/-- What is read of a line is what it holds. -/
theorem held?_eq {l : Bytes} {r : Option Record} (h : readLine l = .ok r) : held? l = r :=
  recordOf?_eq_held? ▸ recordOf?_eq h

/-- The other way round, a record that a line holds is read. -/
theorem readLine_of_held? {l : Bytes} {r : Record} (h : held? l = some r) :
    readLine l = .ok (some r) := by
  rw [← recordOf?_eq_held?, recordOf?] at h
  split at h
  · rename_i hl
    rw [hl, h]
  · cases h

/-- The names that the reader has seen are those of the nodes that the lines hold. -/
theorem namesOf_eq (ls : List Bytes) : namesOf ls = (graphIn ls).names := by
  rw [namesOf, graphIn, recordOf?_eq_held?]

/-- A line cannot be read if it is no text, or has something on it that is no record. -/
theorem readLine_eq_error_iff {l : Bytes} {fault : LineFault} :
    readLine l = .error fault ↔
      (∃ f, Text.Utf8.decode l = .error f ∧ fault = .notUtf8 f) ∨
      ∃ s e, Text.Utf8.decode l = .ok s ∧ Text.isBlank s = false ∧
        decodeText Record.decoder s = .error e ∧ fault = .notRecord e := by
  constructor
  · intro h
    rw [readLine] at h
    split at h
    · rename_i f hf
      cases h
      exact Or.inl ⟨f, hf, rfl⟩
    · rename_i s hs
      split at h
      · cases h
      · rename_i hwritten
        split at h
        · cases h
        · rename_i e he
          cases h
          exact Or.inr ⟨s, e, hs, Bool.eq_false_iff.mpr hwritten, he, rfl⟩
  · rintro (⟨f, hf, rfl⟩ | ⟨s, e, hs, hwritten, he, rfl⟩)
    · rw [readLine, hf]
    · rw [readLine, hs]
      show (if Text.isBlank s then _ else _) = _
      rw [if_neg (Bool.eq_false_iff.mp hwritten), he]

/-- The reader stops at a line, when it has seen some names in front of it. -/
def Refused (seen : List String) (l : Bytes) (fault : LineFault) : Prop :=
  readLine l = .error fault ∨
    ∃ n, readLine l = .ok (some (.node n)) ∧ n.name ∈ seen ∧ fault = .repeatedName n.name

/-- The more names have been seen, the more is refused. -/
theorem Refused.mono {seen seen' : List String} {l : Bytes} {fault : LineFault}
    (h : Refused seen l fault) (hseen : seen ⊆ seen') : Refused seen' l fault :=
  h.imp_right fun ⟨n, hl, hn, hfault⟩ => ⟨n, hl, hseen hn, hfault⟩

/-- **A line is faulty exactly if the reader stops at it**, with the names in front of it seen. -/
theorem faulty_iff_refused {front : List Bytes} {l : Bytes} {fault : LineFault} :
    Faulty front l fault ↔ Refused (namesOf front) l fault := by
  rw [namesOf_eq, Refused, readLine_eq_error_iff]
  constructor
  · rintro (⟨h⟩ | ⟨htext, hwritten, h⟩ | ⟨h, hseen⟩)
    · exact Or.inl (Or.inl ⟨_, h, rfl⟩)
    · exact Or.inl (Or.inr ⟨_, _, htext, hwritten, h, rfl⟩)
    · exact Or.inr ⟨_, readLine_of_held? h, hseen, rfl⟩
  · rintro ((⟨_, h, rfl⟩ | ⟨_, _, htext, hwritten, h, rfl⟩) | ⟨n, hl, hseen, rfl⟩)
    · exact .notUtf8 h
    · exact .notRecord htext hwritten h
    · exact .repeatedName (held?_eq hl) hseen

/-! ## The first pass -/

/-- Stopping at a line, the reader tells its number. -/
theorem readLines_cons_of_refused {line : Nat} {seen : List String} {l : Bytes} {fault : LineFault}
    (h : Refused seen l fault) (ls : List Bytes) :
    readLines line seen (l :: ls) = .error ⟨line, fault⟩ := by
  rw [readLines]
  rcases h with hl | ⟨n, hl, hn, rfl⟩
  · rw [hl]
  · rw [hl]
    exact if_pos hn

/-- Behind lines that are read through, the reader stops at a line that it refuses.  The names in
front of that line are those that it had seen before and those of the lines it has read. -/
theorem readLines_of_refused {l : Bytes} {fault : LineFault} (back : List Bytes)
    {front : List Bytes} :
    ∀ {line : Nat} {seen : List String}, Readable seen front →
      Refused (namesOf front ++ seen) l fault →
      readLines line seen (front ++ l :: back) = .error ⟨line + front.length, fault⟩ := by
  induction front with
  | nil => intro line seen _ h; exact readLines_cons_of_refused h back
  | cons l' front ih =>
    intro line seen hread h
    have hplace : line + 1 + front.length = line + (front.length + 1) := by omega
    obtain ⟨r, hl'⟩ := hread.lines l' List.mem_cons_self
    rw [List.cons_append, readLines, hl', List.length_cons, ← hplace]
    -- A line that can be read moves the number by one, and if it has a node, adds a name.
    cases r with
    | none =>
      rw [namesOf_cons_of_none (by rw [recordOf?_eq hl']; rfl)] at h
      exact ih ((Readable.cons_iff_of_none hl' rfl).mp hread) h
    | some r =>
      cases r with
      | edge e =>
        rw [namesOf_cons_of_none (by rw [recordOf?_eq hl']; rfl)] at h
        exact congrArg (((line, Record.edge e) :: ·) <$> ·)
          (ih ((Readable.cons_iff_of_none hl' rfl).mp hread) h)
      | node n =>
        obtain ⟨hn, hread⟩ := (Readable.cons_node_iff hl').mp hread
        rw [namesOf_cons_node (recordOf?_eq hl')] at h
        -- The name of the node is one of those seen from now on.
        have h := h.mono List.perm_middle.symm.subset
        exact (if_neg hn).trans (congrArg (((line, Record.node n) :: ·) <$> ·) (ih hread h))

/-- The lines of a longer list are those of the shorter one and the last. -/
theorem lineAt_concat_iff {ls front : List Bytes} {last l : Bytes} {number : Nat} :
    LineAt (ls ++ [last]) front l number ↔
      LineAt ls front l number ∨ front = ls ∧ l = last ∧ number = ls.length + 1 := by
  constructor
  · rintro ⟨⟨back, hlines⟩, hnumber⟩
    rcases List.eq_nil_or_concat back with rfl | ⟨back, last', rfl⟩
    · obtain ⟨rfl, hlast⟩ := List.append_inj' hlines rfl
      exact Or.inr ⟨rfl, (List.cons.inj hlast).1.symm, hnumber⟩
    · rw [List.concat_eq_append, ← List.cons_append, ← List.append_assoc] at hlines
      exact Or.inl ⟨⟨back, (List.append_inj' hlines rfl).1⟩, hnumber⟩
  · rintro (⟨⟨back, rfl⟩, hnumber⟩ | ⟨rfl, rfl, hnumber⟩)
    · exact ⟨⟨back ++ [last], by simp⟩, hnumber⟩
    · exact ⟨⟨[], rfl⟩, hnumber⟩

/-- The names of the last line come behind the others. -/
theorem namesOf_concat (ls : List Bytes) (l : Bytes) :
    namesOf (ls ++ [l]) = namesOf ls ++ namesOf [l] := by
  simp only [namesOf, graphOf, Graph.names, List.filterMap_append, List.map_append]

/-- A last line can be read behind others, unless it is refused for what it is or for a name that
they have. -/
theorem readable_concat_iff {ls : List Bytes} {l : Bytes} :
    Readable [] (ls ++ [l]) ↔ Readable [] ls ∧ ∀ fault, ¬ Refused (namesOf ls) l fault := by
  constructor
  · rintro ⟨hlines, hnodup, -⟩
    rw [namesOf_concat, List.nodup_append'] at hnodup
    obtain ⟨hfront, -, hdisjoint⟩ := hnodup
    refine ⟨⟨fun l' hl' => hlines l' (List.mem_append_left _ hl'), hfront,
      fun _ _ => List.not_mem_nil⟩,
      fun fault h => ?_⟩
    rcases h with hl | ⟨n, hl, hn, -⟩
    · obtain ⟨r, hr⟩ := hlines l (List.mem_append_right _ List.mem_cons_self)
      nomatch hl.symm.trans hr
    · refine hdisjoint hn ?_
      rw [namesOf_cons_node (recordOf?_eq hl)]
      exact List.mem_cons_self
  · rintro ⟨⟨hlines, hnodup, -⟩, h⟩
    obtain ⟨r, hl⟩ : ∃ r, readLine l = .ok r := by
      cases hl : readLine l with
      | error fault => exact absurd (Or.inl hl) (h fault)
      | ok r => exact ⟨r, rfl⟩
    refine ⟨?_, ?_, fun _ _ => List.not_mem_nil⟩
    · intro l' hl'
      rcases List.mem_append.mp hl' with hl' | hl'
      · exact hlines l' hl'
      · exact ⟨r, List.mem_singleton.mp hl' ▸ hl⟩
    · rw [namesOf_concat]
      -- Only a node adds a name, and it was looked whether that is new.
      match r with
      | some (.node n) =>
        have hnew : n.name ∉ namesOf ls := fun hn => h _ (Or.inr ⟨n, hl, hn, rfl⟩)
        rw [namesOf_cons_node (recordOf?_eq hl)]
        exact List.nodup_append'.mpr
          ⟨hnodup, List.nodup_singleton _, List.disjoint_singleton.mpr hnew⟩
      | some (.edge e) =>
        rw [namesOf_cons_of_none (by rw [recordOf?_eq hl]; rfl)]
        exact (List.append_nil _).symm ▸ hnodup
      | none =>
        rw [namesOf_cons_of_none (by rw [recordOf?_eq hl]; rfl)]
        exact (List.append_nil _).symm ▸ hnodup

/-- **Lines are read through exactly if none of them is faulty.** -/
theorem readable_iff {ls : List Bytes} : Readable [] ls ↔ ∀ c, ¬ FaultyLine ls c := by
  induction ls using List.reverseRecOn with
  | nil =>
    refine iff_of_true ⟨?_, List.nodup_nil, ?_⟩ ?_
    · exact fun l hl => absurd hl List.not_mem_nil
    · exact fun name hname => absurd hname List.not_mem_nil
    · rintro c ⟨front, l, ⟨⟨back, hlines⟩, _⟩, _⟩
      exact absurd hlines (by simp)
  | append_singleton ls last ih =>
    -- A line is judged by those in front of it, so the last one can be taken off.
    rw [readable_concat_iff, ih]
    constructor
    · rintro ⟨hfront, hlast⟩ c ⟨front, l, hat, hfault⟩
      rcases lineAt_concat_iff.mp hat with hat | ⟨rfl, rfl, _⟩
      · exact hfront c ⟨front, l, hat, hfault⟩
      · exact hlast _ (faulty_iff_refused.mp hfault)
    · intro h
      refine ⟨fun c ⟨front, l, hat, hfault⟩ => ?_, fun fault hlast => ?_⟩
      · exact h c ⟨front, l, lineAt_concat_iff.mpr (Or.inl hat), hfault⟩
      · refine h ⟨ls.length + 1, fault⟩ ⟨ls, last, ?_, faulty_iff_refused.mpr hlast⟩
        exact lineAt_concat_iff.mpr (Or.inr ⟨rfl, rfl, rfl⟩)

/-- The first pass stops at the first faulty line. -/
theorem readLines_of_first {ls : List Bytes} {c : Corruption} (h : First (FaultyLine ls) c) :
    readLines 1 [] ls = .error c := by
  obtain ⟨⟨front, l, ⟨⟨back, rfl⟩, hline⟩, hfault⟩, hfirst⟩ := h
  -- A faulty line in front would have a smaller number.
  have hfront : Readable [] front := by
    refine readable_iff.mpr fun c' hc' => ?_
    obtain ⟨front', l', ⟨⟨back', rfl⟩, hline'⟩, hfault'⟩ := hc'
    have hle := hfirst c' ⟨front', l', ⟨⟨back' ++ l :: back, by simp⟩, hline'⟩, hfault'⟩
    rw [hline, hline', List.length_append, List.length_cons] at hle
    omega
  have hrefused := faulty_iff_refused.mp hfault
  rw [← List.append_nil (namesOf front)] at hrefused
  rw [readLines_of_refused back hfront hrefused, Nat.add_comm, ← hline]

/-! ## The second pass -/

/-- What has been read are the records of the lines with their numbers. -/
theorem readLines_eq_ok_numbers {ls : List Bytes} :
    ∀ {line : Nat} {seen : List String} {found : List (Nat × Record)},
      readLines line seen ls = .ok found →
      found = (ls.zipIdx line).filterMap fun p => (held? p.1).map (p.2, ·) := by
  induction ls with
  | nil =>
    intro line seen found h
    cases h
    rfl
  | cons l ls ih =>
    intro line seen found h
    rw [List.zipIdx_cons]
    rcases readLines_cons_eq_ok_iff.mp h with
      ⟨hl, hrest⟩ | ⟨e, rest, hl, hrest, rfl⟩ | ⟨n, rest, hl, _, hrest, rfl⟩
    · rw [List.filterMap_cons_none (by rw [held?_eq hl]; rfl)]
      exact ih hrest
    · rw [List.filterMap_cons_some (by rw [held?_eq hl]; rfl), ← ih hrest]
    · rw [List.filterMap_cons_some (by rw [held?_eq hl]; rfl), ← ih hrest]

/-- The edges among them are those of the lines, with the numbers of their lines. -/
theorem edgesOf_eq {line : Nat} {seen : List String} {ls : List Bytes}
    {found : List (Nat × Record)} (h : readLines line seen ls = .ok found) :
    edgesOf found =
      (ls.zipIdx line).filterMap fun p => ((held? p.1).bind Record.edge?).map (p.2, ·) := by
  rw [edgesOf, readLines_eq_ok_numbers h, List.filterMap_filterMap]
  refine congrArg (List.filterMap · _) (funext fun p => ?_)
  cases held? p.1 with
  | none => rfl
  | some r => cases r <;> rfl

/-- The edges stand in the order of their lines. -/
theorem pairwise_edgesOf {line : Nat} {seen : List String} {ls : List Bytes}
    {found : List (Nat × Record)} (h : readLines line seen ls = .ok found) :
    (edgesOf found).Pairwise fun a b => a.1 < b.1 := by
  have hnumbers : (ls.zipIdx line).Pairwise fun p q => p.2 < q.2 := by
    rw [← List.pairwise_map (R := (· < ·)) (f := Prod.snd), List.zipIdx_map_snd]
    exact List.pairwise_lt_range'
  rw [edgesOf_eq h]
  refine hnumbers.filterMap _ fun p q hlt a ha b hb => ?_
  obtain ⟨_, _, rfl⟩ := Option.map_eq_some_iff.mp ha
  obtain ⟨_, _, rfl⟩ := Option.map_eq_some_iff.mp hb
  exact hlt

/-- A line has the number under which it stands, with the lines in front of it. -/
theorem mem_zipIdx_iff_lineAt {ls : List Bytes} {l : Bytes} {number : Nat} :
    (l, number) ∈ ls.zipIdx 1 ↔ ∃ front, LineAt ls front l number := by
  rw [List.mk_mem_zipIdx_iff_le_and_getElem?_sub]
  constructor
  · rintro ⟨hnumber, hl⟩
    obtain ⟨hlt, rfl⟩ := List.getElem?_eq_some_iff.mp hl
    refine ⟨ls.take (number - 1), ⟨ls.drop (number - 1 + 1), ?_⟩, ?_⟩
    · rw [← List.drop_eq_getElem_cons hlt, List.take_append_drop]
    · rw [List.length_take]
      omega
  · rintro ⟨front, ⟨back, rfl⟩, rfl⟩
    refine ⟨by omega, ?_⟩
    rw [Nat.add_sub_cancel, List.getElem?_append_right (Nat.le_refl _), Nat.sub_self]
    rfl

/-- The edges that were read, each with a number, are those that lines with these numbers hold. -/
theorem mem_edgesOf {seen : List String} {ls : List Bytes} {found : List (Nat × Record)}
    (h : readLines 1 seen ls = .ok found) {number : Nat} {e : Edge} :
    (number, e) ∈ edgesOf found ↔
      ∃ front l, LineAt ls front l number ∧ held? l = some (.edge e) := by
  rw [edgesOf_eq h, List.mem_filterMap]
  constructor
  · rintro ⟨⟨l, _⟩, hl, hnumber⟩
    obtain ⟨_, hedge, he⟩ := Option.map_eq_some_iff.mp hnumber
    obtain ⟨rfl, rfl⟩ := Prod.mk.inj he
    obtain ⟨r, hr, hedge⟩ := Option.bind_eq_some_iff.mp hedge
    obtain ⟨front, hat⟩ := mem_zipIdx_iff_lineAt.mp hl
    refine ⟨front, l, hat, ?_⟩
    cases r with
    | node n => nomatch hedge
    | edge e =>
      cases hedge
      exact hr
  · rintro ⟨front, l, hat, hl⟩
    refine ⟨(l, number), mem_zipIdx_iff_lineAt.mpr ⟨front, hat⟩, ?_⟩
    show ((held? l).bind Record.edge?).map (number, ·) = _
    rw [hl]
    rfl

/-- The check of an edge fails for the first end that is missing. -/
theorem checkEnds_eq_error_iff {names : List String} {edge : Nat × Edge} {c : Corruption} :
    checkEnds names edge = .error c ↔
      ∃ name, MissingEnd names edge.2 name ∧ c = ⟨edge.1, .missingEnd edge.2 name⟩ := by
  constructor
  · intro h
    rw [checkEnds] at h
    split at h
    · rename_i hs
      cases h
      exact ⟨_, ⟨hs, Or.inl rfl⟩, rfl⟩
    · rename_i hs
      split at h
      · rename_i ht
        cases h
        exact ⟨_, ⟨ht, Or.inr ⟨not_not.mp hs, rfl⟩⟩, rfl⟩
      · cases h
  · rintro ⟨name, ⟨hname, rfl | ⟨hs, rfl⟩⟩, rfl⟩
    · rw [checkEnds, if_pos hname]
    · rw [checkEnds, if_neg (not_not.mpr hs), if_pos hname]

/-- **A line dangles exactly if the check of its edge fails.** -/
theorem danglingLine_iff {seen : List String} {ls : List Bytes} {found : List (Nat × Record)}
    (h : readLines 1 seen ls = .ok found) {c : Corruption} :
    DanglingLine ls c ↔ ∃ edge ∈ edgesOf found, checkEnds (graphIn ls).names edge = .error c := by
  constructor
  · rintro ⟨front, l, e, name, hat, hl, hmissing, hfault⟩
    refine ⟨(c.line, e), (mem_edgesOf h).mpr ⟨front, l, hat, hl⟩, ?_⟩
    exact checkEnds_eq_error_iff.mpr ⟨name, hmissing, hfault ▸ rfl⟩
  · rintro ⟨⟨number, e⟩, hedge, hcheck⟩
    obtain ⟨name, hmissing, rfl⟩ := checkEnds_eq_error_iff.mp hcheck
    obtain ⟨front, l, hat, hl⟩ := (mem_edgesOf h).mp hedge
    exact ⟨front, l, e, name, hat, hl, hmissing, rfl⟩

/-- The second pass stops at the first line that holds an edge with a missing end. -/
theorem forM_checkEnds_eq_error_iff {seen : List String} {ls : List Bytes}
    {found : List (Nat × Record)} (h : readLines 1 seen ls = .ok found) {c : Corruption} :
    (edgesOf found).forM (checkEnds (graphIn ls).names) = .error c ↔ First (DanglingLine ls) c := by
  -- A check blames the line that its edge came with.
  have hline : ∀ {edge c'}, checkEnds (graphIn ls).names edge = .error c' → c'.line = edge.1 := by
    intro edge c' hcheck
    obtain ⟨_, _, rfl⟩ := checkEnds_eq_error_iff.mp hcheck
    rfl
  rw [forM_eq_error_iff_least (pairwise_edgesOf h)]
  constructor
  · rintro ⟨edge, hedge, hcheck, hleast⟩
    refine ⟨(danglingLine_iff h).mpr ⟨edge, hedge, hcheck⟩, fun c' hc' => ?_⟩
    obtain ⟨edge', hedge', hcheck'⟩ := (danglingLine_iff h).mp hc'
    rw [hline hcheck, hline hcheck']
    exact hleast edge' hedge' ⟨c', hcheck'⟩
  · rintro ⟨hdangling, hfirst⟩
    obtain ⟨edge, hedge, hcheck⟩ := (danglingLine_iff h).mp hdangling
    refine ⟨edge, hedge, hcheck, fun edge' hedge' ⟨c', hcheck'⟩ => ?_⟩
    rw [← hline hcheck, ← hline hcheck']
    exact hfirst c' ((danglingLine_iff h).mpr ⟨edge', hedge', hcheck'⟩)

/-! ## Whole files -/

/-- A file of which no line is faulty is read through, and then its edges are looked at. -/
theorem parse_of_not_faulty {content : Bytes} (h : ∀ c, ¬ FaultyLine (content.splitOn 10) c) :
    ∃ found, readLines 1 [] (content.splitOn 10) = .ok found ∧
      parse content = ((edgesOf found).forM (checkEnds (graphIn (content.splitOn 10)).names) >>=
        fun _ => .ok (graphIn (content.splitOn 10))) := by
  obtain ⟨found, hfound⟩ := exists_readLines_iff.mpr (readable_iff.mpr h)
  refine ⟨found, hfound, ?_⟩
  have hgraph : (⟨nodesOf found, (edgesOf found).map Prod.snd⟩ : Graph) =
      graphIn (content.splitOn 10) := by
    rw [nodesOf_eq, map_snd_edgesOf, map_snd_of_readLines hfound, recordOf?_eq_held?, graphIn,
      graphOf]
  rw [parse, splitLines_eq_splitOn, hfound, ← hgraph]
  rfl

/-- If some line is faulty, the first of them is blamed. -/
theorem parse_of_first {content : Bytes} {c : Corruption}
    (h : First (FaultyLine (content.splitOn 10)) c) : parse content = .error c := by
  rw [parse, splitLines_eq_splitOn, readLines_of_first h]
  rfl

/-- Then the first line that holds an edge with a missing end is blamed. -/
theorem parse_eq_error_iff_of_not_faulty {content : Bytes}
    (h : ∀ c, ¬ FaultyLine (content.splitOn 10) c) {c : Corruption} :
    parse content = .error c ↔ First (DanglingLine (content.splitOn 10)) c := by
  obtain ⟨found, hfound, hparse⟩ := parse_of_not_faulty h
  rw [hparse, bind_eq_error_iff, forM_checkEnds_eq_error_iff hfound]
  exact or_iff_left fun ⟨_, _, herror⟩ => nomatch herror

/-- And if there is none, the file is read. -/
theorem parse_eq_ok_iff_of_not_faulty {content : Bytes}
    (h : ∀ c, ¬ FaultyLine (content.splitOn 10) c) {g : Graph} :
    parse content = .ok g ↔
      (∀ c, ¬ DanglingLine (content.splitOn 10) c) ∧ g = graphIn (content.splitOn 10) := by
  have herror := fun c => parse_eq_error_iff_of_not_faulty h (c := c)
  obtain ⟨found, hfound, hparse⟩ := parse_of_not_faulty h
  constructor
  · intro hread
    refine ⟨fun c hc => ?_, ?_⟩
    -- If some line did dangle, the first of them would be blamed, and the file refused.
    · obtain ⟨c₀, hfirst⟩ := exists_first hc
      nomatch hread.symm.trans ((herror c₀).mpr hfirst)
    · rw [hparse] at hread
      obtain ⟨_, _, hgraph⟩ := bind_eq_ok_iff.mp hread
      exact (Except.ok.inj hgraph).symm
  · rintro ⟨hno, rfl⟩
    cases hread : parse content with
    | error c => exact absurd ((herror c).mp hread).1 (hno c)
    | ok g =>
      rw [hparse] at hread
      obtain ⟨_, _, hgraph⟩ := bind_eq_ok_iff.mp hread
      exact hgraph.symm

/-- **A file is refused for the right line.**  If lines are at fault by themselves, it is the first
of them.  If none is, it is the first line that holds an edge with an end that no line of the whole
file gives to a node.  If there is none of these either, and only then, the file is read, as the
nodes and the edges that its lines hold, each in the order of the lines. -/
theorem parse_blames (content : Bytes) :
    (∀ c, parse content = .error c ↔
      First (FaultyLine (content.splitOn 10)) c ∨
        (∀ c', ¬ FaultyLine (content.splitOn 10) c') ∧
          First (DanglingLine (content.splitOn 10)) c) ∧
    ∀ g, parse content = .ok g ↔
      (∀ c, ¬ FaultyLine (content.splitOn 10) c) ∧ (∀ c, ¬ DanglingLine (content.splitOn 10) c) ∧
        g = graphIn (content.splitOn 10) := by
  by_cases hfaulty : ∃ c, FaultyLine (content.splitOn 10) c
  · obtain ⟨c, hc⟩ := hfaulty
    obtain ⟨c₀, hfirst⟩ := exists_first hc
    have hparse := parse_of_first hfirst
    refine ⟨fun c' => ⟨fun h => ?_, ?_⟩, fun g => ⟨fun h => ?_, fun h => absurd hc (h.1 c)⟩⟩
    · cases hparse.symm.trans h
      exact Or.inl hfirst
    · rintro (h | h)
      · exact parse_of_first h
      · exact absurd hc (h.1 c)
    · nomatch hparse.symm.trans h
  · have hnone : ∀ c, ¬ FaultyLine (content.splitOn 10) c := fun c hc => hfaulty ⟨c, hc⟩
    refine ⟨fun c => ?_, fun g => ?_⟩
    · rw [parse_eq_error_iff_of_not_faulty hnone, or_iff_right fun h => hnone c h.1]
      exact (and_iff_right hnone).symm
    · rw [parse_eq_ok_iff_of_not_faulty hnone]
      exact (and_iff_right hnone).symm

/-- The edge in the second line has no ends, but is only blamed when no other line is at fault. -/
example :
    let knows := lineOf (.edge ⟨"Ann", "Ben", "knows"⟩)
    (parse ([10].intercalate [[], knows, [123]])).mapError Corruption.line = .error 3 ∧
      (parse ([10].intercalate [[], knows])).mapError Corruption.line = .error 2 := by
  decide +kernel

end LineFile

end GraphKeeper

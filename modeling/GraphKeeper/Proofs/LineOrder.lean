/-
  The order of the lines of a graph file does not matter, nor do blank lines.

  Names are looked at line by line and the ends of edges after the last line, so a file may be
  refused at one line or another.  Whether it is refused does not depend on this: it is read exactly
  if each line that is not blank holds a record, and the records make up a graph that is well formed
  (`parse_eq_ok_iff_written`).  Both are said of the lines as a multiset, since a graph stays well
  formed in any order of its nodes and edges (`WellFormed.perm`).

  The order of the nodes in the graph is that of the lines with nodes, and the same goes for edges
  (`graphIn_eq`).  So if a line with a node only ever changes places with a line with an edge,
  it is the same graph.

  The main theorem is `parse_rearranged`.
-/
import GraphKeeper.Proofs.FileFaults
import GraphKeeper.Proofs.Integrity

namespace GraphKeeper

/-- What a function picks from a list are its values on the elements at which it has one. -/
theorem filterMap_filter_isSome {α β : Type} (f : α → Option β) (as : List α) :
    (as.filter fun a => (f a).isSome).filterMap f = as.filterMap f := by
  rw [List.filterMap_filter]
  refine congrArg (List.filterMap · as) (funext fun a => ?_)
  cases f a <;> rfl

namespace LineFile

/-! ## Lines of a file -/

/-- A line is text with nothing but blanks. -/
def isBlankLine (l : Bytes) : Bool :=
  match Text.Utf8.decode l with
  | .ok s => Text.isBlank s
  | .error _ => false

/-- The node that a line holds, if it holds one. -/
def heldNode? (l : Bytes) : Option Node := (held? l).bind Record.node?

/-- The edge that a line holds, if it holds one. -/
def heldEdge? (l : Bytes) : Option Edge := (held? l).bind Record.edge?

/-- The lines of a file that are not blank. -/
def written (content : Bytes) : List Bytes := (content.splitOn 10).filter fun l => !isBlankLine l

/-- The lines of a file that hold nodes. -/
def nodeLines (content : Bytes) : List Bytes :=
  (content.splitOn 10).filter fun l => (heldNode? l).isSome

/-- The lines of a file that hold edges. -/
def edgeLines (content : Bytes) : List Bytes :=
  (content.splitOn 10).filter fun l => (heldEdge? l).isSome

/-- A blank line is read, and holds no record. -/
theorem readLine_of_blank {l : Bytes} (h : isBlankLine l = true) : readLine l = .ok none := by
  rw [isBlankLine] at h
  split at h
  · rename_i s hs
    rw [readLine, hs]
    exact if_pos h
  · cases h

/-- The line of a record is not blank. -/
theorem isBlankLine_lineOf (r : Record) : isBlankLine (lineOf r) = false := by
  rw [Bool.eq_false_iff]
  intro h
  nomatch (readLine_of_blank h).symm.trans (readLine_lineOf r)

theorem heldNode?_lineOf (r : Record) : heldNode? (lineOf r) = r.node? := by
  rw [heldNode?, held?_eq (readLine_lineOf r), Option.bind_some]

theorem heldEdge?_lineOf (r : Record) : heldEdge? (lineOf r) = r.edge? := by
  rw [heldEdge?, held?_eq (readLine_lineOf r), Option.bind_some]

/-! ## What they hold -/

theorem nodes_graphIn (ls : List Bytes) : (graphIn ls).nodes = ls.filterMap heldNode? :=
  List.filterMap_filterMap

theorem edges_graphIn (ls : List Bytes) : (graphIn ls).edges = ls.filterMap heldEdge? :=
  List.filterMap_filterMap

/-- Only the lines with nodes in their order count, and those with edges in theirs. -/
theorem graphIn_eq (content : Bytes) :
    graphIn (content.splitOn 10) =
      ⟨(nodeLines content).filterMap heldNode?, (edgeLines content).filterMap heldEdge?⟩ := by
  rw [nodeLines, edgeLines, filterMap_filter_isSome, filterMap_filter_isSome, ← nodes_graphIn,
    ← edges_graphIn]

/-- **The nodes of a file are told by its lines as a multiset, and so are its edges.** -/
theorem graphIn_perm {ls ls' : List Bytes} (h : ls.Perm ls') :
    (graphIn ls).nodes.Perm (graphIn ls').nodes ∧ (graphIn ls).edges.Perm (graphIn ls').edges := by
  rw [nodes_graphIn, nodes_graphIn, edges_graphIn, edges_graphIn]
  exact ⟨h.filterMap heldNode?, h.filterMap heldEdge?⟩

/-- Blank lines hold nothing. -/
theorem graphIn_written (content : Bytes) :
    graphIn (written content) = graphIn (content.splitOn 10) := by
  rw [graphIn, graphIn, written, List.filterMap_filter]
  refine congrArg (fun f => graphOf (List.filterMap f _)) (funext fun l => ?_)
  cases hblank : isBlankLine l with
  | true => exact (held?_eq (readLine_of_blank hblank)).symm
  | false => rfl

/-- **A file is read if each line that is not blank can be, and what they hold is well formed.** -/
theorem parse_eq_ok_iff_written {content : Bytes} {g : Graph} :
    parse content = .ok g ↔
      (∀ l ∈ written content, ∃ r, readLine l = .ok r) ∧ g = graphIn (written content) ∧
        g.WellFormed := by
  -- Blank lines can be read anyway, so it is enough to ask it of the other ones.
  have hlines : (∀ l ∈ splitLines content, ∃ r, readLine l = .ok r) ↔
      ∀ l ∈ written content, ∃ r, readLine l = .ok r := by
    rw [splitLines_eq_splitOn]
    refine ⟨fun h l hl => h l (List.mem_of_mem_filter hl), fun h l hl => ?_⟩
    cases hblank : isBlankLine l with
    | true => exact ⟨none, readLine_of_blank hblank⟩
    | false => exact h l (List.mem_filter.mpr ⟨hl, by rw [hblank]; rfl⟩)
  rw [parse_eq_ok_iff, hlines, splitLines_eq_splitOn, recordOf?_eq_held?, graphIn_written, graphIn]

/-! ## Files with the same lines -/

/-- A file with the same lines in another order is read if the first one is. -/
theorem exists_parse_of_perm {content content' : Bytes} {g : Graph}
    (h : (written content).Perm (written content')) (hparse : parse content = .ok g) :
    ∃ g', parse content' = .ok g' ∧ g.nodes.Perm g'.nodes ∧ g.edges.Perm g'.edges := by
  obtain ⟨hlines, rfl, hg⟩ := parse_eq_ok_iff_written.mp hparse
  obtain ⟨hnodes, hedges⟩ := graphIn_perm h
  refine ⟨graphIn (written content'), parse_eq_ok_iff_written.mpr ⟨?_, rfl, ?_⟩, hnodes, hedges⟩
  · -- The same lines are looked at, and they hold the same nodes and edges as multisets.
    exact fun l hl => hlines l (h.mem_iff.mpr hl)
  · exact hg.perm hnodes hedges

/-- **Neither the order of lines nor blank lines matter.**  Let two files have the same lines that
are not blank, in whatever order.  Then both are read or none is, and with the same nodes and the
same edges, each as often as in the other.  If moreover the lines with nodes come in the same order,
and so do those with edges, then they are read as the same graph. -/
theorem parse_rearranged {content content' : Bytes}
    (h : (written content).Perm (written content')) :
    ((∃ g, parse content = .ok g) ↔ ∃ g, parse content' = .ok g) ∧
      (∀ g g', parse content = .ok g → parse content' = .ok g' →
        g.nodes.Perm g'.nodes ∧ g.edges.Perm g'.edges) ∧
      (nodeLines content = nodeLines content' → edgeLines content = edgeLines content' →
        ∀ g, parse content = .ok g ↔ parse content' = .ok g) := by
  refine ⟨⟨fun ⟨g, hg⟩ => ?_, fun ⟨g, hg⟩ => ?_⟩, fun g g' hg hg' => ?_, fun hnodes hedges g => ?_⟩
  · obtain ⟨g', hg', _⟩ := exists_parse_of_perm h hg
    exact ⟨g', hg'⟩
  · obtain ⟨g', hg', _⟩ := exists_parse_of_perm h.symm hg
    exact ⟨g', hg'⟩
  · obtain ⟨g'', hg'', hperm⟩ := exists_parse_of_perm h hg
    cases hg'.symm.trans hg''
    exact hperm
  · rw [parse_eq_ok_iff_written, parse_eq_ok_iff_written, graphIn_written, graphIn_written,
      graphIn_eq, graphIn_eq, hnodes, hedges]
    refine and_congr_left fun _ => ⟨fun hl l hmem => ?_, fun hl l hmem => ?_⟩
    · exact hl l (h.mem_iff.mpr hmem)
    · exact hl l (h.mem_iff.mp hmem)

/-- Two friends. -/
def friends : Graph :=
  ⟨[⟨"Ben", "npc", []⟩, ⟨"Ann", "npc", ["Role: smith"]⟩], [⟨"Ann", "Ben", "knows"⟩]⟩

/-- A file of theirs that has an edge in the middle and two blank lines. -/
def mixed : Bytes :=
  [10].intercalate [[], lineOf (.node ⟨"Ben", "npc", []⟩), lineOf (.edge ⟨"Ann", "Ben", "knows"⟩),
    [32, 13], lineOf (.node ⟨"Ann", "npc", ["Role: smith"]⟩)]

/-- It is read as the file that is written for them. -/
theorem parse_rearranged_mixed :
    (written mixed).Perm (written (encodeBytes friends)) ∧
      nodeLines mixed = nodeLines (encodeBytes friends) ∧
      edgeLines mixed = edgeLines (encodeBytes friends) ∧
      (∀ g, parse mixed = .ok g ↔ parse (encodeBytes friends) = .ok g) ∧
      parse mixed = .ok friends := by
  have hmixed : mixed.splitOn 10 = _ :=
    List.splitOn_intercalate 10 (by simp [newline_not_mem_lineOf]) (List.cons_ne_nil _ _)
  have hfriends : (encodeBytes friends).splitOn 10 = _ :=
    (splitLines_eq_splitOn _).symm.trans (splitLines_encodeBytes _)
  have hblank : isBlankLine [] = true ∧ isBlankLine [32, 13] = true := by decide
  have hnone : heldNode? [] = none ∧ heldNode? [32, 13] = none ∧ heldEdge? [] = none ∧
      heldEdge? [32, 13] = none := by decide
  have hperm : (written mixed).Perm (written (encodeBytes friends)) := by
    rw [written, written, hmixed, hfriends]
    simp only [records, friends, List.map_cons, List.map_nil, List.cons_append, List.nil_append,
      List.filter_cons, List.filter_nil, isBlankLine_lineOf, hblank, Bool.not_false, Bool.not_true,
      if_true, Bool.false_eq_true, if_false]
    exact (List.Perm.swap _ _ _).cons _
  have hnodes : nodeLines mixed = nodeLines (encodeBytes friends) := by
    rw [nodeLines, nodeLines, hmixed, hfriends]
    simp [records, friends, heldNode?_lineOf, hnone, Record.node?]
  have hedges : edgeLines mixed = edgeLines (encodeBytes friends) := by
    rw [edgeLines, edgeLines, hmixed, hfriends]
    simp [records, friends, heldEdge?_lineOf, hnone, Record.edge?]
  have hsame := (parse_rearranged hperm).2.2 hnodes hedges
  have hread : parse (encodeBytes friends) = .ok friends :=
    parse_encodeBytes_iff.mpr ⟨rfl, by decide⟩
  exact ⟨hperm, hnodes, hedges, hsame, (hsame friends).mpr hread⟩

end LineFile

end GraphKeeper

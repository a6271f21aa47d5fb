/-
  What is reported of added and of deleted metadata lines.

  1. **Added lines.**  An addition reports the lines that it puts behind those of the node: the
     requested ones that the node has not, each once (`Metadata.addMissing_eq`).  So what a batch
     reports tells all that it has done: the graph after it is the graph with the reported lines
     (`withLines`), and no node had one of its lines before, nor is one told of twice (`TakenUp`).

  2. **Taking them back.**  Deleting a line deletes it wherever it stands, so it only undoes an
     addition if the line was not there before and is not among those added later.  Both hold of
     reported lines.  So the deletions go through the reports one by one, and each takes its own
     lines away from the graph with the lines that are still to come (`deleteLines_withLines`).

  3. **Deleted lines.**  A deletion reports the lines of the request that the node has, as often as
     they are requested, and takes away all lines that are equal to one of them, as often as the
     node has them (`Metadata.remove_eq`).  So the report is what went exactly if both are equally
     often (`Metadata.perm_remove_iff`).
-/
import GraphKeeper.Proofs.Batches
import GraphKeeper.Proofs.StoreRuns

namespace GraphKeeper

namespace Metadata

variable {lines added behind requested : List String}

/-! ## Lines -/

/-- The lines that are missing are added at the end, each where it is first asked for. -/
theorem addMissing_eq (lines requested : List String) :
    addMissing lines requested =
      (distinct (requested.filter (· ∉ lines)),
        lines ++ distinct (requested.filter (· ∉ lines))) := by
  induction requested generalizing lines with
  | nil => rw [addMissing, List.filter_nil, distinct, List.append_nil]
  | cons l ls ih =>
    rw [addMissing]
    by_cases hl : l ∈ lines
    · rw [if_pos hl, ih, List.filter_cons_of_neg (by simpa using hl)]
    · -- Once the line is added, it is no longer missing when it is asked for again.
      have hrest : ls.filter (· ∉ lines ++ [l]) = (ls.filter (· ∉ lines)).filter (· ≠ l) := by
        rw [List.filter_filter]
        refine List.filter_congr fun l' _ => ?_
        simp [and_comm]
      rw [if_neg hl, ih, hrest, ← filter_distinct, List.filter_cons_of_pos (by simpa using hl),
        distinct, List.append_assoc, List.singleton_append]

/-- What goes are all lines that are asked for. -/
theorem remove_eq (lines requested : List String) :
    remove lines requested = (requested.filter (· ∈ lines), lines.filter (· ∉ requested)) := by
  have hleft : lines.filter (· ∉ requested.filter (· ∈ lines)) = lines.filter (· ∉ requested) :=
    List.filter_congr fun l hl => by simp [hl]
  rw [remove, hleft]

/-- Lines that stand at one place only are taken out of it. -/
theorem remove_middle (hlines : ∀ l ∈ added, l ∉ lines) (hbehind : ∀ l ∈ added, l ∉ behind) :
    remove (lines ++ (added ++ behind)) added = (added, lines ++ behind) := by
  have hall : added.filter (· ∈ lines ++ (added ++ behind)) = added :=
    List.filter_eq_self.mpr fun l hl => by simp [hl]
  have hkept : ∀ ls : List String, (∀ l ∈ added, l ∉ ls) → ls.filter (· ∉ added) = ls :=
    fun ls h => List.filter_eq_self.mpr fun l hl => decide_eq_true fun hmem => h l hmem hl
  have hgone : added.filter (· ∉ added) = [] :=
    List.filter_eq_nil_iff.mpr fun l hl => by simp [hl]
  rw [remove_eq, hall, List.filter_append, List.filter_append, hkept lines hlines,
    hkept behind hbehind, hgone, List.nil_append]

/-- **The lines reported and those that are left make up those from before** exactly if each line
that is found is requested as often as it is there. -/
theorem perm_remove_iff :
    ((remove lines requested).1 ++ (remove lines requested).2).Perm lines ↔
      ∀ l ∈ requested, l ∈ lines → requested.count l = lines.count l := by
  -- A line that is reported is counted by the request, and one that is left by the lines.
  have hcount : ∀ l, ((remove lines requested).1 ++ (remove lines requested).2).count l =
      (if l ∈ lines then requested.count l else 0) +
        if l ∈ requested then 0 else lines.count l := by
    intro l
    rw [remove_eq, List.count_append]
    congr 1
    · split
      · rename_i hl
        exact List.count_filter (by simpa using hl)
      · rename_i hl
        exact List.count_eq_zero.mpr fun h => hl (of_decide_eq_true (List.mem_filter.mp h).2)
    · split
      · rename_i hl
        exact List.count_eq_zero.mpr fun h => of_decide_eq_true (List.mem_filter.mp h).2 hl
      · rename_i hl
        exact List.count_filter (by simpa using hl)
  rw [List.perm_iff_count]
  constructor
  · intro h l hrequested hl
    have hsame := h l
    rw [hcount, if_pos hl, if_pos hrequested] at hsame
    exact hsame
  · intro h l
    rw [hcount]
    by_cases hl : l ∈ lines
    · by_cases hrequested : l ∈ requested
      · rw [if_pos hl, if_pos hrequested, h l hrequested hl, Nat.add_zero]
      · rw [if_pos hl, if_neg hrequested, List.count_eq_zero.mpr hrequested, Nat.zero_add]
    · rw [if_neg hl, List.count_eq_zero.mpr hl, ite_self]

end Metadata

/-- The lines that reports tell of a node, in order. -/
def linesFor (reports : List NodeLines) (name : String) : List String :=
  (reports.filter (·.name = name)).flatMap NodeLines.lines

theorem linesFor_cons_self {r : NodeLines} {name : String} (h : r.name = name)
    (rs : List NodeLines) : linesFor (r :: rs) name = r.lines ++ linesFor rs name := by
  simp [linesFor, h]

theorem linesFor_cons_of_ne {r : NodeLines} {name : String} (h : r.name ≠ name)
    (rs : List NodeLines) : linesFor (r :: rs) name = linesFor rs name := by
  simp [linesFor, h]

namespace Graph

variable {g last : Graph}

/-! ## Graphs with added lines -/

/-- The graph in which each node has the reported lines behind its own. -/
def withLines (g : Graph) (reports : List NodeLines) : Graph :=
  { g with nodes := g.nodes.map fun n =>
      { n with metadata := n.metadata ++ linesFor reports n.name } }

theorem withLines_nil (g : Graph) : g.withLines [] = g := by
  have hnodes : g.nodes.map (fun n => { n with metadata := n.metadata ++ linesFor [] n.name }) =
      g.nodes := by
    refine (List.map_congr_left fun n _ => ?_).trans (List.map_id _)
    show Node.mk n.name n.kind (n.metadata ++ []) = n
    rw [List.append_nil]
  rw [withLines, hnodes]

theorem names_withLines (g : Graph) (reports : List NodeLines) :
    (g.withLines reports).names = g.names := by
  rw [names, withLines, List.map_map]
  rfl

/-- Reports may be taken up one after another. -/
theorem withLines_cons (g : Graph) (r : NodeLines) (rs : List NodeLines) :
    (g.withLines [r]).withLines rs = g.withLines (r :: rs) := by
  have hnode : ∀ n : Node,
      linesFor [r] n.name ++ linesFor rs n.name = linesFor (r :: rs) n.name := by
    intro n
    by_cases hname : r.name = n.name
    · rw [linesFor_cons_self hname, linesFor_cons_self hname, List.append_assoc]
      rfl
    · rw [linesFor_cons_of_ne hname, linesFor_cons_of_ne hname]
      rfl
  simp only [withLines, List.map_map]
  congr 1
  refine List.map_congr_left fun n _ => ?_
  show Node.mk n.name n.kind (n.metadata ++ linesFor [r] n.name ++ linesFor rs n.name) = _
  rw [List.append_assoc, hnode]

/-- What is found under a name has the reported lines behind its own. -/
theorem node?_withLines (reports : List NodeLines) (name : String) :
    (g.withLines reports).node? name =
      (g.node? name).map fun n => { n with metadata := n.metadata ++ linesFor reports n.name } := by
  rw [node?, withLines, List.find?_map]
  rfl

/-- Lines do not matter to the shape of the graph. -/
theorem WellFormed.withLines (hg : g.WellFormed) (reports : List NodeLines) :
    (g.withLines reports).WellFormed :=
  hg.of_names_eq (names_withLines g reports) fun _ he => hg.ends_mem he

/-- Reports of lines that were put behind the lines of nodes that had none of them. -/
structure TakenUp (g : Graph) (reports : List NodeLines) : Prop where
  present : ∀ r ∈ reports, r.name ∈ g.names
  /-- No line is told of twice. -/
  nodup : ∀ name, (linesFor reports name).Nodup
  fresh : ∀ n ∈ g.nodes, ∀ l ∈ linesFor reports n.name, l ∉ n.metadata

/-! ## Added lines -/

/-- A change of one node that puts lines behind its own is a report taken up. -/
theorem modifyNode_eq_withLines (hg : g.WellFormed) {name : String} {added : List String}
    {f : Node → Node} (hf : ∀ n ∈ g.nodes, n.name = name →
      f n = { n with metadata := n.metadata ++ added }) :
    g.modifyNode name f = g.withLines [⟨name, added⟩] := by
  rw [modifyNode, modifyFirst_eq_map hg.nodup_names, withLines]
  congr 1
  refine List.map_congr_left fun n hn => ?_
  by_cases hname : n.name = name
  · rw [if_pos hname, hf n hn hname, linesFor_cons_self hname.symm]
    exact congrArg (Node.mk n.name n.kind) (congrArg _ (List.append_nil added).symm)
  · rw [if_neg hname, linesFor_cons_of_ne (Ne.symm hname)]
    exact congrArg (Node.mk n.name n.kind) (List.append_nil n.metadata).symm

/-- An addition puts what it reports behind the lines of the node. -/
theorem addLines_eq_ok (hg : g.WellFormed) {a r : NodeLines} {g' : Graph}
    (h : (addLines a).onCopy g = .ok (r, g')) :
    ∃ node, g.node? a.name = some node ∧
      r = ⟨a.name, distinct (a.lines.filter (· ∉ node.metadata))⟩ ∧ g' = g.withLines [r] := by
  obtain ⟨node, hnode, hr⟩ := addLines_eq_ok_iff.mp h
  obtain ⟨rfl, rfl⟩ := Prod.mk.inj hr
  refine ⟨node, hnode, by rw [Metadata.addMissing_eq], ?_⟩
  rw [Metadata.addMissing_eq]
  refine modifyNode_eq_withLines hg fun n hn hname => ?_
  rw [Metadata.addMissing_eq, eq_of_node? hg hnode hn hname]

/-- What is taken up behind a first report is new to its lines too. -/
theorem TakenUp.cons {r : NodeLines} {rs : List NodeLines} {node : Node}
    (hnode : g.node? r.name = some node) (hnodup : r.lines.Nodup)
    (hfresh : ∀ l ∈ r.lines, l ∉ node.metadata) (hg : g.WellFormed)
    (h : (g.withLines [r]).TakenUp rs) : g.TakenUp (r :: rs) := by
  -- The first lines are among those of the node by now.
  have hbehind : ∀ n ∈ g.nodes, ∀ l ∈ linesFor rs n.name,
      l ∉ n.metadata ∧ (r.name = n.name → l ∉ r.lines) := by
    intro n hn l hl
    have hnew := h.fresh _ (List.mem_map_of_mem hn) l hl
    refine ⟨fun hmem => hnew (List.mem_append_left _ hmem), fun hname hmem => hnew ?_⟩
    refine List.mem_append_right _ ?_
    rw [linesFor_cons_self hname]
    exact List.mem_append_left _ hmem
  refine ⟨?_, fun name => ?_, fun n hn l hl => ?_⟩
  · refine List.forall_mem_cons.mpr ⟨mem_names_of_node? hnode, fun r' hr' => ?_⟩
    exact names_withLines g [r] ▸ h.present r' hr'
  · by_cases hname : r.name = name
    · rw [linesFor_cons_self hname, List.nodup_append']
      refine ⟨hnodup, h.nodup name, fun l hl hl' => ?_⟩
      rw [← hname, ← name_of_node? hnode] at hl'
      exact (hbehind node (List.mem_of_find?_eq_some hnode) l hl').2 (name_of_node? hnode).symm hl
    · rw [linesFor_cons_of_ne hname]
      exact h.nodup name
  · by_cases hname : r.name = n.name
    · rw [linesFor_cons_self hname] at hl
      rcases List.mem_append.mp hl with hl | hl
      · exact eq_of_node? hg hnode hn hname.symm ▸ hfresh l hl
      · exact (hbehind n hn l hl).1
    · rw [linesFor_cons_of_ne hname] at hl
      exact (hbehind n hn l hl).1

/-- **A batch of additions leaves the graph with the lines that it reports.** -/
theorem BatchRun.takenUp {label : NodeLines → String} {index : Nat} {items : List NodeLines}
    {o : Outcome NodeLines} (h : BatchRun addLines label index g items o last)
    (hg : g.WellFormed) : last = g.withLines o.succeeded ∧ g.TakenUp o.succeeded := by
  -- Each item takes up its own report, and the rest of the batch goes on from the graph with it.
  induction h with
  | @done _ g =>
    refine ⟨(withLines_nil g).symm, ?_, fun _ => List.nodup_nil, ?_⟩
    · exact fun r hr => absurd hr List.not_mem_nil
    · exact fun n _ l hl => absurd hl List.not_mem_nil
  | succeeds h _ ih =>
    obtain ⟨node, hnode, rfl, rfl⟩ := addLines_eq_ok hg (Edit.onCopy_eq_ok_iff.mpr h)
    obtain ⟨hlast, htaken⟩ := ih (hg.withLines _)
    refine ⟨hlast.trans (withLines_cons _ _ _), htaken.cons hnode (nodup_distinct _) ?_ hg⟩
    intro l hl
    exact of_decide_eq_true (List.mem_filter.mp (mem_distinct.mp hl)).2
  | fails h _ ih =>
    -- A node that is not there is noticed before anything is written.
    obtain rfl := checksFirst_addLines _ _ _ _ h
    exact ih hg

/-! ## Taking them back -/

/-- What was taken up behind the first report was taken up. -/
theorem TakenUp.tail {r : NodeLines} {rs : List NodeLines} (h : g.TakenUp (r :: rs)) :
    g.TakenUp rs := by
  have hsub : ∀ name, (linesFor rs name).Sublist (linesFor (r :: rs) name) := by
    intro name
    by_cases hname : r.name = name
    · rw [linesFor_cons_self hname]
      exact List.sublist_append_right _ _
    · rw [linesFor_cons_of_ne hname]
  exact ⟨fun r' hr' => h.present r' (List.mem_cons_of_mem _ hr'),
    fun name => (h.nodup name).sublist (hsub name),
    fun n hn l hl => h.fresh n hn l ((hsub n.name).subset hl)⟩

/-- The first of some reports is taken back, and nothing else. -/
theorem deleteLines_withLines (hg : g.WellFormed) {r : NodeLines} {rs : List NodeLines}
    (h : g.TakenUp (r :: rs)) :
    (deleteLines r).onCopy (g.withLines (r :: rs)) = .ok (r, g.withLines rs) := by
  -- The lines of the first report stand between those of the node and those that are to come.
  have hremove : ∀ n ∈ g.nodes, n.name = r.name →
      Metadata.remove (n.metadata ++ linesFor (r :: rs) n.name) r.lines =
        (r.lines, n.metadata ++ linesFor rs n.name) := by
    intro n hn hname
    have hfresh := h.fresh n hn
    have hnodup := h.nodup n.name
    rw [linesFor_cons_self hname.symm] at hfresh hnodup ⊢
    exact Metadata.remove_middle (fun l hl => hfresh l (List.mem_append_left _ hl))
      (List.nodup_append'.mp hnodup).2.2
  obtain ⟨node, hnode⟩ := Option.isSome_iff_exists.mp
    (node?_isSome_iff.mpr (h.present r List.mem_cons_self))
  have hfound := node?_withLines (g := g) (r :: rs) r.name
  rw [hnode, Option.map_some] at hfound
  refine deleteLines_eq_ok_iff.mpr ⟨_, hfound, Prod.ext ?_ ?_⟩
  · rw [hremove node (List.mem_of_find?_eq_some hnode) (name_of_node? hnode)]
  · rw [modifyNode, modifyFirst_eq_map (hg.withLines _).nodup_names]
    simp only [withLines, List.map_map]
    congr 1
    refine List.map_congr_left fun n hn => ?_
    by_cases hname : n.name = r.name
    · rw [Function.comp_apply, if_pos hname, hremove n hn hname]
    · rw [Function.comp_apply, if_neg hname, linesFor_cons_of_ne (Ne.symm hname)]

/-- Deletions of what was taken up go through it report by report. -/
theorem TakenUp.batchRun {label : NodeLines → String} (hg : g.WellFormed) :
    ∀ {index : Nat} {reports : List NodeLines}, g.TakenUp reports →
      BatchRun deleteLines label index (g.withLines reports) reports ⟨reports, []⟩ g := by
  intro index reports
  -- The reports are taken back from the first one on, each from the graph with those behind it.
  induction reports generalizing index with
  | nil =>
    intro _
    rw [withLines_nil]
    exact .done
  | cons r rs ih =>
    intro h
    exact .succeeds (o := ⟨rs, []⟩) (Edit.onCopy_eq_ok_iff.mp (deleteLines_withLines hg h))
      (ih h.tail)

/-- **Additions are undone by their own reports.**  Each item of a batch reports the lines that it
was asked for and that its node, as it meets it, has not, each once and in order.  After the batch
every node has the reported lines behind its own.  And if the reports are handed to a batch of
deletions, then each of them succeeds and reports the same lines, and the graph is the one from
before. -/
theorem deleteMetadata_addMetadata (hg : g.WellFormed) (additions : List NodeLines) :
    (∀ front a back, additions = front ++ a :: back →
      ∀ node, (g.addMetadata front).2.node? a.name = some node →
        (g.addMetadata additions).1.reportAt? front.length =
          some ⟨a.name, distinct (a.lines.filter (· ∉ node.metadata))⟩) ∧
      (g.addMetadata additions).2 = g.withLines (g.addMetadata additions).1.succeeded ∧
      (g.addMetadata additions).2.deleteMetadata (g.addMetadata additions).1.succeeded =
        (⟨(g.addMetadata additions).1.succeeded, []⟩, g) := by
  have hrun : BatchRun addLines NodeLines.name 0 g additions _ _ := batchRun_batchFrom additions 0 g
  obtain ⟨hlast, htaken⟩ := hrun.takenUp hg
  refine ⟨?_, hlast, ?_⟩
  · rintro front a back rfl node hnode
    have hstep := addLines_eq_ok_iff.mpr ⟨node, hnode, rfl⟩
    rw [Metadata.addMissing_eq] at hstep
    exact (batch_item_of_ok hstep back).1
  · rw [addMetadata, batch, hlast]
    exact (htaken.batchRun hg).batchFrom_eq

/-- A tavern, and a cellar that has one line twice. -/
def tavern : Graph :=
  ⟨[⟨"Tavern", "location", ["Smoky"]⟩, ⟨"Cellar", "location", ["Damp", "Dark", "Damp"]⟩],
    [⟨"Tavern", "Cellar", "above"⟩]⟩

/-- Asks for lines twice, for lines that are there, and for lines of a node that is not. -/
def furnishings : List NodeLines :=
  [⟨"Cellar", ["Rats", "Damp", "Rats"]⟩, ⟨"Castle", ["Tall"]⟩, ⟨"Tavern", ["Smoky", "Loud"]⟩,
    ⟨"Cellar", ["Cold", "Rats"]⟩]

/-- The second entry fails, and the line that the cellar has twice is still there twice. -/
theorem deleteMetadata_addMetadata_tavern :
    tavern.WellFormed ∧
      (tavern.addMetadata furnishings).1.succeeded =
        [⟨"Cellar", ["Rats"]⟩, ⟨"Tavern", ["Loud"]⟩, ⟨"Cellar", ["Cold"]⟩] ∧
      (∀ front a back, furnishings = front ++ a :: back →
        ∀ node, (tavern.addMetadata front).2.node? a.name = some node →
          (tavern.addMetadata furnishings).1.reportAt? front.length =
            some ⟨a.name, distinct (a.lines.filter (· ∉ node.metadata))⟩) ∧
      (tavern.addMetadata furnishings).2 =
        tavern.withLines (tavern.addMetadata furnishings).1.succeeded ∧
      (tavern.addMetadata furnishings).2.deleteMetadata
          (tavern.addMetadata furnishings).1.succeeded =
        (⟨(tavern.addMetadata furnishings).1.succeeded, []⟩, tavern) := by
  have hg : tavern.WellFormed := by decide
  exact ⟨hg, by decide, deleteMetadata_addMetadata hg furnishings⟩

/-! ## Deleted lines -/

theorem deleteLines_of_node? {d : NodeLines} {node : Node} (hnode : g.node? d.name = some node) :
    ∃ g', (deleteLines d).onCopy g =
        .ok (⟨d.name, (Metadata.remove node.metadata d.lines).1⟩, g') ∧
      g'.node? d.name =
        some { node with metadata := (Metadata.remove node.metadata d.lines).2 } := by
  refine ⟨_, deleteLines_eq_ok_iff.mpr ⟨node, hnode, rfl⟩, ?_⟩
  rw [node?_modifyNode (by intro n; rfl), hnode, Option.map_some]

/-- **What a deletion reports, and what it leaves.**  An item of a batch reports those of its lines
that the node has when the item is met, as often as they are asked for, and leaves the node without
them.  So a report together with the lines that are left makes up the lines from before exactly if
each line that is found was asked for as often as the node had it. -/
theorem reported_of_deleteMetadata {front : List NodeLines} {d : NodeLines} {node : Node}
    (hnode : (g.deleteMetadata front).2.node? d.name = some node) (back : List NodeLines) :
    ∃ report node',
      (g.deleteMetadata (front ++ d :: back)).1.reportAt? front.length = some report ∧
      (g.deleteMetadata (front ++ [d])).2.node? d.name = some node' ∧
      report = ⟨d.name, d.lines.filter (· ∈ node.metadata)⟩ ∧
      node' = { node with metadata := node.metadata.filter (· ∉ d.lines) } ∧
      ((report.lines ++ node'.metadata).Perm node.metadata ↔
        ∀ l ∈ d.lines, l ∈ node.metadata → d.lines.count l = node.metadata.count l) := by
  obtain ⟨g', hstep, hnode'⟩ := deleteLines_of_node? hnode
  have hitem : (g.deleteMetadata (front ++ d :: back)).1.reportAt? front.length = some _ ∧
      (g.deleteMetadata (front ++ [d])).2 = g' := batch_item_of_ok hstep back
  refine ⟨_, _, hitem.1, hitem.2 ▸ hnode', ?_, ?_, Metadata.perm_remove_iff⟩
  · rw [Metadata.remove_eq]
  · rw [Metadata.remove_eq]

end Graph

namespace Store

open GraphKeeper.Graph

/-- A run that adds a tavern, and a cellar with one line twice. -/
def taverns : Store :=
  ((Store.mk "m" .empty).change .empty
    (.addNodes [⟨"Tavern", "location", ["Smoky", "Owner: Bree"]⟩,
      ⟨"Cellar", "location", ["Damp", "Dark", "Damp"]⟩])).2.1

/-- Behind another entry, a line that is asked for twice is reported twice, and was there once. -/
theorem reported_of_deleteMetadata_taverns :
    (taverns.graph.deleteMetadata [⟨"Cellar", ["Damp", "Mould"]⟩]).2.node? "Tavern" =
        some ⟨"Tavern", "location", ["Smoky", "Owner: Bree"]⟩ ∧
      ∃ report node',
        (taverns.graph.deleteMetadata [⟨"Cellar", ["Damp", "Mould"]⟩,
          ⟨"Tavern", ["Smoky", "Smoky"]⟩]).1.reportAt? 1 = some report ∧
        (taverns.graph.deleteMetadata [⟨"Cellar", ["Damp", "Mould"]⟩,
          ⟨"Tavern", ["Smoky", "Smoky"]⟩]).2.node? "Tavern" = some node' ∧
        report = ⟨"Tavern", ["Smoky", "Smoky"]⟩ ∧
        node' = ⟨"Tavern", "location", ["Owner: Bree"]⟩ ∧
        ((report.lines ++ node'.metadata).Perm ["Smoky", "Owner: Bree"] ↔
          ∀ l ∈ ["Smoky", "Smoky"], l ∈ ["Smoky", "Owner: Bree"] →
            ["Smoky", "Smoky"].count l = ["Smoky", "Owner: Bree"].count l) := by
  have hnode : (taverns.graph.deleteMetadata [⟨"Cellar", ["Damp", "Mould"]⟩]).2.node? "Tavern" =
      some ⟨"Tavern", "location", ["Smoky", "Owner: Bree"]⟩ := by
    decide +kernel
  exact ⟨hnode, reported_of_deleteMetadata (d := ⟨"Tavern", ["Smoky", "Smoky"]⟩) hnode []⟩

/-- Deletions report each line as often as the node lost it. -/
def ReportsRemoved (g : Graph) : Prop :=
  ∀ ⦃front : List NodeLines⦄ ⦃d : NodeLines⦄ ⦃node : Node⦄,
    (g.deleteMetadata front).2.node? d.name = some node → ∀ back : List NodeLines,
    ∃ report node',
      (g.deleteMetadata (front ++ d :: back)).1.reportAt? front.length = some report ∧
      (g.deleteMetadata (front ++ [d])).2.node? d.name = some node' ∧
      (report.lines ++ node'.metadata).Perm node.metadata

/-- **There are runs after which a deletion reports a line more often than it was removed.** -/
theorem not_reportsRemoved_taverns : Reachable taverns ∧ ¬ ReportsRemoved taverns.graph := by
  refine ⟨.changed _ _ (.empty "m"), fun hreports => ?_⟩
  have hnode : (taverns.graph.deleteMetadata []).2.node? "Tavern" =
      some ⟨"Tavern", "location", ["Smoky", "Owner: Bree"]⟩ := by
    decide +kernel
  obtain ⟨report, node', hreport, hnode', hperm⟩ :=
    hreports (d := ⟨"Tavern", ["Smoky", "Smoky"]⟩) hnode []
  have htold : (taverns.graph.deleteMetadata [⟨"Tavern", ["Smoky", "Smoky"]⟩]).1.reportAt? 0 =
      some ⟨"Tavern", ["Smoky", "Smoky"]⟩ := by
    decide +kernel
  have hleft : (taverns.graph.deleteMetadata [⟨"Tavern", ["Smoky", "Smoky"]⟩]).2.node? "Tavern" =
      some ⟨"Tavern", "location", ["Owner: Bree"]⟩ := by
    decide +kernel
  obtain rfl : report = ⟨"Tavern", ["Smoky", "Smoky"]⟩ := Option.some.inj (hreport.symm.trans htold)
  obtain rfl : node' = ⟨"Tavern", "location", ["Owner: Bree"]⟩ :=
    Option.some.inj (hnode'.symm.trans hleft)
  exact absurd hperm (by decide)

end Store

end GraphKeeper

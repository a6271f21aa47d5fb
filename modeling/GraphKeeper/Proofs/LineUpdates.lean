/-
  Updates by lines and updates by labels.

  There are two ways to give a node new metadata.  An item of a batch brings whole lines, which are
  taken apart and merged one after another.  An update of an entity brings labels with values, which
  are set one after another.

  A line that is made of a label and a value has these as its parts, whatever the value holds
  (`split?_line`), so merging it is setting the label (`mergeLine_line`).  By induction merging such
  lines is setting their labels (`merge_renderings`), also where labels are repeated or stand in
  several lines of the node.  The rest of both ways is the same: both find the one node of the name,
  and neither touches the edges.
-/
import GraphKeeper.Proofs.Batches
import GraphKeeper.Proofs.MetadataLines
import GraphKeeper.Proofs.StoreRuns

namespace GraphKeeper

namespace Metadata

/-- Merging a line that is made of a label and a value is setting the label to the value. -/
theorem mergeLine_line {label : String} (h : isLabel label.toList = true) (value : String)
    (lines : List String) : mergeLine lines (line label value) = set label (some value) lines := by
  rw [mergeLine, split?_line h]

/-- The lines made of labels and values. -/
def renderings (pairs : List (String × String)) : List String :=
  pairs.map fun p => line p.1 p.2

/-- The changes that set labels to values. -/
def assignments (pairs : List (String × String)) : List MetadataChange :=
  pairs.map fun p => ⟨p.1, some p.2⟩

variable {pairs : List (String × String)}

/-- **Merging lines that are made of labels and values is setting the labels**, one after
another. -/
theorem merge_renderings (hlabels : ∀ p ∈ pairs, isLabel p.1.toList = true) (lines : List String) :
    merge lines (renderings pairs) = Graph.applyMetadata lines (assignments pairs) := by
  induction pairs generalizing lines with
  | nil => rfl
  | cons p pairs ih =>
    obtain ⟨hlabel, hlabels⟩ := List.forall_mem_cons.mp hlabels
    calc merge lines (renderings (p :: pairs))
      _ = merge (mergeLine lines (line p.1 p.2)) (renderings pairs) := rfl
      _ = merge (set p.1 (some p.2) lines) (renderings pairs) := by rw [mergeLine_line hlabel]
      _ = Graph.applyMetadata (set p.1 (some p.2) lines) (assignments pairs) := ih hlabels _

end Metadata

open Metadata

/-- The update of a node that brings lines. -/
def NodeUpdate.byLines (name : String) (pairs : List (String × String)) : NodeUpdate :=
  ⟨name, none, some (renderings pairs)⟩

/-- The update of an entity that sets labels and changes no relationship. -/
def EntityUpdate.byLabels (name kind : String) (pairs : List (String × String)) : EntityUpdate :=
  ⟨name, kind, assignments pairs, []⟩

variable {node : Node} {pairs : List (String × String)}

namespace Graph

variable {g : Graph}

/-- Both updates make the same of every node. -/
theorem apply_byLines (hlabels : ∀ p ∈ pairs, isLabel p.1.toList = true) (name kind : String) :
    (NodeUpdate.byLines name pairs).apply = updatedNode (.byLabels name kind pairs) := by
  funext node
  show Node.mk node.name node.kind (merge node.metadata (renderings pairs)) = _
  rw [merge_renderings hlabels]
  rfl

/-- The update of the entity finds its node, and has no targets to look for. -/
theorem updateEntity_byLabels (hg : g.WellFormed) (hnode : node ∈ g.nodes) :
    g.updateEntity (.byLabels node.name node.kind pairs) =
      .ok (updatedNode (.byLabels node.name node.kind pairs) node,
        g.modifyNode node.name (updatedNode (.byLabels node.name node.kind pairs))) :=
  updateEntity_eq_ok_iff.mpr
    ⟨node, node?_of_mem hg hnode, rfl, fun _ h => absurd h List.not_mem_nil, rfl⟩

/-- The update of the node finds the same one, and has no kind to check. -/
theorem updateNode_byLines (hg : g.WellFormed) (hnode : node ∈ g.nodes)
    (hlabels : ∀ p ∈ pairs, isLabel p.1.toList = true) :
    (updateNode (.byLines node.name pairs)).onCopy g =
      .ok (updatedNode (.byLabels node.name node.kind pairs) node,
        g.modifyNode node.name (updatedNode (.byLabels node.name node.kind pairs))) := by
  rw [← apply_byLines hlabels]
  exact updateNode_eq_ok_iff.mpr ⟨node, node?_of_mem hg hnode, rfl, rfl⟩

end Graph

namespace Store

open GraphKeeper.Graph

variable {s : Store}

/-- Changes that make one graph fare alike: it is the graph from before, or it is written, or the
disk refuses it. -/
theorem change_of_same_graph {c c' : Change} {report report' : Report} {g : Graph}
    (h : c.apply s.graph = .ok (report, g)) (h' : c'.apply s.graph = .ok (report', g)) (d : Disk) :
    ∃ written : Except Failure Unit, ∃ s' d',
      s.change d c = (written.map fun _ => report, s', d') ∧
        s.change d c' = (written.map fun _ => report', s', d') := by
  rw [change, change, h, h']
  show ∃ written : Except Failure Unit, ∃ s' d',
    (if g = s.graph then _ else _) = _ ∧ (if g = s.graph then _ else _) = _
  -- Both changes are compared with the same graph and written with the same bytes.
  split
  · exact ⟨.ok (), _, _, rfl, rfl⟩
  · cases d.replace s.path (LineFile.encodeBytes g) with
    | error fault => exact ⟨.error (.storage s.path fault), _, _, rfl, rfl⟩
    | ok d' => exact ⟨.ok (), _, _, rfl, rfl⟩

/-- **Updates by lines and by labels agree.**  Take a node of a well-formed graph and labels with
any values.  The batch of one update that brings the lines made of them, and the update of the
entity that sets them, both succeed and make the same node and the same graph.  So whatever the disk
does, both leave the same store and disk, and either report that node or fail alike. -/
theorem updates_byLines_byLabels (hs : s.graph.WellFormed) (hnode : node ∈ s.graph.nodes)
    (hlabels : ∀ p ∈ pairs, isLabel p.1.toList = true) (d : Disk) :
    ∃ node' g, s.graph.updateNodes [.byLines node.name pairs] = (⟨[node'], []⟩, g) ∧
      s.graph.updateEntity (.byLabels node.name node.kind pairs) = .ok (node', g) ∧
      ∃ written : Except Failure Unit, ∃ s' d',
        s.change d (.updateNodes [.byLines node.name pairs]) =
            (written.map fun _ => .updatedNodes ⟨[node'], []⟩, s', d') ∧
          s.change d (.entity (.update (.byLabels node.name node.kind pairs))) =
            (written.map fun _ => .updated node' pairs.length, s', d') := by
  obtain ⟨node', g, hlines, hlabels⟩ : ∃ node' g,
      s.graph.updateNodes [.byLines node.name pairs] = (⟨[node'], []⟩, g) ∧
        s.graph.updateEntity (.byLabels node.name node.kind pairs) = .ok (node', g) :=
    ⟨_, _, batch_singleton_of_ok (Edit.onCopy_eq_ok_iff.mp (updateNode_byLines hs hnode hlabels)),
      updateEntity_byLabels hs hnode⟩
  have hbatch : Change.apply s.graph (.updateNodes [.byLines node.name pairs]) =
      .ok (.updatedNodes ⟨[node'], []⟩, g) := by
    rw [Change.apply, hlines]
    rfl
  have hcount : (assignments pairs).length + 0 = pairs.length := List.length_map _
  have hentity : Change.apply s.graph (.entity (.update (.byLabels node.name node.kind pairs))) =
      .ok (.updated node' pairs.length, g) := by
    rw [Change.apply, EntityChange.apply, hlabels, ← hcount]
    rfl
  exact ⟨node', g, hlines, hlabels, change_of_same_graph hbatch hentity d⟩

/-- Somebody with two lines of a label, and a line without one. -/
def annTwice : Store :=
  ⟨"m", ⟨[⟨"Town", "place", []⟩, ⟨"Ann", "npc", ["Role: smith", "old", "Role: bard"]⟩],
    [⟨"Ann", "Town", "lives_in"⟩]⟩⟩

/-- A label that is repeated, and one that ends in a colon; values with blanks and colons. -/
def annPairs : List (String × String) :=
  [("Role", "  knight: of\nRome"), ("Note:", ": x"), ("Role", "")]

/-- The first line of the label has the last value; the other one stays. -/
theorem updates_byLines_byLabels_ann :
    annTwice.graph.WellFormed ∧
      ⟨"Ann", "npc", ["Role: smith", "old", "Role: bard"]⟩ ∈ annTwice.graph.nodes ∧
      (∀ p ∈ annPairs, isLabel p.1.toList = true) ∧
      (annTwice.graph.updateNodes [.byLines "Ann" annPairs]).1.succeeded =
        [⟨"Ann", "npc", ["Role: ", "old", "Role: bard", "Note:: : x"]⟩] ∧
      ∃ node' g, annTwice.graph.updateNodes [.byLines "Ann" annPairs] = (⟨[node'], []⟩, g) ∧
        annTwice.graph.updateEntity (.byLabels "Ann" "npc" annPairs) = .ok (node', g) ∧
        ∃ written : Except Failure Unit, ∃ s' d',
          annTwice.change .empty (.updateNodes [.byLines "Ann" annPairs]) =
              (written.map fun _ => .updatedNodes ⟨[node'], []⟩, s', d') ∧
            annTwice.change .empty (.entity (.update (.byLabels "Ann" "npc" annPairs))) =
              (written.map fun _ => .updated node' annPairs.length, s', d') := by
  have hs : annTwice.graph.WellFormed := by decide
  have hnode : ⟨"Ann", "npc", ["Role: smith", "old", "Role: bard"]⟩ ∈ annTwice.graph.nodes := by
    decide
  have hlabels : ∀ p ∈ annPairs, isLabel p.1.toList = true := by decide
  exact ⟨hs, hnode, hlabels, by decide +kernel,
    updates_byLines_byLabels hs hnode hlabels .empty⟩

end Store

end GraphKeeper

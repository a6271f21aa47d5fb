/-
  Labels that several lines of a node carry.

  Nothing keeps labels apart: the lines of a new node, of a file and of an addition are taken as
  they are.  An update of an entity looks for the first line of a label and replaces or removes that
  one, so what it leaves depends on the lines that were there (`Store.lines_of_updated`): all of
  them but the first stay behind the line that was set.  The label has what was set for it, and
  nothing else, exactly if no more than one line carried it by then, and no change behind writes
  another one.

  The changes of an update count here because a text like `Role: x` may be set as well.  It is no
  label, and the line written for it carries `Role`.
-/
import GraphKeeper.Proofs.MetadataLines
import GraphKeeper.Proofs.StoreRuns

namespace GraphKeeper.Store

open GraphKeeper.Graph Metadata

variable {s s' : Store} {d d' : Disk} {u : EntityUpdate} {report : Report}

/-! ## The node of an update -/

/-- An update that succeeds takes place at a node, which has the changed lines afterwards. -/
theorem exists_node_of_updated (h : s.change d (.entity (.update u)) = (.ok report, s', d')) :
    ∃ node, s.graph.node? u.name = some node ∧
      s'.graph.node? u.name = some (updatedNode u node) := by
  obtain ⟨_, hupdate, _⟩ := updateEntity_of_change h
  obtain ⟨node, hnode, _, _, hr⟩ := updateEntity_eq_ok_iff.mp hupdate
  have hgraph : s'.graph = s.graph.rewritten u := (Prod.mk.inj hr).2
  refine ⟨node, hnode, ?_⟩
  rw [hgraph, node?_rewritten, hnode]
  rfl

/-! ## The lines of one label -/

/-- A list stands alone between a list without its first element and one more list exactly if these
two are empty. -/
theorem append_tail_append_eq_self_iff {α : Type} {as bs cs : List α} :
    as ++ bs.tail ++ cs = as ↔ bs.length ≤ 1 ∧ cs = [] := by
  rw [List.append_assoc, List.append_right_eq_self, List.append_eq_nil_iff,
    ← List.length_eq_zero_iff, List.length_tail, Nat.sub_eq_zero_iff_le]

/-- **What an update leaves of a label that it sets once.**  The line that is set, if one is, takes
the place of the first line of the label, and the other ones stay.  So the label is left with what
was set for it, and with nothing else, exactly if it had one line at most, counting those that the
changes in front write for texts that are no labels, and no change behind writes one. -/
theorem lines_of_updated (h : s.change d (.entity (.update u)) = (.ok report, s', d'))
    {c : MetadataChange} {front back : List MetadataChange}
    (hchanges : u.metadata = front ++ c :: back) (hlabel : isLabel c.label.toList = true)
    (honce : ∀ other ∈ front ++ back, other.label ≠ c.label) :
    ∃ node node', s.graph.node? u.name = some node ∧ s'.graph.node? u.name = some node' ∧
      carrying c.label node'.metadata = (c.value.map (line c.label)).toList ++
        (carrying c.label node.metadata ++ carrying c.label (writtenLines front)).tail ++
        carrying c.label (writtenLines back) ∧
      (carrying c.label node'.metadata = (c.value.map (line c.label)).toList ↔
        (carrying c.label node.metadata).length +
            (carrying c.label (writtenLines front)).length ≤ 1 ∧
          carrying c.label (writtenLines back) = []) := by
  obtain ⟨node, hnode, hnode'⟩ := exists_node_of_updated h
  have hlines := carrying_applyMetadata_split hlabel honce node.metadata
  rw [← hchanges] at hlines
  refine ⟨node, updatedNode u node, hnode, hnode', hlines, ?_⟩
  -- What was set stands alone if nothing is left behind it, neither of the lines that were there
  -- nor of those written later.
  show carrying c.label (applyMetadata node.metadata u.metadata) = _ ↔ _
  rw [hlines, append_tail_append_eq_self_iff, List.length_append]

/-! ## A node with two lines of a label -/

/-- A run that gives a node two lines of one label. -/
def twoRoles : Store :=
  ((Store.mk "m" .empty).change .empty
    (.addNodes [⟨"Ann", "npc", ["Role: smith", "Home: Rome", "Role: bard"]⟩])).2.1

/-- Removes the label, and sets another one in front. -/
def roleRemoved : EntityUpdate :=
  ⟨"Ann", "npc", [⟨"Home", some "Oslo"⟩, ⟨"Role", none⟩], []⟩

/-- The store after the update. -/
def roleLeft : Store := (twoRoles.change .empty (.entity (.update roleRemoved))).2.1

/-- The update succeeds. -/
theorem change_roleRemoved : ∃ report d', twoRoles.change .empty (.entity (.update roleRemoved)) =
    (.ok report, roleLeft, d') := by
  have hok : (twoRoles.change .empty (.entity (.update roleRemoved))).1.isOk = true := by
    decide +kernel
  obtain ⟨report, h⟩ := exists_eq_ok_of_isOk hok
  exact ⟨report, _, h⟩

theorem nodes_roleLeft : roleLeft.graph.nodes = [⟨"Ann", "npc", ["Home: Oslo", "Role: bard"]⟩] := by
  decide +kernel

/-- The second line of the label is still there. -/
theorem lines_of_updated_twoRoles :
    roleRemoved.metadata = [⟨"Home", some "Oslo"⟩] ++ ⟨"Role", none⟩ :: [] ∧
      (∃ report d', twoRoles.change .empty (.entity (.update roleRemoved)) =
        (.ok report, roleLeft, d')) ∧
      ∃ node node', twoRoles.graph.node? "Ann" = some node ∧
        roleLeft.graph.node? "Ann" = some node' ∧
        carrying "Role" node'.metadata = [] ++ (carrying "Role" node.metadata ++
          carrying "Role" (writtenLines [⟨"Home", some "Oslo"⟩])).tail ++
          carrying "Role" (writtenLines []) ∧
        (carrying "Role" node'.metadata = [] ↔
          (carrying "Role" node.metadata).length +
              (carrying "Role" (writtenLines [⟨"Home", some "Oslo"⟩])).length ≤ 1 ∧
            carrying "Role" (writtenLines []) = []) := by
  obtain ⟨report, d', h⟩ := change_roleRemoved
  have hchanges : roleRemoved.metadata = [⟨"Home", some "Oslo"⟩] ++ ⟨"Role", none⟩ :: [] := rfl
  exact ⟨hchanges, ⟨report, d', h⟩, lines_of_updated h hchanges (by decide) (by decide)⟩

/-- Updates leave one line for each label that they set once, or none if they remove it. -/
def SetsLabels (s : Store) : Prop :=
  ∀ ⦃s' : Store⦄ ⦃d d' : Disk⦄ ⦃u : EntityUpdate⦄ ⦃report : Report⦄,
    s.change d (.entity (.update u)) = (.ok report, s', d') →
    ∀ ⦃c : MetadataChange⦄ ⦃front back : List MetadataChange⦄, u.metadata = front ++ c :: back →
      isLabel c.label.toList = true → (∀ other ∈ front ++ back, other.label ≠ c.label) →
      ∃ node', s'.graph.node? u.name = some node' ∧
        carrying c.label node'.metadata = (c.value.map (line c.label)).toList

/-- **There are runs after which an update leaves lines of a label that it removes.** -/
theorem not_setsLabels_twoRoles : Reachable twoRoles ∧ ¬ SetsLabels twoRoles := by
  refine ⟨.changed _ _ (.empty "m"), fun hsets => ?_⟩
  obtain ⟨report, d', h⟩ := change_roleRemoved
  have hchanges : roleRemoved.metadata = [⟨"Home", some "Oslo"⟩] ++ ⟨"Role", none⟩ :: [] := rfl
  obtain ⟨node', hnode', hlines⟩ := hsets h hchanges (by decide) (by decide)
  rw [node?, nodes_roleLeft] at hnode'
  cases hnode'
  exact absurd hlines (by decide)

end GraphKeeper.Store

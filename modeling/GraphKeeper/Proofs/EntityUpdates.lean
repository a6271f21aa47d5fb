/-
  What updates of entities leave, and that updates of different entities can be made in either
  order.

  1. **One update.**  An update rewrites the list of edges once for each relationship change, and
     each time strikes edges out and puts others at the end.  All this comes to one closed form: the
     edges of other nodes and other kinds as they were, and behind them what the changes bring in
     (`foldl_relate_eq_append`).  Making the same changes again strikes out just what they brought
     in and puts it back (`rewritten_again`).  If the kinds are distinct, no change strikes out what
     another one brought in, so it is the edges of one change after the other.  The nodes are those
     from before, but for the metadata of one (`Store.effect_of_updated`).

  2. **Two updates.**  Whether an update is admitted, and which node it gives, depends on the names
     of the graph and on the node of its own name (`updateEntity_congr`).  The update of another
     entity changes neither.  So in both orders the same updates are admitted, and the nodes come to
     the same; each strikes out edges that start at its own entity, so the edges differ in their
     order at most (`after_comm`).

  3. **The file.**  A store writes what it changes, and the disk may refuse.  It does so for any
     content or for none (`Disk.writable_or_refused`): if it does, nothing changes in either order;
     if not, the store does what the graph does (`Store.updates_commute`).
-/
import GraphKeeper.Proofs.EntityRefusals
import GraphKeeper.Proofs.Relationships
import GraphKeeper.Proofs.StoreRuns
import Mathlib.Data.List.Perm.Basic

namespace GraphKeeper

namespace Graph

variable {g g' : Graph} {u v : EntityUpdate}

/-! ## The graph of one update -/

/-- The edges that are left, and behind them those that are brought in. -/
theorem edges_rewritten : (g.rewritten u).edges =
    without u.name (u.relationships.map RelationshipChange.kind) g.edges ++
      u.relationships.foldl (relate u.name) [] :=
  foldl_relate_eq_append u.name u.relationships g.edges

/-- No edge that is brought in is struck out by an update of another node. -/
theorem without_foldl_relate_nil (hne : u.name ≠ v.name) (kinds : List String) :
    without v.name kinds (u.relationships.foldl (relate u.name) []) =
      u.relationships.foldl (relate u.name) [] := by
  refine without_eq_self fun e he hboth => hne ?_
  rw [← (mem_foldl_relate_nil he).1]
  exact hboth.1

/-- **Changes of relationships that are made again change nothing.** -/
theorem rewritten_again :
    u.relationships.foldl (relate u.name) (g.rewritten u).edges = (g.rewritten u).edges := by
  -- What was brought in is all of the kinds that are struck out, and what was left over has none of
  -- them.
  have hstruck : without u.name (u.relationships.map RelationshipChange.kind)
      (u.relationships.foldl (relate u.name) []) = [] := by
    refine List.filter_eq_nil_iff.mpr fun e he hkept => ?_
    exact of_decide_eq_true hkept (mem_foldl_relate_nil he)
  have hkept : without u.name (u.relationships.map RelationshipChange.kind)
      (without u.name (u.relationships.map RelationshipChange.kind) g.edges) =
        without u.name (u.relationships.map RelationshipChange.kind) g.edges :=
    List.filter_filter.trans (List.filter_congr fun e _ => Bool.and_self _)
  rw [foldl_relate_eq_append, edges_rewritten, without_append, hstruck, hkept, List.append_nil]

/-- The same relationships once more find their entity and leave the graph as it is. -/
theorem updateEntity_again {node : Node} (h : g.updateEntity u = .ok (node, g')) :
    g'.updateEntity { u with metadata := [] } = .ok (node, g') := by
  obtain ⟨old, hold, hkind, htargets, hr⟩ := updateEntity_eq_ok_iff.mp h
  obtain ⟨rfl, hgraph⟩ := Prod.mk.inj hr
  replace hgraph : g' = g.rewritten u := hgraph
  have hnode : g'.node? u.name = some (updatedNode u old) := by
    rw [hgraph, node?_rewritten, hold]
    rfl
  have hedges : u.relationships.foldl (relate u.name) g'.edges = g'.edges := by
    rw [hgraph]
    exact rewritten_again
  have hsame : g'.rewritten { u with metadata := [] } = g' := by
    rw [rewritten_of_plain rfl, hedges]
  refine updateEntity_eq_ok_iff.mpr ⟨updatedNode u old, hnode, hkind, ?_, ?_⟩
  · intro change hchange target htarget
    rw [hgraph, names_rewritten]
    exact htargets change hchange target htarget
  · show _ = (updatedNode u old, g'.rewritten { u with metadata := [] })
    rw [hsame]

/-! ## Two updates -/

/-- **Names and the node of its name are all that an update asks the graph about.** -/
theorem updateEntity_congr (hnode : g'.node? u.name = g.node? u.name)
    (hnames : g'.names = g.names) :
    g'.updateEntity u = (g.updateEntity u).map fun r => (r.1, g'.rewritten u) := by
  cases h : g.updateEntity u with
  | ok r =>
    obtain ⟨node, hfound, hkind, htargets, rfl⟩ := updateEntity_eq_ok_iff.mp h
    refine updateEntity_eq_ok_iff.mpr ⟨node, hnode.trans hfound, hkind, ?_, rfl⟩
    intro change hchange target htarget
    rw [hnames]
    exact htargets change hchange target htarget
  | error failure =>
    -- A failure is one of two checks, and both look at the name and the node alone.
    have hkind : g'.checkKind u.name u.kind = g.checkKind u.name u.kind := by
      rw [checkKind, checkKind, hnode]
    have hunknown : g'.unknownTarget? (.update u) = g.unknownTarget? (.update u) := by
      unfold unknownTarget? isUnknown
      rw [hnames]
    refine EntityChange.update_eq_error_iff.mpr ?_
    rw [hkind, hnode, hunknown]
    exact EntityChange.update_eq_error_iff.mp h

/-- The graph that a change leaves: the changed one, or the same if the change fails. -/
def after (g : Graph) (c : Change) : Graph :=
  match c.apply g with
  | .ok r => r.2
  | .error _ => g

/-- What a change reports on a graph, or why it fails. -/
def result (g : Graph) (c : Change) : Except Failure Report := (c.apply g).map Prod.fst

/-- An update reports its node. -/
theorem result_update : g.result (.entity (.update u)) = (g.updateEntity u).map fun r =>
    .updated r.1 (u.metadata.length + u.relationships.length) := by
  rw [result, Change.apply, EntityChange.apply, Report.ofEntity]
  cases g.updateEntity u <;> rfl

/-- And it leaves the rewritten graph, if it is admitted. -/
theorem after_update : g.after (.entity (.update u)) =
    if (g.updateEntity u).isOk then g.rewritten u else g := by
  rw [after, Change.apply, EntityChange.apply]
  cases h : g.updateEntity u with
  | error failure => rfl
  | ok r =>
    obtain ⟨node, _, _, _, rfl⟩ := updateEntity_eq_ok_iff.mp h
    rfl

/-- An update is admitted, and gives its node, whether or not one of another entity was made. -/
theorem updateEntity_after (hne : v.name ≠ u.name) :
    ∃ last, (g.after (.entity (.update v))).updateEntity u =
      (g.updateEntity u).map fun r => (r.1, last) := by
  rw [after_update]
  split
  · exact ⟨_, updateEntity_congr (node?_rewritten_of_ne hne) names_rewritten⟩
  · exact ⟨_, updateEntity_congr rfl rfl⟩

/-- What an update reports does not depend on whether one of another entity was made before. -/
theorem result_after (hne : v.name ≠ u.name) :
    (g.after (.entity (.update v))).result (.entity (.update u)) =
      g.result (.entity (.update u)) := by
  obtain ⟨last, hlast⟩ := updateEntity_after hne (g := g)
  rw [result_update, result_update, hlast]
  cases g.updateEntity u <;> rfl

theorem isOk_after (hne : v.name ≠ u.name) :
    ((g.after (.entity (.update v))).updateEntity u).isOk = (g.updateEntity u).isOk := by
  obtain ⟨last, hlast⟩ := updateEntity_after hne (g := g)
  rw [hlast]
  cases g.updateEntity u <;> rfl

/-- The nodes come to the same, and the edges are the same ones. -/
theorem rewritten_comm (hne : u.name ≠ v.name) :
    ((g.rewritten u).rewritten v).nodes = ((g.rewritten v).rewritten u).nodes ∧
      ((g.rewritten u).rewritten v).edges.Perm ((g.rewritten v).rewritten u).edges := by
  constructor
  · show modifyFirst (·.name == v.name) (updatedNode v)
        (modifyFirst (·.name == u.name) (updatedNode u) g.nodes) =
      modifyFirst (·.name == u.name) (updatedNode u)
        (modifyFirst (·.name == v.name) (updatedNode v) g.nodes)
    have hother : ∀ n : Node, (n.name == v.name) = true → ¬ (n.name == u.name) = true :=
      fun n hv hu => hne ((eq_of_beq hu).symm.trans (eq_of_beq hv))
    apply modifyFirst_comm hother
    · intro n; rfl
    · intro n; rfl
  · -- Each update strikes out edges of its own entity, so the other one may do so before or after
    -- it, and what both bring in changes places.
    have hcomm : ∀ kinds kinds', without v.name kinds (without u.name kinds' g.edges) =
        without u.name kinds' (without v.name kinds g.edges) :=
      fun _ _ => List.filter_comm _ _ g.edges
    rw [edges_rewritten, edges_rewritten, without_append, without_foldl_relate_nil hne, hcomm,
      edges_rewritten (u := u), edges_rewritten (u := v), without_append,
      without_foldl_relate_nil hne.symm, List.append_assoc, List.append_assoc]
    exact List.perm_append_comm.append_left _

/-- **Updates of different entities commute**, but for the order of the edges. -/
theorem after_comm (hne : u.name ≠ v.name) :
    ((g.after (.entity (.update u))).after (.entity (.update v))).nodes =
        ((g.after (.entity (.update v))).after (.entity (.update u))).nodes ∧
      ((g.after (.entity (.update u))).after (.entity (.update v))).edges.Perm
        ((g.after (.entity (.update v))).after (.entity (.update u))).edges := by
  rw [after_update (g := g.after (.entity (.update u))), isOk_after hne,
    after_update (g := g.after (.entity (.update v))), isOk_after hne.symm, after_update,
    after_update]
  -- Where one of the two is refused, both orders make the other one alone.
  cases (g.updateEntity u).isOk <;> cases (g.updateEntity v).isOk
  · exact ⟨rfl, List.Perm.refl _⟩
  · exact ⟨rfl, List.Perm.refl _⟩
  · exact ⟨rfl, List.Perm.refl _⟩
  · exact rewritten_comm hne

end Graph

/-! ## Updates of a store -/

namespace Store

open GraphKeeper.Graph

variable {s s' : Store} {d d' : Disk} {u : EntityUpdate} {report : Report}

/-- **What an update of an entity leaves.**  Take an update that succeeds and changes relationships
of distinct kinds.  The nodes are those from before, but for the metadata of the one that is
updated, and the update reports the node that is then there.  The edges are those from before
without those that start at it and are of the kinds given, and behind them, one change after the
other, an edge to each target, repeated ones left out.  The same relationships given again change
nothing. -/
theorem effect_of_updated (hs : s.graph.WellFormed)
    (hkinds : (u.relationships.map RelationshipChange.kind).Nodup)
    (h : s.change d (.entity (.update u)) = (.ok report, s', d')) :
    ∃ old node, s.graph.node? u.name = some old ∧ s'.graph.node? u.name = some node ∧
      report = .updated node (u.metadata.length + u.relationships.length) ∧
      node = { old with metadata := applyMetadata old.metadata u.metadata } ∧
      s'.graph.nodes = s.graph.nodes.map (fun n =>
        if n.name = u.name then { n with metadata := node.metadata } else n) ∧
      s'.graph.edges =
        without u.name (u.relationships.map RelationshipChange.kind) s.graph.edges ++
          u.relationships.flatMap (given u.name) ∧
      ∀ disk, s'.change disk (.entity (.update { u with metadata := [] })) =
        (.ok (.updated node u.relationships.length), s', disk) := by
  obtain ⟨node, hupdate, hreport⟩ := updateEntity_of_change h
  have hagain := updateEntity_again hupdate
  obtain ⟨old, hold, _, _, hr⟩ := updateEntity_eq_ok_iff.mp hupdate
  obtain ⟨rfl, hgraph⟩ := Prod.mk.inj hr
  replace hgraph : s'.graph = s.graph.rewritten u := hgraph
  have hstored : s'.graph.node? u.name = some (updatedNode u old) := by
    rw [hgraph, node?_rewritten, hold]
    rfl
  refine ⟨old, updatedNode u old, hold, hstored, hreport, rfl, ?_, ?_, fun disk => ?_⟩
  · rw [hgraph]
    exact nodes_rewritten hs hold
  · rw [hgraph, edges_rewritten, foldl_relate_nil hkinds]
  · have hchange := change_of_updateEntity_same hagain disk
    rw [List.length_nil, Nat.zero_add] at hchange
    exact hchange

/-- A smith who lives in two places at once, and a town that leads to her. -/
def smithStore : Store :=
  ⟨"m", ⟨[⟨"Town", "place", []⟩, ⟨"Ann", "npc", ["Role: bard"]⟩, ⟨"Forge", "place", []⟩],
    [⟨"Ann", "Town", "lives_in"⟩, ⟨"Town", "Ann", "lives_in"⟩, ⟨"Ann", "Town", "works_in"⟩,
      ⟨"Ann", "Town", "lives_in"⟩, ⟨"Ann", "Forge", "likes"⟩]⟩⟩

/-- Moves her, with a place that is named twice and one that is herself, and clears what
she likes. -/
def smithMoved : EntityUpdate :=
  ⟨"Ann", "npc", [⟨"Role", some "smith"⟩],
    [⟨"likes", []⟩, ⟨"lives_in", ["Forge", "Ann", "Forge"]⟩]⟩

theorem effect_of_updated_smith :
    let s' := (smithStore.change .empty (.entity (.update smithMoved))).2.1
    smithStore.graph.WellFormed ∧
      (smithMoved.relationships.map RelationshipChange.kind).Nodup ∧
      s'.graph.edges = [⟨"Town", "Ann", "lives_in"⟩, ⟨"Ann", "Town", "works_in"⟩,
        ⟨"Ann", "Forge", "lives_in"⟩, ⟨"Ann", "Ann", "lives_in"⟩] ∧
      ∃ report old node, (smithStore.change .empty (.entity (.update smithMoved))).1 = .ok report ∧
        smithStore.graph.node? "Ann" = some old ∧ s'.graph.node? "Ann" = some node ∧
        report = .updated node 3 ∧
        node = { old with metadata := applyMetadata old.metadata smithMoved.metadata } ∧
        s'.graph.nodes = smithStore.graph.nodes.map (fun n =>
          if n.name = "Ann" then { n with metadata := node.metadata } else n) ∧
        s'.graph.edges = without "Ann" ["likes", "lives_in"] smithStore.graph.edges ++
          smithMoved.relationships.flatMap (given "Ann") ∧
        ∀ disk, s'.change disk (.entity (.update { smithMoved with metadata := [] })) =
          (.ok (.updated node 2), s', disk) := by
  intro s'
  have hs : smithStore.graph.WellFormed := by decide
  have hkinds : (smithMoved.relationships.map RelationshipChange.kind).Nodup := by decide
  have hok : (smithStore.change .empty (.entity (.update smithMoved))).1.isOk = true := by
    decide +kernel
  obtain ⟨report, h⟩ := exists_eq_ok_of_isOk hok
  obtain ⟨old, node, heffect⟩ := effect_of_updated hs hkinds h
  exact ⟨hs, hkinds, by decide +kernel, report, old, node, congrArg Prod.fst h, heffect⟩

/-! ## Two updates of a store -/

/-- What becomes of two changes that are made one after the other, and the graph after both. -/
def inTurn (s : Store) (d : Disk) (a b : Change) :
    Except Failure Report × Except Failure Report × Graph :=
  let (first, s, d) := s.change d a
  let (second, s, _) := s.change d b
  (first, second, s.graph)

/-- On a disk that takes no file, a change that would write fails, and nothing is changed at all. -/
theorem change_of_refused {fault : DiskFault}
    (h : ∀ content, d.replace s.path content = .error fault) (c : Change) :
    (s.change d c).2 = (s, d) := by
  cases s.change_fate d c with
  | failed _ _ hfate => rw [hfate]
  | same _ _ hfate => rw [hfate]
  | refused _ _ _ _ _ _ hfate => rw [hfate]
  | written _ _ _ _ _ hdisk => nomatch (h _).symm.trans hdisk

/-- On a disk that takes files, the store does what the graph does, and the disk takes files
afterwards too. -/
theorem change_of_writable (h : d.Writable s.path) (c : Change) :
    ∃ d', s.change d c = (s.graph.result c, { s with graph := s.graph.after c }, d') ∧
      d'.Writable s.path := by
  cases s.change_fate d c with
  | failed failure happly hfate =>
    refine ⟨d, ?_, h⟩
    rw [hfate, result, after, happly]
    rfl
  | same report happly hfate =>
    refine ⟨d, ?_, h⟩
    rw [hfate, result, after, happly]
    rfl
  | refused report graph fault _ _ hdisk =>
    obtain ⟨d', hd'⟩ := h (LineFile.encodeBytes graph)
    nomatch hdisk.symm.trans hd'
  | written report graph d' happly _ hdisk hfate =>
    refine ⟨d', ?_, h.replace hdisk⟩
    rw [hfate, result, after, happly]
    rfl

/-- On a disk that takes no file both changes meet the same store. -/
theorem inTurn_of_refused {fault : DiskFault}
    (h : ∀ content, d.replace s.path content = .error fault) (a b : Change) :
    s.inTurn d a b = ((s.change d a).1, (s.change d b).1, s.graph) := by
  have ha : s.change d a = ((s.change d a).1, s, d) := Prod.ext rfl (change_of_refused h a)
  have hb : s.change d b = ((s.change d b).1, s, d) := Prod.ext rfl (change_of_refused h b)
  rw [inTurn, ha]
  show ((s.change d a).1, (s.change d b).1, (s.change d b).2.1.graph) = _
  rw [hb]

/-- On a disk that takes files the store makes both changes as the graph does. -/
theorem inTurn_of_writable (h : d.Writable s.path) (a b : Change) :
    s.inTurn d a b =
      (s.graph.result a, (s.graph.after a).result b, (s.graph.after a).after b) := by
  obtain ⟨d', ha, hd'⟩ := change_of_writable h a
  obtain ⟨_, hb, _⟩ := change_of_writable (s := { s with graph := s.graph.after a }) hd' b
  rw [inTurn, ha]
  dsimp only
  rw [hb]

/-- **Updates of different entities can be made in either order.**  Each of the two has the same
outcome in both orders, the node that it gives or its failure, also when it gives an edge to the
other one, gives edges of the same kind, or cannot be written.  Both orders come to the same nodes,
and to the same edges but for their order. -/
theorem updates_commute (s : Store) (d : Disk) {u v : EntityUpdate} (hne : u.name ≠ v.name) :
    ∃ ofU ofV g g', s.inTurn d (.entity (.update u)) (.entity (.update v)) = (ofU, ofV, g) ∧
      s.inTurn d (.entity (.update v)) (.entity (.update u)) = (ofV, ofU, g') ∧
      g.nodes = g'.nodes ∧ g.edges.Perm g'.edges := by
  -- The disk takes both changes, or whatever it is given it takes none.
  rcases d.writable_or_refused s.path with hdisk | ⟨fault, hdisk⟩
  · obtain ⟨hnodes, hedges⟩ := after_comm hne (g := s.graph)
    refine ⟨_, _, _, _, inTurn_of_writable hdisk _ _, ?_, hnodes, hedges⟩
    rw [inTurn_of_writable hdisk, result_after hne, result_after hne.symm]
  · exact ⟨_, _, _, _, inTurn_of_refused hdisk _ _, inTurn_of_refused hdisk _ _, rfl,
      List.Perm.refl _⟩

/-- Two who know each other, and updates of both that name the other one and the same kind. -/
def friendsStore : Store :=
  ⟨"m", ⟨[⟨"Ann", "npc", []⟩, ⟨"Bob", "npc", ["Role: bard"]⟩],
    [⟨"Bob", "Ann", "knows"⟩, ⟨"Ann", "Bob", "knows"⟩]⟩⟩

def annUpdated : EntityUpdate :=
  ⟨"Ann", "npc", [⟨"Role", some "smith"⟩], [⟨"knows", ["Bob", "Ann"]⟩]⟩

def bobUpdated : EntityUpdate := ⟨"Bob", "npc", [⟨"Role", none⟩], [⟨"knows", ["Ann"]⟩]⟩

/-- The edges come to two orders. -/
theorem updates_commute_friends :
    "Ann" ≠ "Bob" ∧
      (friendsStore.inTurn .empty (.entity (.update annUpdated))
        (.entity (.update bobUpdated))).2.2.edges =
          [⟨"Ann", "Bob", "knows"⟩, ⟨"Ann", "Ann", "knows"⟩, ⟨"Bob", "Ann", "knows"⟩] ∧
      (friendsStore.inTurn .empty (.entity (.update bobUpdated))
        (.entity (.update annUpdated))).2.2.edges =
          [⟨"Bob", "Ann", "knows"⟩, ⟨"Ann", "Bob", "knows"⟩, ⟨"Ann", "Ann", "knows"⟩] ∧
      ∃ ofAnn ofBob g g',
        friendsStore.inTurn .empty (.entity (.update annUpdated)) (.entity (.update bobUpdated)) =
          (ofAnn, ofBob, g) ∧
        friendsStore.inTurn .empty (.entity (.update bobUpdated)) (.entity (.update annUpdated)) =
          (ofBob, ofAnn, g') ∧
        g.nodes = g'.nodes ∧ g.edges.Perm g'.edges :=
  ⟨by decide, by decide +kernel, by decide +kernel,
    updates_commute friendsStore .empty (u := annUpdated) (v := bobUpdated) (by decide)⟩

end Store

end GraphKeeper

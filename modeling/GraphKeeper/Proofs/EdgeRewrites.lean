/-
  Rewriting edges in place.

  An item of a batch exchanges every edge that equals the old one for the new one.  Edges have no
  names: several may be equal, an edge may become equal to another one, and a later item then meets
  both.  So what an item does is told by the graph that it meets, which is the one that the items in
  front of it leave.

  1. **One item.**  It is admitted exactly if the old edge is there and the new one could be added
     (`exists_updateEdge_iff`); the old one is looked for first (`updateEdge_of_not_mem`).  Then it
     is a `map` of the edges (`updateEdge_eq_ok`), so it keeps their places and their number, and
     reports how often the old edge was there.

  2. **A batch.**  What an item of a batch does is what it does to the graph that it meets
     (`rewrittenAt_of_ok`, `rewrittenAt_of_error`), and what each item keeps, the batch keeps: the
     number of edges (`length_updateEdges`).
-/
import GraphKeeper.Proofs.Batches
import GraphKeeper.Proofs.Integrity

namespace GraphKeeper

/-- What becomes of an item of a batch that rewrites edges: `o` is the outcome of the batch, `met`
the graph in front of the item and `left` the one behind it. -/
structure RewrittenAt (u : EdgeUpdate) (place : Nat) (o : Outcome EdgeReplacement)
    (met left : Graph) : Prop where
  /-- It succeeds exactly if the old edge is there, and the new one has a kind and leads from a node
  to a node. -/
  succeeds_iff : place ∉ o.failedAt ↔
    u.edge ∈ met.edges ∧ Text.isBlank u.replacement.kind = false ∧
      u.replacement.source ∈ met.names ∧ u.replacement.target ∈ met.names
  /-- Then it reports the new edge and the number of places at which the old one was. -/
  report : place ∉ o.failedAt →
    o.reportAt? place = some ⟨u.replacement, met.edges.count u.edge⟩
  /-- At these places the new edge is now, and at the others the same one as before. -/
  places : place ∉ o.failedAt → ∀ (i : Nat) (e : Edge), met.edges[i]? = some e →
    left.edges[i]? = some (if e = u.edge then u.replacement else e)
  length : left.edges.length = met.edges.length
  nodes : left.nodes = met.nodes
  /-- The old edge is gone, unless it is the new one as well. -/
  gone : place ∉ o.failedAt → u.replacement ≠ u.edge → u.edge ∉ left.edges
  /-- An item that fails changes nothing. -/
  unchanged : place ∈ o.failedAt → left = met
  /-- If the old edge is not there, it fails for this, whatever is wrong with the new one. -/
  missing : u.edge ∉ met.edges → ⟨place, u.edge.label, .notFound .edge u.edge.label⟩ ∈ o.failed

/-- What is exchanged is not left, unless it is exchanged for itself. -/
theorem not_mem_map_exchange {α : Type} [DecidableEq α] {old new : α} (hne : new ≠ old)
    (as : List α) : old ∉ as.map fun a => if a = old then new else a := by
  intro hmem
  obtain ⟨a, _, ha⟩ := List.mem_map.mp hmem
  split at ha
  · exact hne ha
  · exact absurd ha ‹_›

namespace Graph

variable {g : Graph} {u : EdgeUpdate}

/-! ## One item -/

theorem any_isMatch_iff : g.edges.any u.isMatch = true ↔ u.edge ∈ g.edges := by
  rw [List.any_eq_true]
  exact ⟨fun ⟨_, he, h⟩ => beq_iff_eq.mp h ▸ he, fun he => ⟨_, he, beq_self_eq_true u.edge⟩⟩

/-- **An item is admitted** if its old edge is there and its new one could be added. -/
theorem exists_updateEdge_iff : (∃ r, (updateEdge u).onCopy g = .ok r) ↔
    u.edge ∈ g.edges ∧ Text.isBlank u.replacement.kind = false ∧
      u.replacement.source ∈ g.names ∧ u.replacement.target ∈ g.names := by
  simp only [updateEdge_eq_ok_iff, checkEdge_eq_ok_iff, any_isMatch_iff]
  exact ⟨fun ⟨_, hmem, hcheck, _⟩ => ⟨hmem, hcheck⟩, fun ⟨hmem, hcheck⟩ => ⟨_, hmem, hcheck, rfl⟩⟩

/-- The old edge is looked for before the new one is looked at. -/
theorem updateEdge_of_not_mem (h : u.edge ∉ g.edges) :
    (updateEdge u).onCopy g = .error (.notFound .edge u.edge.label) := by
  rw [onCopy_updateEdge, Bool.eq_false_iff.mpr (mt any_isMatch_iff.mp h)]
  rfl

/-- Rewriting is a `map` of the edges. -/
theorem updateEdge_eq_ok {r : EdgeReplacement × Graph} (h : (updateEdge u).onCopy g = .ok r) :
    r.1 = ⟨u.replacement, g.edges.count u.edge⟩ ∧ r.2.nodes = g.nodes ∧
      r.2.edges = g.edges.map fun e => if e = u.edge then u.replacement else e := by
  obtain ⟨_, _, rfl⟩ := updateEdge_eq_ok_iff.mp h
  refine ⟨rfl, rfl, List.map_congr_left fun e _ => ?_⟩
  simp only [EdgeUpdate.isMatch, beq_iff_eq]

/-! ## Batches -/

section item

variable {front back : List EdgeUpdate}

/-- An item that is admitted exchanges the old edge for the new one. -/
theorem rewrittenAt_of_ok {r : EdgeReplacement × Graph}
    (h : (updateEdge u).onCopy (g.updateEdges front).2 = .ok r) :
    RewrittenAt u front.length (g.updateEdges (front ++ u :: back)).1
      (g.updateEdges front).2 (g.updateEdges (front ++ [u])).2 := by
  obtain ⟨hreport, hleft⟩ := batch_item_of_ok h back
  obtain ⟨hr, hnodes, hedges⟩ := updateEdge_eq_ok h
  have hkept : front.length ∉ (g.updateEdges (front ++ u :: back)).1.failedAt :=
    not_mem_failedAt_of_reportAt? hreport
  -- What the item leaves is the rewritten graph, so the statements are about its edges.
  replace hleft : (g.updateEdges (front ++ [u])).2 = r.2 := hleft
  rw [← hleft] at hnodes hedges
  exact {
    succeeds_iff := iff_of_true hkept (exists_updateEdge_iff.mp ⟨r, h⟩)
    report := fun _ => hr ▸ hreport
    places := fun _ i e he => by rw [hedges, List.getElem?_map, he, Option.map_some]
    length := by rw [hedges, List.length_map]
    nodes := hnodes
    gone := fun _ hne => by rw [hedges]; exact not_mem_map_exchange hne _
    unchanged := fun hfailed => absurd hfailed hkept
    missing := fun hmissing => absurd (exists_updateEdge_iff.mp ⟨r, h⟩).1 hmissing }

/-- An item that is not admitted leaves the graph that it meets. -/
theorem rewrittenAt_of_error {failure : Failure}
    (h : (updateEdge u).onCopy (g.updateEdges front).2 = .error failure) :
    RewrittenAt u front.length (g.updateEdges (front ++ u :: back)).1
      (g.updateEdges front).2 (g.updateEdges (front ++ [u])).2 := by
  obtain ⟨hmem, hleft⟩ := batch_item_of_error (checksFirst_updateEdge u) h back
  have hfailed : front.length ∈ (g.updateEdges (front ++ u :: back)).1.failedAt :=
    List.mem_map_of_mem hmem
  replace hleft : (g.updateEdges (front ++ [u])).2 = (g.updateEdges front).2 := hleft
  have hrefused : ¬ ∃ r, (updateEdge u).onCopy (g.updateEdges front).2 = .ok r :=
    fun ⟨_, hr⟩ => nomatch h.symm.trans hr
  rw [hleft]
  exact {
    succeeds_iff := iff_of_false (absurd hfailed) (mt exists_updateEdge_iff.mpr hrefused)
    report := fun hkept => absurd hfailed hkept
    places := fun hkept => absurd hfailed hkept
    length := rfl
    nodes := rfl
    gone := fun hkept => absurd hfailed hkept
    unchanged := fun _ => rfl
    missing := fun hmissing => by
      cases h.symm.trans (updateEdge_of_not_mem hmissing)
      exact hmem }

end item

/-- **No batch changes the number of edges**, since no item does. -/
theorem length_updateEdges (g : Graph) (updates : List EdgeUpdate) :
    (g.updateEdges updates).2.edges.length = g.edges.length := by
  have hstep : Preserves (fun g' => g'.edges.length = g.edges.length) updateEdge := by
    refine preserves_of_ok checksFirst_updateEdge fun g' u r hg' h => ?_
    rw [(updateEdge_eq_ok h).2.2, List.length_map, hg']
  exact batch_preserves hstep rfl

/-- **Edges are rewritten exactly.**  Each item of a batch does to the graph that the items in front
of it leave what `RewrittenAt` says, and no batch changes the number of edges. -/
theorem effect_of_updateEdges (g : Graph) :
    (∀ front u back, RewrittenAt u front.length (g.updateEdges (front ++ u :: back)).1
      (g.updateEdges front).2 (g.updateEdges (front ++ [u])).2) ∧
    ∀ updates, (g.updateEdges updates).2.edges.length = g.edges.length := by
  refine ⟨fun front u back => ?_, length_updateEdges g⟩
  cases h : (updateEdge u).onCopy (g.updateEdges front).2 with
  | ok r => exact rewrittenAt_of_ok h
  | error failure => exact rewrittenAt_of_error h

/-- Two equal edges become equal to a third one, so that the last item meets all three; the item
between them asks for an edge that is gone. -/
example :
    let g : Graph := ⟨[⟨"a", "npc", []⟩, ⟨"b", "npc", []⟩],
      [⟨"a", "b", "knows"⟩, ⟨"a", "b", "likes"⟩, ⟨"a", "b", "knows"⟩]⟩
    let updates : List EdgeUpdate := [⟨⟨"a", "b", "knows"⟩, none, none, some "likes"⟩,
      ⟨⟨"a", "b", "knows"⟩, none, some "c", none⟩, ⟨⟨"a", "b", "likes"⟩, none, some "a", none⟩]
    (g.updateEdges updates).1.succeeded =
        [⟨⟨"a", "b", "likes"⟩, 2⟩, ⟨⟨"a", "a", "likes"⟩, 3⟩] ∧
      (g.updateEdges updates).1.failedAt = [1] := by
  decide

end Graph

end GraphKeeper

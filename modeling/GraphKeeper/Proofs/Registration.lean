/-
  The table of the tools and their listing are filled side by side.

  A catalog tells of its tools in a listing and finds them in a table by name, and neither is made
  out of the other: both grow tool by tool, first in a loop over the tools for any graph and then
  in one over those of entity types.  What keeps them in step is the invariant `Table.Holds`: there
  is one list of tools, with distinct names, that the listing describes in its order and in which a
  name finds what the table has under it.

  Adding a tool keeps the invariant as long as its name is new (`Holds.add`); a name that is not new
  would take the place of another tool that stays listed.  The first loop does not look whether
  names are new, but its tools have eleven different ones (`holds_addGraphTools`).  The second one
  does look, and fails for the first name that is not (`addEntityTools_eq_ok`,
  `exists_addEntityTools_eq_error_iff`).
-/
import GraphKeeper.Proofs.Sequences
import GraphKeeper.Tool.Catalog

namespace GraphKeeper.Tool

namespace Table

variable {table table' : Table} {tools : List Tool} {tool : Tool} {name : String}

/-! ## Tools of a table -/

/-- The table holds the tools of a list, all of which have names of their own: the listing tells of
them in order, and the table has each of them under its name and nothing under other names. -/
structure Holds (table : Table) (tools : List Tool) : Prop where
  listing : table.listing = tools.map Tool.descriptor
  nodup : (tools.map Tool.name).Nodup
  found : ∀ name tool, table.tool? name = some tool ↔ tool ∈ tools ∧ tool.name = name

theorem holds_empty : empty.Holds [] where
  listing := rfl
  nodup := List.nodup_nil
  found := fun _ _ => ⟨(nomatch ·), fun h => absurd h.1 List.not_mem_nil⟩

/-- A name stands for nothing exactly if no tool has it. -/
theorem Holds.tool?_eq_none_iff (h : table.Holds tools) :
    table.tool? name = none ↔ name ∉ tools.map Tool.name := by
  rw [Option.eq_none_iff_forall_ne_some, List.mem_map]
  constructor
  · rintro hnone ⟨tool, htool⟩
    exact hnone tool ((h.found name tool).mpr htool)
  · intro hnone tool htool
    exact hnone ⟨tool, (h.found name tool).mp htool⟩

/-- What a name stands for after a tool has been added. -/
theorem tool?_add (table : Table) (tool : Tool) (name : String) :
    (table.add tool).tool? name = if name = tool.name then some tool else table.tool? name := by
  show List.lookup name ((tool.name, tool) :: table.handlers) = _
  rw [List.lookup_cons]
  by_cases hname : name = tool.name
  · rw [if_pos hname, hname, beq_self_eq_true]
  · rw [if_neg hname, beq_false_of_ne hname]
    rfl

/-- **A tool with a new name is added to both halves.** -/
theorem Holds.add (h : table.Holds tools) (hnew : table.tool? tool.name = none) :
    (table.add tool).Holds (tools ++ [tool]) := by
  have hfresh : tool.name ∉ tools.map Tool.name := h.tool?_eq_none_iff.mp hnew
  refine ⟨?_, ?_, fun name found => ?_⟩
  · show table.listing ++ [tool.descriptor] = _
    rw [h.listing, List.map_append]
    rfl
  · rw [List.map_append, List.nodup_append']
    exact ⟨h.nodup, List.nodup_singleton _, List.disjoint_singleton.mpr hfresh⟩
  · rw [tool?_add, List.mem_append, List.mem_singleton, or_and_right]
    by_cases hname : name = tool.name
    · -- None of the tools in front has the name.
      have hfront : ¬ (found ∈ tools ∧ found.name = name) := fun ⟨hmem, hfound⟩ =>
        hfresh (hname ▸ hfound ▸ List.mem_map_of_mem hmem)
      rw [if_pos hname, or_iff_right hfront]
      constructor
      · intro hsome
        obtain rfl := Option.some.inj hsome
        exact ⟨rfl, hname.symm⟩
      · rintro ⟨rfl, _⟩
        rfl
    · have hother : ¬ (found = tool ∧ found.name = name) := by
        rintro ⟨rfl, hfound⟩
        exact hname hfound.symm
      rw [if_neg hname, or_iff_left hother]
      exact h.found name found

/-! ## The tools for any graph -/

/-- Tools for any graph with distinct new names are added one after another. -/
theorem Holds.addGraphTools (ts : List GraphTool) : ∀ {table : Table} {tools : List Tool},
    table.Holds tools → (tools.map Tool.name ++ ts.map GraphTool.name).Nodup →
      (table.addGraphTools ts).Holds (tools ++ ts.map .graph) := by
  induction ts with
  | nil =>
    intro table tools h _
    rw [List.map_nil, List.append_nil]
    exact h
  | cons t ts ih =>
    intro table tools h hnodup
    have hnames : tools.map Tool.name ++ (t :: ts).map GraphTool.name =
        (tools ++ [Tool.graph t]).map Tool.name ++ ts.map GraphTool.name := by
      rw [List.map_append, List.append_assoc]
      rfl
    have hnew : t.name ∉ tools.map Tool.name := by
      intro hmem
      exact (List.nodup_append'.mp hnodup).2.2 hmem List.mem_cons_self
    rw [Table.addGraphTools, List.map_cons, List.append_cons]
    exact ih (h.add (h.tool?_eq_none_iff.mpr hnew)) (hnames ▸ hnodup)

/-- The first loop puts the eleven tools for any graph into the table. -/
theorem holds_addGraphTools :
    (empty.addGraphTools GraphTool.all).Holds (GraphTool.all.map .graph) :=
  holds_empty.addGraphTools GraphTool.all (by decide)

/-! ## The tools of entity types -/

/-- The second loop adds all of its tools, or none if it fails. -/
theorem Holds.addEntityTools_eq_ok (ts : List EntityTool) : ∀ {table : Table} {tools : List Tool},
    table.Holds tools → table.addEntityTools ts = .ok table' →
      table'.Holds (tools ++ ts.map .entity) := by
  induction ts with
  | nil =>
    intro table tools h hok
    cases hok
    rw [List.map_nil, List.append_nil]
    exact h
  | cons t ts ih =>
    intro table tools h hok
    rw [addEntityTools] at hok
    cases hfound : table.tool? t.name with
    | some taken =>
      rw [hfound] at hok
      nomatch hok
    | none =>
      rw [hfound] at hok
      rw [List.map_cons, List.append_cons]
      exact ih (h.add hfound) hok

/-- The second loop fails exactly if one of its tools has the name of a tool that is there, provided
that they have distinct names themselves. -/
theorem Holds.exists_addEntityTools_eq_error_iff (ts : List EntityTool) :
    ∀ {table : Table} {tools : List Tool}, table.Holds tools →
      (ts.map EntityTool.name).Nodup →
      ((∃ failure, table.addEntityTools ts = .error failure) ↔
        ∃ t ∈ ts, t.name ∈ tools.map Tool.name) := by
  induction ts with
  | nil =>
    intro table tools _ _
    exact ⟨fun ⟨_, h⟩ => (nomatch h), fun ⟨_, h, _⟩ => nomatch h⟩
  | cons t ts ih =>
    intro table tools h hnodup
    obtain ⟨hself, hrest⟩ := List.nodup_cons.mp hnodup
    rw [List.exists_mem_cons_iff, addEntityTools]
    cases hfound : table.tool? t.name with
    | some taken =>
      refine iff_of_true ⟨_, rfl⟩ (Or.inl ?_)
      obtain ⟨hmem, hname⟩ := (h.found t.name taken).mp hfound
      exact hname ▸ List.mem_map_of_mem hmem
    | none =>
      have hnew : t.name ∉ tools.map Tool.name := h.tool?_eq_none_iff.mp hfound
      have hadded : (table.add (.entity t)).Holds (tools ++ [.entity t]) := h.add hfound
      refine (ih hadded hrest).trans ?_
      rw [or_iff_right hnew]
      -- The tool that was added last has the name of none behind it.
      refine exists_congr fun t' => and_congr_right fun ht' => ?_
      rw [List.map_append, List.mem_append, or_iff_left]
      intro hname
      have hsame : t'.name = t.name := List.mem_singleton.mp hname
      exact hself (hsame ▸ List.mem_map_of_mem ht')

end Table

/-- **What is assembled holds the tools for any graph and those given**, the latter behind. -/
theorem holds_of_assemble {ts : List EntityTool} {table : Table} (h : assemble ts = .ok table) :
    table.Holds (GraphTool.all.map .graph ++ ts.map .entity) :=
  Table.holds_addGraphTools.addEntityTools_eq_ok ts h

end GraphKeeper.Tool

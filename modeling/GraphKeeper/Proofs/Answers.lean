/-
  What searches and look-ups answer.

  An answer holds nodes of the graph and the edges between them.  It is an induced part of the
  graph: every edge with both ends among the nodes is there, as often and in the order in which the
  graph has it (`edgesAmong_eq`).

  1. **Searches.**  What a query asks for is said without the program by `Query.Matches`; a tag is
     looked up by the name at the end of an edge, which names one node only (`isMatch_iff`).

  2. **Look-ups.**  A node that has been found is not put in twice.  Nodes are told apart as wholes
     there, but a node that was looked up is the one of its name, so they are told apart by their
     names (`map_name_opened`).

  3. **Both.**  The nodes of a search are some of the graph, in its order, each with a name of its
     own.  So looking their names up finds just them (`openNodes_map_name`).
-/
import GraphKeeper.Proofs.Searches

namespace GraphKeeper

/-- What a query asks for: a node of a kind, a node with a tag of a name, or a node with a text in
its name or in a line, in lower case. -/
def Query.Matches (g : Graph) (n : Node) : Query → Prop
  | .text needle => ∃ text ∈ n.name :: n.metadata, needle.toList <:+: (Text.lower text).toList
  | .kind wanted => n.kind = wanted
  | .tag name => ∃ m ∈ g.nodes, m.kind = tagKind ∧ Text.lower m.name = name ∧ g.HasTag n m

namespace Graph

variable {g : Graph} {query : Query} {names : List String}

/-! ## Edges between nodes -/

/-- The edges of an answer are those of the graph with both ends among its nodes. -/
theorem edgesAmong_eq (g : Graph) (names : List String) :
    g.edgesAmong names = g.edges.filter fun e => e.source ∈ names ∧ e.target ∈ names := by
  refine List.filter_congr fun e _ => ?_
  rw [Bool.eq_iff_iff, Bool.and_eq_true, List.contains_iff_mem, List.contains_iff_mem,
    decide_eq_true_iff]

/-! ## Searches -/

/-- **A node matches if it is what the query asks for.** -/
theorem isMatch_iff (hg : g.WellFormed) {n : Node} :
    query.isMatch g n = true ↔ query.Matches g n := by
  cases query with
  | text needle => exact isMatch_text_iff
  | kind wanted => exact beq_iff_eq
  | tag name => exact isMatch_tag_iff hg

theorem nodes_select_sublist (g : Graph) (query : Query) :
    (g.select query).nodes.Sublist g.nodes := List.filter_sublist

/-! ## Look-ups -/

/-- A node that was looked up is told from the others by its name. -/
theorem map_name_opened (g : Graph) (names : List String) :
    (distinct (names.filterMap g.node?)).map Node.name =
      distinct (names.filter (· ∈ g.names)) := by
  induction names with
  | nil => rfl
  | cons name names ih =>
    -- A name that is no node leaves nothing on either side.
    cases hnode : g.node? name with
    | none =>
      have hname : ¬ decide (name ∈ g.names) = true := by
        rw [decide_eq_true_iff]
        exact node?_eq_none_iff.mp hnode
      rw [List.filterMap_cons_none hnode, List.filter_cons, if_neg hname, ih]
    | some n =>
      have hname : decide (name ∈ g.names) = true := decide_eq_true (mem_names_of_node? hnode)
      rw [List.filterMap_cons_some hnode, List.filter_cons, if_pos hname, distinct, distinct,
        List.map_cons, name_of_node? hnode, ← ih, List.filter_map]
      -- Another node that was looked up has another name.
      have hother : ∀ m ∈ distinct (names.filterMap g.node?),
          decide (m ≠ n) = decide (m.name ≠ name) := by
        intro m hm
        obtain ⟨name', _, hm'⟩ := List.mem_filterMap.mp (mem_distinct.mp hm)
        rw [decide_eq_decide, not_iff_not]
        constructor
        · rintro rfl
          exact name_of_node? hnode
        · rintro rfl
          rw [name_of_node? hm'] at hnode
          exact Option.some_inj.mp (hm'.symm.trans hnode)
      exact congrArg _ (congrArg _ (List.filter_congr hother))

theorem mem_of_mem_opened {n : Node} (h : n ∈ (g.openNodes names).nodes) : n ∈ g.nodes := by
  obtain ⟨_, _, hn⟩ := List.mem_filterMap.mp (mem_distinct.mp h)
  exact List.mem_of_find?_eq_some hn

theorem missing_openNodes : (g.openNodes names).missing = names.filter (· ∉ g.names) := by
  refine List.filter_congr fun name _ => ?_
  rw [Bool.eq_iff_iff, Bool.not_eq_true', hasNode_eq_false_iff, decide_eq_true_iff]

/-! ## Looking up what was found -/

/-- Some nodes of the graph, in its order, are found again under their names. -/
theorem openNodes_map_name (hg : g.WellFormed) {nodes : List Node} (h : nodes.Sublist g.nodes) :
    g.openNodes (nodes.map Node.name) = ⟨nodes, g.edgesAmong (nodes.map Node.name), []⟩ := by
  have hfound : (nodes.map Node.name).filterMap g.node? = nodes := by
    rw [List.filterMap_map]
    exact (List.filterMap_congr fun n hn => node?_of_mem hg (h.subset hn)).trans
      List.filterMap_some
  have hnodup : nodes.Nodup := (List.Nodup.of_map Node.name hg.nodup_names).sublist h
  have hmissing : (nodes.map Node.name).filter (fun name => !g.hasNode name) = [] := by
    refine List.filter_eq_nil_iff.mpr fun name hname => ?_
    obtain ⟨n, hn, rfl⟩ := List.mem_map.mp hname
    rw [hasNode_iff.mpr (List.mem_map_of_mem (h.subset hn))]
    exact Bool.false_ne_true
  rw [openNodes, around, hfound, distinct_eq_self hnodup, hmissing]

/-- **Searches and look-ups answer with induced parts of the graph, and agree.**  A search with a
query that can be read answers with the nodes that the query asks for and all edges between them, in
the order of the graph.  A look-up answers with each node that was asked for once, in the order in
which they were first asked for, with all edges between them in the order of the graph, and with the
names that are no nodes as they were asked for.  The names of the nodes that a search found are
looked up as these nodes, with the same edges, and none is missing. -/
theorem answers_induced (hg : g.WellFormed) :
    (∀ raw query, Query.parse raw = .ok query → ∃ found, g.search raw = .ok found ∧
      found.nodes.Sublist g.nodes ∧ (∀ n, n ∈ found.nodes ↔ n ∈ g.nodes ∧ query.Matches g n) ∧
      found.edges = g.edges.filter (fun e => e.source ∈ found.names ∧ e.target ∈ found.names) ∧
      g.openNodes found.names = ⟨found.nodes, found.edges, []⟩) ∧
    ∀ names, (g.openNodes names).nodes.map Node.name = distinct (names.filter (· ∈ g.names)) ∧
      (∀ n ∈ (g.openNodes names).nodes, n ∈ g.nodes) ∧
      (g.openNodes names).missing = names.filter (· ∉ g.names) ∧
      (g.openNodes names).edges = g.edges.filter fun e =>
        e.source ∈ (g.openNodes names).nodes.map Node.name ∧
          e.target ∈ (g.openNodes names).nodes.map Node.name := by
  constructor
  · intro raw query hquery
    have hsublist := nodes_select_sublist g query
    refine ⟨g.select query, search_eq_ok hquery, hsublist, fun n => ?_, edgesAmong_eq g _,
      openNodes_map_name hg hsublist⟩
    rw [mem_select_iff, isMatch_iff hg]
  · intro names
    exact ⟨map_name_opened g names, fun _ => mem_of_mem_opened, missing_openNodes,
      edgesAmong_eq g _⟩

/-- Two who have a tag, know each other twice and know a third one. -/
def tagged : Graph :=
  ⟨[⟨"Ann", "npc", []⟩, ⟨"Hero", "tag", []⟩, ⟨"Ben", "npc", []⟩, ⟨"Cid", "npc", ["A hero once"]⟩],
    [⟨"Ben", "Hero", "tagged_with"⟩, ⟨"Ben", "Ann", "knows"⟩, ⟨"Ann", "Cid", "knows"⟩,
      ⟨"Ann", "Hero", "tagged_with"⟩, ⟨"Ben", "Ann", "knows"⟩]⟩

/-- The two of them, and what is between them. -/
def heroesFound : Graph :=
  ⟨[⟨"Ann", "npc", []⟩, ⟨"Ben", "npc", []⟩], [⟨"Ben", "Ann", "knows"⟩, ⟨"Ben", "Ann", "knows"⟩]⟩

theorem answers_induced_tagged :
    tagged.WellFormed ∧ tagged.search " tag: HERO" = .ok heroesFound ∧
      (∀ n, n ∈ heroesFound.nodes ↔ n ∈ tagged.nodes ∧ (Query.tag "hero").Matches tagged n) ∧
      tagged.openNodes ["Ann", "Ben"] = ⟨heroesFound.nodes, heroesFound.edges, []⟩ ∧
      (tagged.openNodes ["Ben", "Dan", "Ann", "Ben", "Dan"]).nodes.map Node.name = ["Ben", "Ann"] ∧
      (tagged.openNodes ["Ben", "Dan", "Ann", "Ben", "Dan"]).missing = ["Dan", "Dan"] ∧
      (tagged.openNodes ["Ben", "Dan", "Ann", "Ben", "Dan"]).edges = heroesFound.edges := by
  have htagged : tagged.WellFormed := by decide
  have hparse : Query.parse " tag: HERO" = .ok (.tag "hero") := by rfl
  have hsearch : tagged.search " tag: HERO" = .ok heroesFound := by rfl
  obtain ⟨hqueries, hlookups⟩ := answers_induced htagged
  obtain ⟨found, hfound, -, hmatches, -, hagain⟩ := hqueries _ _ hparse
  obtain rfl : heroesFound = found := Except.ok.inj (hsearch.symm.trans hfound)
  obtain ⟨hnames, -, hmissing, hedges⟩ := hlookups ["Ben", "Dan", "Ann", "Ben", "Dan"]
  have hasked : distinct (["Ben", "Dan", "Ann", "Ben", "Dan"].filter (· ∈ tagged.names)) =
      ["Ben", "Ann"] := by decide
  rw [hnames, hasked] at hedges
  exact ⟨htagged, hsearch, hmatches, hagain, hnames.trans hasked, hmissing.trans (by decide),
    hedges.trans (by decide)⟩

end Graph

end GraphKeeper

/-
  What a search finds of what is stored.

  A query is trimmed, and so is the value behind its lead, but what is stored is kept as it came.
  So a kind is found by its own text exactly if it is not empty and has no blank at its ends
  (`Graph.foundByKind_iff`).  A tag with a blank at an end of its name is not the one that its name
  asks for: in lower case it is longer than the trimmed name (`Text.lower_trim_eq_iff`).  Both is
  `Store.foundBy_of_mem`.

  A search for text takes the query to lower case and the stored texts as well, each by itself.  A
  part of a text is found if its sigmas are the same as in the query (`Graph.mem_search_of_part`).
  Of all characters only a capital sigma can have another form there, and then the text may be
  missed.
-/
import GraphKeeper.Graph.Query
import GraphKeeper.Proofs.EntityEffects
import GraphKeeper.Proofs.LetterCase
import GraphKeeper.Proofs.StoreRuns
import GraphKeeper.Proofs.TextParts

namespace GraphKeeper

/-! ## Trimmed names in lower case -/

namespace Text

/-- In lower case, a text and its trimmed form are the same only if trimming does nothing. -/
theorem lower_trim_eq_iff {s : String} : lower s = lower (trim s) ↔ trim s = s := by
  obtain ⟨front, back, hs⟩ := exists_eq_append_trim s
  constructor
  · intro h
    have hchars := String.ofList_inj.mp h
    -- Lower case works character by character, so what was trimmed off would be missing.
    rw [congrArg String.toList hs, String.toList_append, String.toList_append,
      lowerFrom_eq_part_iff] at hchars
    rw [String.toList_eq_nil_iff.mp hchars.1, String.toList_eq_nil_iff.mp hchars.2] at hs
    rw [String.empty_append, String.append_empty] at hs
    exact hs.symm
  · intro h
    rw [h]

end Text

/-! ## Queries -/

namespace Query

open Text

/-- A lead without a value is refused. -/
def needsValue (lead : String) : Failure :=
  .invalidArgument "query" s!"'{lead}' needs a value after the prefix"

/-- Behind a lead the query has been trimmed at its end; the value is trimmed at its front
as well. -/
theorem valueOf_trimEnd (lead s : String) :
    valueOf (lead ++ trimEnd s) (trimEnd s) =
      if isBlank s then .error (needsValue lead) else .ok (trim s) := by
  rw [valueOf, isBlank_trimEnd, trim_trimEnd]
  by_cases hs : isBlank s = true
  · have hnil : trimEnd s = "" :=
      String.ofList_eq_empty_iff.mpr ((dropTrailing_eq_nil_iff _ _).mpr hs)
    rw [if_pos hs, if_pos hs, hnil, String.append_empty, needsValue]
  · rw [if_neg hs, if_neg hs]

/-- Trimming a query for a kind leaves its lead alone. -/
theorem trim_kindLead (s : String) : trim ("type:" ++ s) = "type:" ++ trimEnd s :=
  have h : trim (String.ofList ('t' :: ['y', 'p', 'e'] ++ [':']) ++ s) = _ :=
    trim_append (by decide) (by decide) s
  h

/-- The same holds for a query for a tag. -/
theorem trim_tagLead (s : String) : trim ("tag:" ++ s) = "tag:" ++ trimEnd s :=
  have h : trim (String.ofList ('t' :: ['a', 'g'] ++ [':']) ++ s) = _ :=
    trim_append (by decide) (by decide) s
  h

/-- **A query for a kind** asks for the trimmed value, which must not be blank. -/
theorem parse_kind (s : String) :
    parse ("type:" ++ s) =
      if isBlank s then .error (needsValue "type:") else .ok (.kind (trim s)) := by
  have hne : "type:" ++ trimEnd s ≠ "" := fun h => nomatch (String.append_eq_empty_iff.mp h).1
  have hlead : stripLead? "type:" ("type:" ++ trimEnd s) = some (trimEnd s) :=
    stripLead?_eq_some_iff.mpr rfl
  simp only [parse, trim_kindLead, hlead, if_neg hne, valueOf_trimEnd]
  split <;> rfl

/-- **A query for a tag** asks for it in lower case as well. -/
theorem parse_tag (s : String) :
    parse ("tag:" ++ s) =
      if isBlank s then .error (needsValue "tag:") else .ok (.tag (lower (trim s))) := by
  have hne : "tag:" ++ trimEnd s ≠ "" := fun h => nomatch (String.append_eq_empty_iff.mp h).1
  have hlead : stripLead? "tag:" ("tag:" ++ trimEnd s) = some (trimEnd s) :=
    stripLead?_eq_some_iff.mpr rfl
  -- The other lead is tried first, and does not fit.
  have hother : stripLead? "type:" ("tag:" ++ trimEnd s) = none := by
    rw [stripLead?_eq_none_iff, String.toList_append]
    exact fun h => absurd (List.cons_prefix_cons.mp (List.cons_prefix_cons.mp h).2).1 (by decide)
  simp only [parse, trim_tagLead, hother, hlead, if_neg hne, valueOf_trimEnd]
  split <;> rfl

/-- Any other query asks for its text in lower case. -/
theorem parse_text {raw : String} (hne : trim raw ≠ "")
    (hkind : ¬ "type:".toList <+: (trim raw).toList)
    (htag : ¬ "tag:".toList <+: (trim raw).toList) :
    parse raw = .ok (.text (lower (trim raw))) := by
  simp only [parse, if_neg hne, stripLead?_eq_none_iff.mpr hkind, stripLead?_eq_none_iff.mpr htag]

end Query

/-! ## Matches -/

namespace Graph

open Text

variable {g : Graph} {n m : Node}

/-- An edge leads from the node to the tag. -/
def HasTag (g : Graph) (n m : Node) : Prop :=
  ∃ e ∈ g.edges, e.source = n.name ∧ e.kind = Query.taggedKind ∧ e.target = m.name

/-- A node matches a text that its name or one of its lines has in it, in lower case. -/
theorem isMatch_text_iff {needle : String} :
    Query.isMatch g n (.text needle) = true ↔
      ∃ text ∈ n.name :: n.metadata, needle.toList <:+: (lower text).toList := by
  simp only [Query.isMatch, Bool.or_eq_true, List.any_eq_true, contains_iff,
    List.exists_mem_cons_iff]

/-- A node matches a tag if an edge leads to a tag of that name. -/
theorem isMatch_tag_iff (h : g.WellFormed) {wanted : String} :
    Query.isMatch g n (.tag wanted) = true ↔
      ∃ m ∈ g.nodes, m.kind = Query.tagKind ∧ lower m.name = wanted ∧ g.HasTag n m := by
  simp only [Query.isMatch, Query.leadsToTag, List.any_eq_true, Bool.and_eq_true, beq_iff_eq,
    Option.any_eq_true]
  constructor
  · rintro ⟨e, he, hsource, hkind, m, hm, htag, hname⟩
    exact ⟨m, List.mem_of_find?_eq_some hm, htag, hname, e, he, hsource, hkind,
      (name_of_node? hm).symm⟩
  · rintro ⟨m, hm, htag, hname, e, he, hsource, hkind, htarget⟩
    exact ⟨e, he, hsource, hkind, m, htarget ▸ node?_of_mem h hm, htag, hname⟩

/-- Selected are the nodes that match. -/
theorem mem_select_iff {query : Query} :
    n ∈ (g.select query).nodes ↔ n ∈ g.nodes ∧ query.isMatch g n = true := List.mem_filter

/-- A search is its query and a selection. -/
theorem search_eq_ok {raw : String} {query : Query} (h : Query.parse raw = .ok query) :
    g.search raw = .ok (g.select query) := by
  rw [search, h]
  rfl

/-! ## Searches for text -/

/-- **What a search for text finds.**  It finds the nodes with a name or a line that has the query
in it when both are in lower case.  These are all nodes with a name or a line that has the query in
it as it is, as long as its capital sigmas have the form there that they have in the query; so they
are all such nodes if it has none. -/
theorem mem_search_of_part (g : Graph) {raw : String} (hne : trim raw ≠ "")
    (hkind : ¬ "type:".toList <+: (trim raw).toList)
    (htag : ¬ "tag:".toList <+: (trim raw).toList) :
    ∃ found, g.search raw = .ok found ∧
      (∀ n, n ∈ found.nodes ↔ n ∈ g.nodes ∧ ∃ text ∈ n.name :: n.metadata,
        (lower (trim raw)).toList <:+: (lower text).toList) ∧
      (∀ n ∈ g.nodes, ∀ text ∈ n.name :: n.metadata, ∀ before after,
        text.toList = before ++ ((trim raw).toList ++ after) →
          SameSigmas before.reverse (trim raw).toList after → n ∈ found.nodes) ∧
      (capitalSigma ∉ (trim raw).toList → ∀ n ∈ g.nodes, ∀ text ∈ n.name :: n.metadata,
        (trim raw).toList <:+: text.toList → n ∈ found.nodes) := by
  have hfound : ∀ n, n ∈ (g.select (.text (lower (trim raw)))).nodes ↔ n ∈ g.nodes ∧
      ∃ text ∈ n.name :: n.metadata, (lower (trim raw)).toList <:+: (lower text).toList :=
    fun _ => mem_select_iff.trans (and_congr_right fun _ => isMatch_text_iff)
  refine ⟨_, search_eq_ok (Query.parse_text hne hkind htag), hfound, ?_, ?_⟩
  · intro n hn text htext before after hparts hsigmas
    exact (hfound n).mpr ⟨hn, text, htext, lower_isInfix hparts hsigmas⟩
  · rintro hnone n hn text htext ⟨before, after, hparts⟩
    rw [List.append_assoc] at hparts
    exact (hfound n).mpr ⟨hn, text, htext, lower_isInfix hparts.symm (sameSigmas_of_not_mem hnone)⟩

/-- A name that ends in a sigma, with two more inside. -/
def heroes : Graph := ⟨[⟨"ΟΔΥΣΣΕΥΣ", "hero", ["Home: Ithaca"]⟩], []⟩

/-- The last sigma of the query is the last one of a word here and there. -/
theorem mem_search_heroes :
    trim " ΣΕΥΣ" ≠ "" ∧ ¬ "type:".toList <+: (trim " ΣΕΥΣ").toList ∧
      ¬ "tag:".toList <+: (trim " ΣΕΥΣ").toList ∧
      SameSigmas "ΟΔΥΣ".toList.reverse (trim " ΣΕΥΣ").toList [] ∧
      ∃ found, heroes.search " ΣΕΥΣ" = .ok found ∧
        (∀ n, n ∈ found.nodes ↔ n ∈ heroes.nodes ∧ ∃ text ∈ n.name :: n.metadata,
          (lower (trim " ΣΕΥΣ")).toList <:+: (lower text).toList) ∧
        (∀ n ∈ heroes.nodes, ∀ text ∈ n.name :: n.metadata, ∀ before after,
          text.toList = before ++ ((trim " ΣΕΥΣ").toList ++ after) →
            SameSigmas before.reverse (trim " ΣΕΥΣ").toList after → n ∈ found.nodes) ∧
        (capitalSigma ∉ (trim " ΣΕΥΣ").toList → ∀ n ∈ heroes.nodes,
          ∀ text ∈ n.name :: n.metadata, (trim " ΣΕΥΣ").toList <:+: text.toList →
            n ∈ found.nodes) := by
  have hne : trim " ΣΕΥΣ" ≠ "" := by decide
  have hkind : ¬ "type:".toList <+: (trim " ΣΕΥΣ").toList := by decide
  have htag : ¬ "tag:".toList <+: (trim " ΣΕΥΣ").toList := by decide
  exact ⟨hne, hkind, htag, by decide +kernel, mem_search_of_part heroes hne hkind htag⟩

/-- Searches find the texts that have the query in them as it is. -/
def FindsParts (g : Graph) : Prop :=
  ∀ ⦃raw : String⦄, trim raw ≠ "" → ¬ "type:".toList <+: (trim raw).toList →
    ¬ "tag:".toList <+: (trim raw).toList →
    ∀ n ∈ g.nodes, ∀ text ∈ n.name :: n.metadata, (trim raw).toList <:+: text.toList →
      ∃ found, g.search raw = .ok found ∧ n ∈ found.nodes

/-- **There are parts of names that are not found.**  The last sigma of the query is in its place
one inside a word. -/
theorem not_findsParts_heroes : ¬ FindsParts heroes := by
  intro hfinds
  have hpart : (trim "ΟΔΥΣ").toList <:+: "ΟΔΥΣΣΕΥΣ".toList := by decide
  obtain ⟨found, hfound, hmem⟩ := hfinds (by decide) (by decide) (by decide)
    ⟨"ΟΔΥΣΣΕΥΣ", "hero", ["Home: Ithaca"]⟩ List.mem_cons_self "ΟΔΥΣΣΕΥΣ" List.mem_cons_self hpart
  have hnone : (heroes.search "ΟΔΥΣ").toOption.map Graph.nodes = some [] := by decide +kernel
  rw [hfound] at hnone
  rw [Option.some_inj.mp hnone] at hmem
  exact List.not_mem_nil hmem

/-! ## Searches for a kind and for a tag -/

/-- The text of its kind finds the nodes of the kind of a node. -/
def FoundByKind (g : Graph) (m : Node) : Prop :=
  ∃ found, g.search ("type:" ++ m.kind) = .ok found ∧
    found.nodes = g.nodes.filter (·.kind == m.kind)

/-- The text of its name finds the nodes that have a tag. -/
def FoundByTag (g : Graph) (m : Node) : Prop :=
  ∃ found, g.search ("tag:" ++ m.name) = .ok found ∧ ∀ n ∈ g.nodes, g.HasTag n m → n ∈ found.nodes

/-- The text of a kind finds the nodes of the trimmed kind. -/
theorem search_kind (g : Graph) {kind : String} (h : isBlank kind = false) :
    ∃ found, g.search ("type:" ++ kind) = .ok found ∧
      found.nodes = g.nodes.filter (·.kind == trim kind) := by
  have hparse := Query.parse_kind kind
  rw [h, if_neg Bool.false_ne_true] at hparse
  exact ⟨_, search_eq_ok hparse, rfl⟩

/-- The text of a tag finds the nodes that lead to a tag of the trimmed name, whatever its case. -/
theorem search_tag (hg : g.WellFormed) {name : String} (h : isBlank name = false) :
    ∃ found, g.search ("tag:" ++ name) = .ok found ∧
      ∀ n, n ∈ found.nodes ↔ n ∈ g.nodes ∧ ∃ m ∈ g.nodes, m.kind = Query.tagKind ∧
        lower m.name = lower (trim name) ∧ g.HasTag n m := by
  have hparse := Query.parse_tag name
  rw [h, if_neg Bool.false_ne_true] at hparse
  exact ⟨_, search_eq_ok hparse, fun _ => mem_select_iff.trans (and_congr_right fun _ =>
    isMatch_tag_iff hg)⟩

/-- A blank value is refused. -/
theorem search_of_isBlank (g : Graph) {s : String} (h : isBlank s = true) :
    g.search ("type:" ++ s) = .error (Query.needsValue "type:") ∧
      g.search ("tag:" ++ s) = .error (Query.needsValue "tag:") := by
  rw [search, search, Query.parse_kind, Query.parse_tag, if_pos h, if_pos h]
  exact ⟨rfl, rfl⟩

/-- A kind with a blank at an end is not among the kinds that its text finds. -/
theorem foundByKind_iff (hm : m ∈ g.nodes) :
    g.FoundByKind m ↔ m.kind ≠ "" ∧ trim m.kind = m.kind := by
  cases hblank : isBlank m.kind with
  | true =>
    -- Trimming leaves nothing of a blank kind, so one that it leaves alone is empty.
    refine iff_of_false ?_ fun ⟨hne, htrim⟩ => hne (htrim ▸ (trim_eq_empty_iff m.kind).mpr hblank)
    rintro ⟨found, hfound, -⟩
    nomatch (search_of_isBlank g hblank).1.symm.trans hfound
  | false =>
    obtain ⟨found, hfound, hnodes⟩ := search_kind g hblank
    have hne : m.kind ≠ "" := fun hempty => by
      rw [hempty] at hblank
      exact absurd hblank (by decide)
    constructor
    · -- The node is of its own kind; being found, it is of the trimmed one as well.
      rintro ⟨found', hfound', hown⟩
      cases hfound.symm.trans hfound'
      have hmem : m ∈ g.nodes.filter (·.kind == trim m.kind) := by
        rw [← hnodes, hown]
        exact List.mem_filter.mpr ⟨hm, beq_self_eq_true _⟩
      exact ⟨hne, (eq_of_beq (List.mem_filter.mp hmem).2).symm⟩
    · rintro ⟨-, htrim⟩
      rw [htrim] at hnodes
      exact ⟨found, hfound, hnodes⟩

/-- A tag without blanks at its ends is found by its name. -/
theorem foundByTag_of_trim_eq (hg : g.WellFormed) (hm : m ∈ g.nodes)
    (hkind : m.kind = Query.tagKind) (hne : m.name ≠ "") (htrim : trim m.name = m.name) :
    g.FoundByTag m := by
  have hblank : isBlank m.name = false := Bool.eq_false_iff.mpr fun h =>
    hne (htrim ▸ (trim_eq_empty_iff m.name).mpr h)
  obtain ⟨found, hfound, hnodes⟩ := search_tag hg hblank
  rw [htrim] at hnodes
  exact ⟨found, hfound, fun n hn htag => (hnodes n).mpr ⟨hn, m, hm, hkind, rfl, htag⟩⟩

end Graph

namespace Store

open GraphKeeper.Graph Text

/-- **What is found by its own text.**  A kind is, exactly if it is not empty and has no blank at
its ends; with a blank there, its text finds the nodes of the trimmed kind instead.  A tag is found
by its name under the same condition.  With a blank at an end of the name, its text finds no node on
account of this tag: each node that it finds has another one. -/
theorem foundBy_of_mem {s : Store} (hs : Reachable s) {m : Node} (hm : m ∈ s.graph.nodes) :
    (s.graph.FoundByKind m ↔ m.kind ≠ "" ∧ trim m.kind = m.kind) ∧
      (isBlank m.kind = false → ∃ found, s.graph.search ("type:" ++ m.kind) = .ok found ∧
        found.nodes = s.graph.nodes.filter (·.kind == trim m.kind)) ∧
      (m.kind = Query.tagKind → m.name ≠ "" → trim m.name = m.name → s.graph.FoundByTag m) ∧
      (isBlank m.name = false → trim m.name ≠ m.name →
        ∃ found, s.graph.search ("tag:" ++ m.name) = .ok found ∧
          ∀ n ∈ found.nodes, ∃ m' ∈ s.graph.nodes, m' ≠ m ∧ m'.kind = Query.tagKind ∧
            lower m'.name = lower (trim m.name) ∧ s.graph.HasTag n m') := by
  have hg : s.graph.WellFormed := hs.wellFormed
  refine ⟨foundByKind_iff hm, search_kind s.graph, foundByTag_of_trim_eq hg hm, ?_⟩
  intro hblank htrim
  obtain ⟨found, hfound, hnodes⟩ := search_tag hg hblank
  refine ⟨found, hfound, fun n hn => ?_⟩
  obtain ⟨_, m', hm', hkind, hname, htag⟩ := (hnodes n).mp hn
  refine ⟨m', hm', ?_, hkind, hname, htag⟩
  -- If it were this tag, its name would be the same in lower case as without the blanks.
  rintro rfl
  exact htrim (lower_trim_eq_iff.mp hname)

/-- A run that stores a kind and a tag with blanks at their ends. -/
def spaced : Store :=
  let added := ((Store.mk "m" .empty).change .empty
    (.addNodes [⟨"Ann", " npc", []⟩, ⟨"Merchant ", "tag", []⟩, ⟨"Ben", "npc", []⟩])).2.1
  (added.change .empty (.addEdges [⟨"Ann", "Merchant ", "tagged_with"⟩])).2.1

/-- Both changes are steps of a run, whatever becomes of them. -/
theorem reachable_spaced : Reachable spaced := .changed _ _ (.changed _ _ (.empty "m"))

/-- Nothing is trimmed when it is stored. -/
theorem graph_spaced : spaced.graph =
    ⟨[⟨"Ann", " npc", []⟩, ⟨"Merchant ", "tag", []⟩, ⟨"Ben", "npc", []⟩],
      [⟨"Ann", "Merchant ", "tagged_with"⟩]⟩ := by
  decide +kernel

theorem foundBy_spaced :
    let m : Node := ⟨"Merchant ", "tag", []⟩
    Reachable spaced ∧ m ∈ spaced.graph.nodes ∧
      (spaced.graph.FoundByKind m ↔ m.kind ≠ "" ∧ trim m.kind = m.kind) ∧
      (isBlank m.kind = false → ∃ found, spaced.graph.search ("type:" ++ m.kind) = .ok found ∧
        found.nodes = spaced.graph.nodes.filter (·.kind == trim m.kind)) ∧
      (m.kind = Query.tagKind → m.name ≠ "" → trim m.name = m.name → spaced.graph.FoundByTag m) ∧
      (isBlank m.name = false → trim m.name ≠ m.name →
        ∃ found, spaced.graph.search ("tag:" ++ m.name) = .ok found ∧
          ∀ n ∈ found.nodes, ∃ m' ∈ spaced.graph.nodes, m' ≠ m ∧ m'.kind = Query.tagKind ∧
            lower m'.name = lower (trim m.name) ∧ spaced.graph.HasTag n m') := by
  intro m
  have hm : m ∈ spaced.graph.nodes := by
    rw [graph_spaced]
    decide
  exact ⟨reachable_spaced, hm, foundBy_of_mem reachable_spaced hm⟩

/-- What a file with a blank kind is loaded as. -/
def unnamedKind : Store := ⟨"m", ⟨[⟨"Ann", " ", []⟩], []⟩⟩

/-- A file may hold any kind, since only names and ends are checked when it is read. -/
theorem reachable_unnamedKind : Reachable unnamedKind :=
  .loaded (LineFile.parse_encodeBytes_iff.mpr ⟨rfl, by decide⟩)

/-- Kinds and tags are found by their own texts. -/
def FindsOwnTexts (s : Store) : Prop :=
  ∀ m ∈ s.graph.nodes, s.graph.FoundByKind m ∧ (m.kind = Query.tagKind → s.graph.FoundByTag m)

/-- **There are kinds and tags that are not found by their own texts.**  With a blank at an end they
find nothing, and a blank kind is no query. -/
theorem not_findsOwnTexts_spaced :
    Reachable spaced ∧ ¬ FindsOwnTexts spaced ∧
      (∃ found, spaced.graph.search "type: npc" = .ok found ∧
        found.nodes = [⟨"Ben", "npc", []⟩]) ∧
      (∃ found, spaced.graph.search "tag:Merchant " = .ok found ∧ found.nodes = []) ∧
      Reachable unnamedKind ∧ ¬ FindsOwnTexts unnamedKind := by
  have hkind : ∃ found, spaced.graph.search "type: npc" = .ok found ∧
      found.nodes = [⟨"Ben", "npc", []⟩] := by
    rw [graph_spaced]
    exact ⟨_, rfl, rfl⟩
  have htag : ∃ found, spaced.graph.search "tag:Merchant " = .ok found ∧ found.nodes = [] := by
    rw [graph_spaced]
    exact ⟨_, rfl, by decide +kernel⟩
  refine ⟨reachable_spaced, fun hfinds => ?_, hkind, htag, reachable_unnamedKind, fun hfinds => ?_⟩
  · have hmem : (⟨"Merchant ", "tag", []⟩ : Node) ∈ spaced.graph.nodes := by
      rw [graph_spaced]
      decide
    obtain ⟨found, hfound, hall⟩ := (hfinds _ hmem).2 rfl
    obtain ⟨found', hfound', hnone⟩ := htag
    cases hfound'.symm.trans hfound
    have hann : (⟨"Ann", " npc", []⟩ : Node) ∈ found.nodes := by
      refine hall _ ?_ ⟨⟨"Ann", "Merchant ", "tagged_with"⟩, ?_, rfl, rfl, rfl⟩
      all_goals
        rw [graph_spaced]
        decide
    rw [hnone] at hann
    exact List.not_mem_nil hann
  · have hmem : (⟨"Ann", " ", []⟩ : Node) ∈ unnamedKind.graph.nodes := List.mem_singleton_self _
    have htrim := ((foundByKind_iff hmem).mp (hfinds _ hmem).1).2
    exact absurd htrim (by decide)

end Store

end GraphKeeper

/-
  The outgoing edges of an entity, one kind at a time.

  A relationship change replaces the outgoing edges of one kind and touches no others
  (`outgoing_relate_self`, `outgoing_relate_of_ne`).  So after a run of changes of distinct kinds,
  each kind has the targets that were given for it (`outgoing_foldl_relate`), each of them once, and
  the kinds that were not given have the edges they had (`outgoing_foldl_relate_of_forall_ne`).

  All changes together leave the edges of other kinds in their order, and behind them edges that do
  not depend on those there were (`foldl_relate_eq_append`): if the kinds are distinct, those that
  the changes give one after another (`foldl_relate_nil`).
-/
import GraphKeeper.Graph.Entity
import GraphKeeper.Proofs.Sequences

namespace GraphKeeper.Graph

variable {name kind : String} {changes : List RelationshipChange}

/-- The edges of a kind that start at a node, in order. -/
def outgoing (name kind : String) (edges : List Edge) : List Edge :=
  edges.filter fun e => e.source = name ∧ e.kind = kind

theorem outgoing_append (edges edges' : List Edge) :
    outgoing name kind (edges ++ edges') =
      outgoing name kind edges ++ outgoing name kind edges' :=
  List.filter_append edges edges'

/-- Edges of other kinds are not looked at. -/
theorem outgoing_eq_nil {edges : List Edge} (h : ∀ e ∈ edges, e.source = name → e.kind ≠ kind) :
    outgoing name kind edges = [] := by
  refine List.filter_eq_nil_iff.mpr fun e he => ?_
  rw [decide_eq_true_iff]
  exact fun hboth => h e he hboth.1 hboth.2

theorem outgoing_eq_self {edges : List Edge}
    (h : ∀ e ∈ edges, e.source = name ∧ e.kind = kind) : outgoing name kind edges = edges :=
  List.filter_eq_self.mpr fun e he => decide_eq_true (h e he)

theorem outgoing_distinct (edges : List Edge) :
    outgoing name kind (distinct edges) = distinct (outgoing name kind edges) :=
  filter_distinct _ edges

/-! ## One change -/

/-- **A change gives its kind the targets that it names**, each of them once. -/
theorem outgoing_relate_self (name : String) (edges : List Edge) (c : RelationshipChange) :
    outgoing name c.kind (relate name edges c) =
      (distinct c.targets).map (⟨name, ·, c.kind⟩) := by
  -- The edges that were of this kind are removed, and all that are added are of it.
  have hkept : outgoing name c.kind
      (edges.filter fun e => ¬ (e.source = name ∧ e.kind = c.kind)) = [] := by
    refine outgoing_eq_nil fun e he hsource hkind => ?_
    exact of_decide_eq_true (List.mem_filter.mp he).2 ⟨hsource, hkind⟩
  have hadded : outgoing name c.kind ((distinct c.targets).map (⟨name, ·, c.kind⟩)) =
      (distinct c.targets).map (⟨name, ·, c.kind⟩) := by
    refine outgoing_eq_self fun e he => ?_
    obtain ⟨target, _, rfl⟩ := List.mem_map.mp he
    exact ⟨rfl, rfl⟩
  rw [relate, outgoing_append, hkept, hadded, List.nil_append]

/-- **It leaves every other kind alone.** -/
theorem outgoing_relate_of_ne {c : RelationshipChange} (hne : c.kind ≠ kind) (edges : List Edge) :
    outgoing name kind (relate name edges c) = outgoing name kind edges := by
  have hkept : outgoing name kind
      (edges.filter fun e => ¬ (e.source = name ∧ e.kind = c.kind)) = outgoing name kind edges := by
    rw [outgoing, outgoing, List.filter_filter]
    refine List.filter_congr fun e _ => ?_
    by_cases hkind : e.kind = kind
    · simp [hkind, hne.symm]
    · simp [hkind]
  have hadded : outgoing name kind ((distinct c.targets).map (⟨name, ·, c.kind⟩)) = [] := by
    refine outgoing_eq_nil fun e he _ => ?_
    obtain ⟨target, _, rfl⟩ := List.mem_map.mp he
    exact hne
  rw [relate, outgoing_append, hkept, hadded, List.append_nil]

/-! ## Several changes -/

/-- A kind that is not given keeps its edges. -/
theorem outgoing_foldl_relate_of_forall_ne (hne : ∀ c ∈ changes, c.kind ≠ kind) :
    ∀ edges, outgoing name kind (changes.foldl (relate name) edges) =
      outgoing name kind edges := by
  induction changes with
  | nil => exact fun _ => rfl
  | cons c changes ih =>
    intro edges
    rw [List.foldl_cons, ih fun c hc => hne c (List.mem_cons_of_mem _ hc)]
    exact outgoing_relate_of_ne (hne c List.mem_cons_self) edges

/-- **A kind that is given once has the targets given**, each of them once. -/
theorem outgoing_foldl_relate (hnodup : (changes.map RelationshipChange.kind).Nodup)
    {c : RelationshipChange} (hc : c ∈ changes) :
    ∀ edges, outgoing name c.kind (changes.foldl (relate name) edges) =
      (distinct c.targets).map (⟨name, ·, c.kind⟩) := by
  induction changes with
  | nil => exact absurd hc List.not_mem_nil
  | cons c' changes ih =>
    intro edges
    obtain ⟨hnew, hnodup⟩ := List.nodup_cons.mp hnodup
    rw [List.foldl_cons]
    rcases List.mem_cons.mp hc with rfl | hc
    -- A change of the same kind before it would not matter; one after it would.
    · have hne : ∀ c' ∈ changes, c'.kind ≠ c.kind :=
        fun c' hc' he => hnew (List.mem_map.mpr ⟨c', hc', he⟩)
      rw [outgoing_foldl_relate_of_forall_ne hne, outgoing_relate_self]
    · exact ih hnodup hc _

/-! ## The other edges -/

/-- The edges without those that start at a node and are of one of the kinds. -/
def without (name : String) (kinds : List String) (edges : List Edge) : List Edge :=
  edges.filter fun e => ¬ (e.source = name ∧ e.kind ∈ kinds)

/-- Leaving out one kind and then others is leaving out all of them. -/
theorem without_without (kind : String) (kinds : List String) (edges : List Edge) :
    without name kinds (edges.filter fun e => ¬ (e.source = name ∧ e.kind = kind)) =
      without name (kind :: kinds) edges := by
  rw [without, without, List.filter_filter]
  refine List.filter_congr fun e _ => ?_
  rw [Bool.eq_iff_iff, Bool.and_eq_true, decide_eq_true_iff, decide_eq_true_iff,
    decide_eq_true_iff, List.mem_cons]
  tauto

/-- Edges of other nodes and of other kinds are not left out. -/
theorem without_eq_self {kinds : List String} {edges : List Edge}
    (h : ∀ e ∈ edges, ¬ (e.source = name ∧ e.kind ∈ kinds)) : without name kinds edges = edges :=
  List.filter_eq_self.mpr fun e he => decide_eq_true (h e he)

theorem without_append (kinds : List String) (edges edges' : List Edge) :
    without name kinds (edges ++ edges') =
      without name kinds edges ++ without name kinds edges' :=
  List.filter_append edges edges'

/-- The edges that a change brings in. -/
def given (name : String) (c : RelationshipChange) : List Edge :=
  (distinct c.targets).map fun target => ⟨name, target, c.kind⟩

/-- They start at the entity and are of the kind of the change. -/
theorem mem_given {c : RelationshipChange} {e : Edge} (he : e ∈ given name c) :
    e.source = name ∧ e.kind = c.kind := by
  obtain ⟨target, _, rfl⟩ := List.mem_map.mp he
  exact ⟨rfl, rfl⟩

theorem relate_eq (name : String) (edges : List Edge) (c : RelationshipChange) :
    relate name edges c =
      (edges.filter fun e => ¬ (e.source = name ∧ e.kind = c.kind)) ++ given name c :=
  rfl

/-- **What changes bring in does not depend on the edges there were.**  They leave the edges of
other kinds, and behind them what they would make of no edges at all. -/
theorem foldl_relate_eq_append (name : String) (changes : List RelationshipChange) : ∀ edges,
    changes.foldl (relate name) edges =
      without name (changes.map RelationshipChange.kind) edges ++
        changes.foldl (relate name) [] := by
  induction changes with
  | nil =>
    intro edges
    rw [List.foldl_nil, List.foldl_nil, List.append_nil]
    exact (without_eq_self fun e _ h => List.not_mem_nil h.2).symm
  | cons c changes ih =>
    intro edges
    have hfirst : relate name [] c = given name c := rfl
    -- Of the edges that the first change brings in, later ones of the same kind leave none.
    rw [List.foldl_cons, List.foldl_cons, ih (relate name edges c), ih (relate name [] c), hfirst,
      relate_eq, without_append, without_without, List.append_assoc, List.map_cons]

/-- What changes bring in starts at the entity and is of one of their kinds. -/
theorem mem_foldl_relate_nil {e : Edge} (he : e ∈ changes.foldl (relate name) []) :
    e.source = name ∧ e.kind ∈ changes.map RelationshipChange.kind := by
  induction changes with
  | nil => exact absurd he List.not_mem_nil
  | cons c changes ih =>
    rw [List.foldl_cons, foldl_relate_eq_append] at he
    rcases List.mem_append.mp he with he | he
    · have hgiven : e ∈ given name c := List.mem_of_mem_filter he
      obtain ⟨hsource, hkind⟩ := mem_given hgiven
      exact ⟨hsource, hkind ▸ List.mem_cons_self⟩
    · obtain ⟨hsource, hkind⟩ := ih he
      exact ⟨hsource, List.mem_cons_of_mem _ hkind⟩

/-- **Changes of relationships exchange edges of the entity**: those of the kinds that are changed
go, and edges of these kinds come in at the end. -/
theorem foldl_relate_eq (name : String) (changes : List RelationshipChange) (edges : List Edge) :
    ∃ added, changes.foldl (relate name) edges =
        without name (changes.map RelationshipChange.kind) edges ++ added ∧
      ∀ e ∈ added, e.source = name ∧ e.kind ∈ changes.map RelationshipChange.kind :=
  ⟨_, foldl_relate_eq_append name changes edges, fun _ he => mem_foldl_relate_nil he⟩

/-- Changes of distinct kinds bring in the edges of each of them, in order. -/
theorem foldl_relate_nil (h : (changes.map RelationshipChange.kind).Nodup) :
    changes.foldl (relate name) [] = changes.flatMap (given name) := by
  induction changes with
  | nil => rfl
  | cons c changes ih =>
    obtain ⟨hnew, hnodup⟩ := List.nodup_cons.mp h
    have hfirst : relate name [] c = given name c := rfl
    -- The later changes are of other kinds, so they leave what the first one has brought in.
    have hkept : without name (changes.map RelationshipChange.kind) (given name c) =
        given name c := by
      refine without_eq_self fun e he hboth => hnew ?_
      rw [← (mem_given he).2]
      exact hboth.2
    rw [List.foldl_cons, foldl_relate_eq_append, hfirst, hkept, ih hnodup, List.flatMap_cons]

end GraphKeeper.Graph

/-
  What holds of a store after any run of changes.

  A change has one of four fates (`Fate`): it fails, it leaves the graph as it is, its new graph
  cannot be written, or its new graph is written and taken over.  All that is said of one change
  follows from these four cases, and what is said of a run follows by induction on the run.

  Two kinds of run are looked at.  In the first, nothing is assumed about the disk, which may be
  another one at each change: the graph in memory is well formed all the time
  (`Reachable.wellFormed`).  In the second, nobody else touches the file: it holds the graph in
  memory all the time (`Tracked.load_eq`), and `Tracked.inStep` says what each change does to it.
-/
import GraphKeeper.Proofs.DiskFiles
import GraphKeeper.Proofs.GraphFile
import GraphKeeper.Proofs.Integrity
import GraphKeeper.Store

namespace GraphKeeper.Store

variable {path : String} {s : Store} {d : Disk}

/-! ## One change -/

/-- What may become of a change. -/
inductive Fate (s : Store) (d : Disk) (c : Change) : Prop
  | failed (failure : Failure) (happly : c.apply s.graph = .error failure)
    (h : s.change d c = (.error failure, s, d))
  | same (report : Report) (happly : c.apply s.graph = .ok (report, s.graph))
    (h : s.change d c = (.ok report, s, d))
  | refused (report : Report) (graph : Graph) (fault : DiskFault)
    (happly : c.apply s.graph = .ok (report, graph)) (hne : graph ≠ s.graph)
    (hdisk : d.replace s.path (LineFile.encodeBytes graph) = .error fault)
    (h : s.change d c = (.error (.storage s.path fault), s, d))
  | written (report : Report) (graph : Graph) (d' : Disk)
    (happly : c.apply s.graph = .ok (report, graph)) (hne : graph ≠ s.graph)
    (hdisk : d.replace s.path (LineFile.encodeBytes graph) = .ok d')
    (h : s.change d c = (.ok report, { s with graph }, d'))

/-- **Every change has one of the four fates**, as the graph makes it or not, makes another graph or
not, and the disk takes it or not. -/
theorem change_fate (s : Store) (d : Disk) (c : Change) : Fate s d c := by
  cases happly : c.apply s.graph with
  | error failure =>
    exact .failed failure happly (by simp only [change, happly])
  | ok r =>
    obtain ⟨report, graph⟩ := r
    by_cases hgraph : graph = s.graph
    · subst hgraph
      exact .same report happly (by simp only [change, happly, if_true])
    · cases hdisk : d.replace s.path (LineFile.encodeBytes graph) with
      | error fault =>
        exact .refused report graph fault happly hgraph hdisk
          (by simp only [change, happly, if_neg hgraph, hdisk])
      | ok d' =>
        exact .written report graph d' happly hgraph hdisk
          (by simp only [change, happly, if_neg hgraph, hdisk])

/-- A change that succeeds takes the store to the changed graph. -/
theorem change_eq_ok {s' : Store} {d' : Disk} {c : Change} {report : Report}
    (h : s.change d c = (.ok report, s', d')) :
    c.apply s.graph = .ok (report, s'.graph) := by
  cases s.change_fate d c with
  | failed _ _ hfate => nomatch hfate.symm.trans h
  | same _ happly hfate =>
    cases hfate.symm.trans h
    exact happly
  | refused _ _ _ _ _ _ hfate => nomatch hfate.symm.trans h
  | written _ _ _ happly _ _ hfate =>
    cases hfate.symm.trans h
    exact happly

/-- A change that fails leaves store and disk as they were. -/
theorem change_eq_error {s' : Store} {d' : Disk} {c : Change} {failure : Failure}
    (h : s.change d c = (.error failure, s', d')) :
    s' = s ∧ d' = d := by
  cases s.change_fate d c with
  | failed _ _ hfate =>
    cases hfate.symm.trans h
    exact ⟨rfl, rfl⟩
  | same _ _ hfate => nomatch hfate.symm.trans h
  | refused _ _ _ _ _ _ hfate =>
    cases hfate.symm.trans h
    exact ⟨rfl, rfl⟩
  | written _ _ _ _ _ _ hfate => nomatch hfate.symm.trans h

/-- **A change keeps the graph well formed**, whatever becomes of it. -/
theorem change_wellFormed (hs : s.graph.WellFormed) (d : Disk) (c : Change) :
    (s.change d c).2.1.graph.WellFormed := by
  cases s.change_fate d c with
  | failed _ _ h => rw [h]; exact hs
  | same _ _ h => rw [h]; exact hs
  | refused _ _ _ _ _ _ h => rw [h]; exact hs
  | written _ _ _ happly _ _ h => rw [h]; exact Change.apply_wellFormed hs happly

/-- No change moves the store to another file. -/
theorem change_path (s : Store) (d : Disk) (c : Change) : (s.change d c).2.1.path = s.path := by
  cases s.change_fate d c with
  | failed _ _ h => rw [h]
  | same _ _ h => rw [h]
  | refused _ _ _ _ _ _ h => rw [h]
  | written _ _ _ _ _ _ h => rw [h]

/-- A change leaves the disk alone, or replaces the file. -/
theorem change_disk (s : Store) (d : Disk) (c : Change) :
    (s.change d c).2.2 = d ∨ ∃ content, d.replace s.path content = .ok (s.change d c).2.2 := by
  cases s.change_fate d c with
  | failed _ _ h => rw [h]; exact Or.inl rfl
  | same _ _ h => rw [h]; exact Or.inl rfl
  | refused _ _ _ _ _ _ h => rw [h]; exact Or.inl rfl
  | written _ _ _ _ _ hdisk h => rw [h]; exact Or.inr ⟨_, hdisk⟩

/-- A change that the graph does not make leaves store and disk alone. -/
theorem change_of_error {c : Change} {failure : Failure} (h : c.apply s.graph = .error failure) :
    s.change d c = (.error failure, s, d) := by
  rw [change, h]

/-- Where the disk takes files, a change that makes another graph is written and taken over. -/
theorem change_of_apply {c : Change} {report : Report} {graph : Graph}
    (happly : c.apply s.graph = .ok (report, graph)) (hne : graph ≠ s.graph)
    (h : d.Writable s.path) :
    ∃ d', s.change d c = (.ok report, { s with graph }, d') ∧
      d'.read s.path = .ok (LineFile.encodeBytes graph) := by
  obtain ⟨d', hdisk⟩ := h (LineFile.encodeBytes graph)
  refine ⟨d', ?_, Disk.read_of_replace hdisk⟩
  simp only [change, happly, if_neg hne, hdisk]

/-- A change that succeeds with another graph has written it, and the next one can be
written too. -/
theorem writable_of_change {s' : Store} {d' : Disk} {c : Change} {report : Report}
    (h : s.change d c = (.ok report, s', d')) (hne : s'.graph ≠ s.graph) : d'.Writable s.path := by
  cases s.change_fate d c with
  | failed _ _ hfate => nomatch hfate.symm.trans h
  | same _ _ hfate =>
    cases hfate.symm.trans h
    exact absurd rfl hne
  | refused _ _ _ _ _ _ hfate => nomatch hfate.symm.trans h
  | written _ _ _ _ _ hdisk hfate =>
    cases hfate.symm.trans h
    exact Disk.writable_of_replace hdisk

/-- An update that succeeds is one of the graph. -/
theorem updateEntity_of_change {s' : Store} {d' : Disk} {u : EntityUpdate} {report : Report}
    (h : s.change d (.entity (.update u)) = (.ok report, s', d')) :
    ∃ node, s.graph.updateEntity u = .ok (node, s'.graph) ∧
      report = .updated node (u.metadata.length + u.relationships.length) := by
  have happly : EntityChange.apply s.graph (.update u) = .ok (report, s'.graph) := change_eq_ok h
  rw [EntityChange.apply] at happly
  exact Report.ofEntity_eq_ok happly

/-- An update that leaves the graph as it is writes nothing. -/
theorem change_of_updateEntity_same {u : EntityUpdate} {node : Node}
    (h : s.graph.updateEntity u = .ok (node, s.graph)) (d : Disk) :
    s.change d (.entity (.update u)) =
      (.ok (.updated node (u.metadata.length + u.relationships.length)), s, d) := by
  rw [change, Change.apply, EntityChange.apply, h]
  exact if_pos rfl

/-! ## Runs on any disk -/

/-- The stores that a run comes to, from no file or from a file that could be read.  The disk may
be another one at each change, and may refuse to be written. -/
inductive Reachable : Store → Prop
  | empty (path : String) : Reachable ⟨path, .empty⟩
  | loaded {path : String} {content : Bytes} {graph : Graph}
    (h : LineFile.parse content = .ok graph) : Reachable ⟨path, graph⟩
  | changed {s : Store} (d : Disk) (c : Change) (h : Reachable s) : Reachable (s.change d c).2.1

/-- What is loaded is an empty graph, for want of a file, or the graph of a file. -/
theorem load_eq_ok {g : Graph} (h : load d path = .ok g) :
    (d.read path = .error .missing ∧ g = .empty) ∨
      ∃ content, d.read path = .ok content ∧ LineFile.parse content = .ok g := by
  unfold load at h
  split at h
  · rename_i content hread
    exact Or.inr ⟨content, hread, mapError_eq_ok_iff.mp h⟩
  · rename_i hread
    cases h
    exact Or.inl ⟨hread, rfl⟩
  · nomatch h

/-- What is loaded is well formed. -/
theorem load_wellFormed {g : Graph} (h : load d path = .ok g) : g.WellFormed := by
  rcases load_eq_ok h with ⟨_, rfl⟩ | ⟨_, _, hparse⟩
  · exact Graph.wellFormed_empty
  · exact LineFile.wellFormed_of_parse hparse

/-- A store that is opened holds what the file does. -/
theorem openAt_eq_ok {d' : Disk} (h : openAt d path = (.ok s, d')) :
    s.path = path ∧ load d' path = .ok s.graph := by
  unfold openAt at h
  split at h
  · nomatch h
  · rename_i made hmade
    cases hload : load made path with
    | error failure =>
      rw [hload] at h
      nomatch h
    | ok graph =>
      rw [hload] at h
      cases h
      exact ⟨rfl, hload⟩

/-- **Every graph that a run comes to is well formed.** -/
theorem Reachable.wellFormed (h : Reachable s) : s.graph.WellFormed := by
  induction h with
  | empty path => exact Graph.wellFormed_empty
  | loaded h => exact LineFile.wellFormed_of_parse h
  | changed d c _ ih => exact change_wellFormed ih d c

/-- **In every graph that a run comes to, names are distinct and edges lead from nodes of the graph
to nodes of the graph.** -/
theorem Reachable.integrity (h : Reachable s) :
    s.graph.names.Nodup ∧
      ∀ e ∈ s.graph.edges, e.source ∈ s.graph.names ∧ e.target ∈ s.graph.names :=
  ⟨h.wellFormed.nodup_names, fun _ he => h.wellFormed.ends_mem he⟩

/-- A run with a node that is given twice, an edge, and a disk that is full at the end. -/
def twoCalls : Store :=
  let s : Store := ((Store.mk "m" .empty).change .empty
    (.addNodes [⟨"a", "npc", []⟩, ⟨"a", "npc", []⟩])).2.1
  let s := (s.change .empty (.addEdges [⟨"a", "a", "knows"⟩, ⟨"a", "b", "knows"⟩])).2.1
  (s.change ⟨[], some .notText⟩ (.deleteNodes ["a"])).2.1

theorem integrity_twoCalls :
    twoCalls.graph = ⟨[⟨"a", "npc", []⟩], [⟨"a", "a", "knows"⟩]⟩ ∧ twoCalls.graph.names.Nodup ∧
      ∀ e ∈ twoCalls.graph.edges,
        e.source ∈ twoCalls.graph.names ∧ e.target ∈ twoCalls.graph.names :=
  have hreached : Reachable twoCalls :=
    Reachable.changed _ _ (Reachable.changed _ _ (Reachable.changed _ _ (.empty "m")))
  ⟨by decide +kernel, hreached.integrity⟩

/-! ## Runs in which nobody else touches the file -/

/-- A store that has been opened, and the disk.  Between two changes others may do as they like
with the disk, may fill it and make room again, as long as the file stays as it is. -/
inductive Tracked (path : String) : Store → Disk → Prop
  | opened {d d' : Disk} {s : Store} (h : openAt d path = (.ok s, d')) : Tracked path s d'
  | others {s : Store} {d d' : Disk} (h : Tracked path s d) (hread : d'.read path = d.read path) :
    Tracked path s d'
  | changed {s : Store} {d : Disk} (c : Change) (h : Tracked path s d) :
    Tracked path (s.change d c).2.1 (s.change d c).2.2

/-- What a change does to memory and file, from the store `s` and the disk `d` to the store `s'`
and the disk `d'`. -/
structure InStep (path : String) (c : Change) (s : Store) (d : Disk)
    (result : Except Failure Report) (s' : Store) (d' : Disk) : Prop where
  /-- Loading the file gives the graph in memory. -/
  loads : load d' path = .ok s'.graph
  /-- The file is another one exactly if the change succeeds and makes another graph. -/
  replaced_iff : d'.read path ≠ d.read path ↔
    (∃ report, result = .ok report) ∧ s'.graph ≠ s.graph
  /-- Then the file is the written graph. -/
  content : s'.graph ≠ s.graph → d.replace path (LineFile.encodeBytes s'.graph) = .ok d' ∧
    d'.read path = .ok (LineFile.encodeBytes s'.graph)
  /-- Otherwise nothing is written. -/
  untouched : s'.graph = s.graph → d' = d
  /-- A failure leaves memory and disk as they were. -/
  failed : ∀ failure, result = .error failure → s' = s ∧ d' = d
  /-- A graph that cannot be written is a failure of its own. -/
  refused : ∀ report graph fault, c.apply s.graph = .ok (report, graph) → graph ≠ s.graph →
    d.replace path (LineFile.encodeBytes graph) = .error fault →
    result = .error (.storage path fault) ∧ s' = s ∧ d' = d

theorem load_congr {d' : Disk} (h : d'.read path = d.read path) : load d' path = load d path := by
  rw [load, load, h]

/-- A written graph is loaded again. -/
theorem load_of_replace {d' : Disk} {g : Graph} (hg : g.WellFormed)
    (h : d.replace path (LineFile.encodeBytes g) = .ok d') : load d' path = .ok g := by
  rw [load, Disk.read_of_replace h]
  exact mapError_eq_ok_iff.mpr (LineFile.parse_encodeBytes_iff.mpr ⟨rfl, hg⟩)

/-- **After a change the file holds the graph in memory**, if it did before. -/
theorem load_change (hpath : s.path = path) (hload : load d path = .ok s.graph) (c : Change) :
    load (s.change d c).2.2 path = .ok (s.change d c).2.1.graph := by
  -- In three of the four cases neither memory nor file is touched.
  cases s.change_fate d c with
  | failed _ _ h => rw [h]; exact hload
  | same _ _ h => rw [h]; exact hload
  | refused _ _ _ _ _ _ h => rw [h]; exact hload
  | written _ _ _ happly _ hdisk h =>
    rw [h]
    rw [hpath] at hdisk
    exact load_of_replace (Change.apply_wellFormed (load_wellFormed hload) happly) hdisk

/-- **The file holds the graph in memory** all along a run. -/
theorem Tracked.load_eq (h : Tracked path s d) : s.path = path ∧ load d path = .ok s.graph := by
  -- The file holds the graph when the store is opened, others leave it alone, and a change
  -- preserves it.
  induction h with
  | opened h => exact openAt_eq_ok h
  | others _ hread ih => exact ⟨ih.1, (load_congr hread).trans ih.2⟩
  | changed c _ ih => exact ⟨(change_path _ _ c).trans ih.1, load_change ih.1 ih.2 c⟩

/-- Where nothing is written, only the wording of the result is left to be said. -/
theorem InStep.unwritten {c : Change} {result : Except Failure Report}
    (hload : load d path = .ok s.graph)
    (hrefused : ∀ report graph fault, c.apply s.graph = .ok (report, graph) → graph ≠ s.graph →
      d.replace path (LineFile.encodeBytes graph) = .error fault →
      result = .error (.storage path fault)) : InStep path c s d result s d where
  loads := hload
  replaced_iff := ⟨fun hne => absurd rfl hne, fun hne => absurd rfl hne.2⟩
  content := fun hne => absurd rfl hne
  untouched := fun _ => rfl
  failed := fun _ _ => ⟨rfl, rfl⟩
  refused := fun report graph fault hok hne hfault =>
    ⟨hrefused report graph fault hok hne hfault, rfl, rfl⟩

/-- Where the new graph is written, it is what the file holds. -/
theorem InStep.written {c : Change} {report : Report} {graph : Graph} {d' : Disk}
    (hload : load d s.path = .ok s.graph) (happly : c.apply s.graph = .ok (report, graph))
    (hne : graph ≠ s.graph) (hdisk : d.replace s.path (LineFile.encodeBytes graph) = .ok d') :
    InStep s.path c s d (.ok report) { s with graph } d' := by
  have hwell := Change.apply_wellFormed (load_wellFormed hload) happly
  have hloads := load_of_replace hwell hdisk
  -- The same file would still be loaded as the graph from before.
  have hread : d'.read s.path ≠ d.read s.path := by
    intro hread
    have hsame := (load_congr hread).symm.trans hloads
    exact hne (Except.ok.inj (hload.symm.trans hsame)).symm
  exact {
    loads := hloads
    replaced_iff := ⟨fun _ => ⟨⟨report, rfl⟩, hne⟩, fun _ => hread⟩
    content := fun _ => ⟨hdisk, Disk.read_of_replace hdisk⟩
    untouched := fun hsame => absurd hsame hne
    failed := fun _ herror => nomatch herror
    refused := fun _ _ _ hok _ hfault => by
      cases happly.symm.trans hok
      nomatch hdisk.symm.trans hfault }

/-- **File and memory do not drift apart.**  Whatever a change in a run comes to, the file can be
loaded and holds the graph in memory; it is written only for a change that succeeds with another
graph, and a change that fails, be it because the graph cannot be written, leaves both alone. -/
theorem Tracked.inStep (h : Tracked path s d) (c : Change) :
    InStep path c s d (s.change d c).1 (s.change d c).2.1 (s.change d c).2.2 := by
  obtain ⟨rfl, hload⟩ := h.load_eq
  cases s.change_fate d c with
  | failed failure happly h =>
    rw [h]
    exact .unwritten hload fun _ _ _ hok => nomatch happly.symm.trans hok
  | same report happly h =>
    rw [h]
    refine .unwritten hload fun _ graph _ hok hne => ?_
    cases happly.symm.trans hok
    exact absurd rfl hne
  | refused report graph fault happly hne hdisk h =>
    rw [h]
    refine .unwritten hload fun _ _ _ hok _ hfault => ?_
    cases happly.symm.trans hok
    cases hdisk.symm.trans hfault
    rfl
  | written report graph d' happly hne hdisk h =>
    rw [h]
    exact .written hload happly hne hdisk

/-- A disk with the file of one node, and the same disk when it is full. -/
def oneNode : Disk := (change ⟨"m", .empty⟩ .empty (.addNodes [⟨"a", "npc", ["x: \"y\""]⟩])).2.2

def oneNodeFull : Disk := { oneNode with fault := some (.other "No space left on device") }

/-- A file that was written and is loaded again, and a change for which there is no room. -/
theorem inStep_oneNodeFull :
    let s : Store := ⟨"m", ⟨[⟨"a", "npc", ["x: \"y\""]⟩], []⟩⟩
    load oneNode "m" = .ok s.graph ∧
      (s.change oneNodeFull (.deleteNodes ["a"])).2 = (s, oneNodeFull) ∧
      InStep "m" (.deleteNodes ["a"]) s oneNodeFull (s.change oneNodeFull (.deleteNodes ["a"])).1
        (s.change oneNodeFull (.deleteNodes ["a"])).2.1
        (s.change oneNodeFull (.deleteNodes ["a"])).2.2 := by
  have hopened : Tracked "m" ⟨"m", .empty⟩ .empty := .opened (d := .empty) rfl
  have hadded := hopened.changed (.addNodes [⟨"a", "npc", ["x: \"y\""]⟩])
  have hfull : Tracked "m" ⟨"m", ⟨[⟨"a", "npc", ["x: \"y\""]⟩], []⟩⟩ oneNodeFull :=
    hadded.others rfl
  exact ⟨hadded.load_eq.2, by decide +kernel, hfull.inStep (.deleteNodes ["a"])⟩

end GraphKeeper.Store

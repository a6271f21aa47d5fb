/-
  The items of a batch do not get in each other's way.

  A batch makes its changes one after another on one graph, so later items see what earlier ones
  did.  For all eight batches this comes to the same as making each change in a batch of its own,
  and to the same as leaving out the items that fail (`batches_independent`).  Each place of the
  request is accounted for once: by a report, in the order of the items, or by a failure.

  A batch is looked at as a run (`BatchRun`) that passes its items from first to last and has one
  case for an item that succeeds and one for an item that fails.  Every statement about batches is
  one induction on the run.  What carries all of them is that the places of the failures in the
  rest of a run lie behind the item at hand (`BatchRun.le_of_mem_failedAt`), so the rest does not
  change what becomes of it.

  Nothing takes back what an item wrote before it failed; the next item meets what it left.  That
  items which fail leave no trace therefore rests on the changes themselves: each of the eight
  checks before it writes (`Edit.ChecksFirst`).  The statements that need it say so
  (`BatchRun.kept`, `BatchRun.failed`); how items, reports and failures are ordered does not depend
  on it.

  Whoever wants to know what becomes of one item of a batch puts the items in front of it and those
  behind it aside: the item meets the graph that the batch of the items in front leaves, and what it
  makes of this graph is told at its place (`batch_item_of_ok`, `batch_item_of_error`).
-/
import GraphKeeper.Proofs.GraphChanges
import Mathlib.Data.List.Perm.Basic

namespace GraphKeeper

variable {ι α : Type}

/-! ## What a batch is compared with -/

/-- The places of the items that failed. -/
def Outcome.failedAt (o : Outcome α) : List Nat := o.failed.map ItemFailure.index

/-- The items that did not fail, with their places, when the first item stands at `index`. -/
def Outcome.keptFrom (o : Outcome α) (index : Nat) (items : List ι) : List (ι × Nat) :=
  (items.zipIdx index).filter fun p => p.2 ∉ o.failedAt

/-- The items that did not fail, with their places. -/
def Outcome.kept (o : Outcome α) (items : List ι) : List (ι × Nat) := o.keptFrom 0 items

/-- The report of the item at a place, unless it failed.  There is none for an item in front of it
that failed. -/
def Outcome.reportAt? (o : Outcome α) (place : Nat) : Option α :=
  if place ∈ o.failedAt then none
  else o.succeeded[place - o.failedAt.countP (· < place)]?

namespace Graph

/-- Makes each change in a batch of its own: the reports in order, and the last graph. -/
def oneByOne (op : Graph → List ι → Outcome α × Graph) : Graph → List ι → List α × Graph
  | g, [] => ([], g)
  | g, item :: items =>
    let (outcome, g') := op g [item]
    let (reports, last) := oneByOne op g' items
    (outcome.succeeded ++ reports, last)

/-- The graph that the item at a place meets. -/
def metAt (op : Graph → List ι → Outcome α × Graph) (g : Graph) (items : List ι) (place : Nat) :
    Graph :=
  (oneByOne op g (items.take place)).2

/-- How a batch comes apart into its items. -/
structure Independent (op : Graph → List ι → Outcome α × Graph) (g : Graph) (items : List ι) :
    Prop where
  /-- The batch does what its items do one by one. -/
  oneByOne : oneByOne op g items = ((op g items).1.succeeded, (op g items).2)
  /-- It does what the items that succeed do without the others, and then nothing fails. -/
  withoutFailed : op g (((op g items).1.kept items).map Prod.fst) =
    (⟨(op g items).1.succeeded, []⟩, (op g items).2)
  /-- Each place is either that of an item that succeeded or that of a failure, and once. -/
  places : (((op g items).1.kept items).map Prod.snd ++ (op g items).1.failedAt).Perm
    (List.range items.length)
  /-- Failures are told in the order of the items. -/
  increasing : (op g items).1.failedAt.Pairwise (· < ·)
  /-- Reports are told in the order of the items: each is what its item reports by itself. -/
  reported : List.Forall₂ (fun p report => (op (metAt op g items p.2) [p.1]).1 = ⟨[report], []⟩)
    ((op g items).1.kept items) (op g items).1.succeeded
  /-- A failure is that of the item at its place, which leaves the graph as it met it. -/
  failed : ∀ f ∈ (op g items).1.failed, ∃ item, items[f.index]? = some item ∧
    op (metAt op g items f.index) [item] =
      (⟨[], [{ f with index := 0 }]⟩, metAt op g items f.index)
  total : (op g items).1.total = items.length

/-! ## Batches as runs -/

variable {step : ι → Edit Graph α} {label : ι → String}

/-- A run over items from the one at `index` on: its outcome, and the last graph. -/
inductive BatchRun (step : ι → Edit Graph α) (label : ι → String) :
    Nat → Graph → List ι → Outcome α → Graph → Prop
  | done {index : Nat} {g : Graph} : BatchRun step label index g [] ⟨[], []⟩ g
  | succeeds {index : Nat} {g met last : Graph} {item : ι} {items : List ι} {report : α}
    {o : Outcome α} (h : (step item).inPlace g = (.ok report, met))
    (rest : BatchRun step label (index + 1) met items o last) :
    BatchRun step label index g (item :: items) { o with succeeded := report :: o.succeeded } last
  /-- The items behind one that fails meet whatever it left. -/
  | fails {index : Nat} {g met last : Graph} {item : ι} {items : List ι} {failure : Failure}
    {o : Outcome α} (h : (step item).inPlace g = (.error failure, met))
    (rest : BatchRun step label (index + 1) met items o last) :
    BatchRun step label index g (item :: items)
      { o with failed := ⟨index, label item, failure⟩ :: o.failed } last

/-- Each batch makes a run. -/
theorem batchRun_batchFrom (items : List ι) : ∀ (index : Nat) (g : Graph),
    BatchRun step label index g items (batchFrom step label index items g).1
      (batchFrom step label index items g).2 := by
  induction items with
  | nil => intro index g; exact .done
  | cons item items ih =>
    intro index g
    rw [batchFrom]
    -- A run keeps what the item left, whether it succeeded or not.
    rcases h : (step item).inPlace g with ⟨failure | report, met⟩
    · exact .fails h (ih (index + 1) met)
    · exact .succeeds h (ih (index + 1) met)

/-- An item that succeeds, in a batch of its own. -/
theorem batch_singleton_of_ok {g met : Graph} {item : ι} {report : α}
    (h : (step item).inPlace g = (.ok report, met)) :
    batch step label [item] g = (⟨[report], []⟩, met) := by
  rw [batch, batchFrom, h]
  rfl

/-- An item that fails, in a batch of its own. -/
theorem batch_singleton_of_error {g met : Graph} {item : ι} {failure : Failure}
    (h : (step item).inPlace g = (.error failure, met)) :
    batch step label [item] g = (⟨[], [⟨0, label item, failure⟩]⟩, met) := by
  rw [batch, batchFrom, h]
  rfl

namespace BatchRun

variable {index : Nat} {g last : Graph} {items : List ι} {o : Outcome α}

/-- A run is what a batch does. -/
theorem batchFrom_eq (h : BatchRun step label index g items o last) :
    batchFrom step label index items g = (o, last) := by
  induction h with
  | done => rfl
  | succeeds h _ ih => rw [batchFrom, h]; simp only [ih]; rfl
  | fails h _ ih => rw [batchFrom, h]; simp only [ih]; rfl

/-- One batch after another for each item comes to the same, since each item meets what the one in
front of it left. -/
theorem oneByOne_eq (h : BatchRun step label index g items o last) :
    oneByOne (fun g items => batch step label items g) g items = (o.succeeded, last) := by
  induction h with
  | done => rfl
  | succeeds h _ ih => simp only [oneByOne, batch_singleton_of_ok h, ih]; rfl
  | fails h _ ih => simp only [oneByOne, batch_singleton_of_error h, ih]; rfl

/-! ## Places -/

/-- The failures of a run lie behind its first place. -/
theorem le_of_mem_failedAt (h : BatchRun step label index g items o last) :
    ∀ i ∈ o.failedAt, index ≤ i := by
  induction h with
  | done => intro i hi; exact absurd hi List.not_mem_nil
  | succeeds _ _ ih => intro i hi; exact Nat.le_of_succ_le (ih i hi)
  | fails _ _ ih =>
    intro i hi
    rcases List.mem_cons.mp hi with rfl | hi
    · exact Nat.le_refl _
    · exact Nat.le_of_succ_le (ih i hi)

/-- Failures stand in the order of their places. -/
theorem pairwise_failedAt (h : BatchRun step label index g items o last) :
    o.failedAt.Pairwise (· < ·) := by
  induction h with
  | done => exact List.Pairwise.nil
  | succeeds _ _ ih => exact ih
  | fails _ rest ih => exact List.pairwise_cons.mpr ⟨fun i hi => rest.le_of_mem_failedAt i hi, ih⟩

/-- Each item is counted once. -/
theorem total_eq (h : BatchRun step label index g items o last) : o.total = items.length := by
  induction h with
  | done => rfl
  | succeeds _ _ ih =>
    rw [List.length_cons, ← ih]
    exact Nat.succ_add _ _
  | fails _ _ ih =>
    rw [List.length_cons, ← ih]
    rfl

end BatchRun

/-! ## The items that are kept -/

section kept

variable {index : Nat} {g last : Graph} {item : ι} {items : List ι} {o : Outcome α}

namespace BatchRun

/-- An item that succeeds is kept, since all failures lie behind it. -/
theorem keptFrom_succeeds {report : α} (rest : BatchRun step label (index + 1) g items o last) :
    Outcome.keptFrom { o with succeeded := report :: o.succeeded } index (item :: items) =
      (item, index) :: o.keptFrom (index + 1) items := by
  have hself : decide (index ∉ Outcome.failedAt { o with succeeded := report :: o.succeeded }) :=
    decide_eq_true fun hmem => Nat.not_succ_le_self index (rest.le_of_mem_failedAt index hmem)
  rw [Outcome.keptFrom, List.zipIdx_cons, List.filter_cons, if_pos hself]
  rfl

/-- An item that fails is not kept, and its failure does not count for the items behind it. -/
theorem keptFrom_fails {f : ItemFailure} (hf : f.index = index) :
    Outcome.keptFrom { o with failed := f :: o.failed } index (item :: items) =
      o.keptFrom (index + 1) items := by
  have hmem : ∀ i, i ∈ Outcome.failedAt { o with failed := f :: o.failed } ↔
      i = index ∨ i ∈ o.failedAt := by
    intro i
    rw [← hf]
    exact List.mem_cons
  have hself : ¬ decide (index ∉ Outcome.failedAt { o with failed := f :: o.failed }) = true := by
    rw [decide_eq_true_iff, not_not, hmem]
    exact Or.inl rfl
  rw [Outcome.keptFrom, List.zipIdx_cons, List.filter_cons, if_neg hself]
  refine List.filter_congr fun p hp => ?_
  -- All other places are behind this one.
  have hbehind : p.2 ≠ index := by
    have := List.le_snd_of_mem_zipIdx hp
    omega
  rw [decide_eq_decide, hmem, or_iff_right hbehind]

/-- The places of kept items and those of failures are the places of the run, each once. -/
theorem places_perm (h : BatchRun step label index g items o last) :
    ((o.keptFrom index items).map Prod.snd ++ o.failedAt).Perm
      (List.range' index items.length) := by
  induction h with
  | done => exact List.Perm.refl _
  | @succeeds index _ _ _ _ _ _ _ _ rest ih =>
    rw [rest.keptFrom_succeeds, List.map_cons, List.cons_append]
    exact ih.cons index
  | @fails index _ _ _ _ _ _ _ _ _ ih =>
    rw [keptFrom_fails rfl]
    exact List.perm_middle.trans (ih.cons index)

/-- The kept items by themselves make the same run, whatever places they then have. -/
theorem kept (hstep : ∀ item, (step item).ChecksFirst)
    (h : BatchRun step label index g items o last) : ∀ place,
    BatchRun step label place g ((o.keptFrom index items).map Prod.fst) ⟨o.succeeded, []⟩ last := by
  induction h with
  | done => intro place; exact .done
  | @succeeds _ _ _ _ _ _ _ o h rest ih =>
    intro place
    rw [rest.keptFrom_succeeds]
    exact .succeeds (o := ⟨o.succeeded, []⟩) h (ih (place + 1))
  | fails h _ ih =>
    intro place
    -- The item wrote nothing, so the next one meets the same graph without it.
    rw [keptFrom_fails rfl, ← hstep _ _ _ _ h]
    exact ih place

end BatchRun

end kept

/-! ## Each item by itself -/

section item

variable {index : Nat} {g last : Graph} {item : ι} {items : List ι} {o : Outcome α}

/-- Behind the first item, items meet what they would meet without it, in the graph after it. -/
theorem metAt_cons {op : Graph → List ι → Outcome α × Graph} {place : Nat} (h : index < place) :
    metAt op g (item :: items) (place - index) =
      metAt op (op g [item]).2 items (place - (index + 1)) := by
  obtain ⟨k, rfl⟩ := Nat.exists_eq_add_of_lt h
  rw [show index + k + 1 - index = k + 1 by omega, show index + k + 1 - (index + 1) = k by omega]
  rfl

namespace BatchRun

/-- Kept items and reports belong together one by one. -/
theorem reported (h : BatchRun step label index g items o last) :
    List.Forall₂ (fun p report => index ≤ p.2 ∧
      (batch step label [p.1] (metAt (fun g items => batch step label items g) g items
        (p.2 - index))).1 = ⟨[report], []⟩) (o.keptFrom index items) o.succeeded := by
  induction h with
  | done => exact List.Forall₂.nil
  | @succeeds index _ _ _ _ _ _ _ h rest ih =>
    rw [rest.keptFrom_succeeds]
    refine List.Forall₂.cons ⟨Nat.le_refl _, ?_⟩ (ih.imp fun p report hp => ⟨by omega, ?_⟩)
    · rw [Nat.sub_self]
      exact congrArg Prod.fst (batch_singleton_of_ok h)
    · rw [metAt_cons hp.1, batch_singleton_of_ok h]
      exact hp.2
  | fails h _ ih =>
    rw [keptFrom_fails rfl]
    refine ih.imp fun p report hp => ⟨by omega, ?_⟩
    rw [metAt_cons hp.1, batch_singleton_of_error h]
    exact hp.2

/-- A failure belongs to the item at its place, and leaves the graph as it was. -/
theorem failed (hstep : ∀ item, (step item).ChecksFirst)
    (h : BatchRun step label index g items o last) : ∀ f ∈ o.failed,
    ∃ item, items[f.index - index]? = some item ∧
      batch step label [item] (metAt (fun g items => batch step label items g) g items
        (f.index - index)) = (⟨[], [{ f with index := 0 }]⟩,
          metAt (fun g items => batch step label items g) g items (f.index - index)) := by
  induction h with
  | done => intro f hf; exact absurd hf List.not_mem_nil
  | succeeds h rest ih =>
    intro f hf
    obtain ⟨item, hitem, hbatch⟩ := ih f hf
    have hplace := rest.le_of_mem_failedAt f.index (List.mem_map_of_mem hf)
    rw [metAt_cons hplace, batch_singleton_of_ok h]
    refine ⟨item, ?_, hbatch⟩
    rw [List.getElem?_cons, if_neg (by omega), ← hitem, Nat.sub_sub]
  | fails h rest ih =>
    intro f hf
    rcases List.mem_cons.mp hf with rfl | hf
    · obtain rfl := hstep _ _ _ _ h
      rw [Nat.sub_self]
      exact ⟨_, rfl, batch_singleton_of_error h⟩
    · obtain ⟨item, hitem, hbatch⟩ := ih f hf
      have hplace := rest.le_of_mem_failedAt f.index (List.mem_map_of_mem hf)
      rw [metAt_cons hplace, batch_singleton_of_error h]
      refine ⟨item, ?_, hbatch⟩
      rw [List.getElem?_cons, if_neg (by omega), ← hitem, Nat.sub_sub]

end BatchRun

end item

/-! ## The items in front and those behind -/

section append

variable {index : Nat} {g met last : Graph} {item : ι} {front back items : List ι}
  {a b o : Outcome α}

namespace BatchRun

/-- A run over more items goes on where the run over the first of them ends. -/
theorem append {place : Nat} (ha : BatchRun step label index g front a met)
    (hplace : index + front.length = place) (hb : BatchRun step label place met back b last) :
    BatchRun step label index g (front ++ back)
      ⟨a.succeeded ++ b.succeeded, a.failed ++ b.failed⟩ last := by
  induction ha with
  | done =>
    rw [List.length_nil, Nat.add_zero] at hplace
    exact hplace ▸ hb
  | succeeds h _ ih =>
    rw [List.length_cons, Nat.add_comm _ 1, ← Nat.add_assoc] at hplace
    exact .succeeds h (ih hplace hb)
  | fails h _ ih =>
    rw [List.length_cons, Nat.add_comm _ 1, ← Nat.add_assoc] at hplace
    exact .fails h (ih hplace hb)

/-- The failures of a run lie within its places. -/
theorem lt_of_mem_failedAt (h : BatchRun step label index g items o last) :
    ∀ i ∈ o.failedAt, i < index + items.length := by
  intro i hi
  have hplace := h.places_perm.mem_iff.mp (List.mem_append_right _ hi)
  exact (List.mem_range'_1.mp hplace).2

/-- The reports of the items in front come first, and there is one for each that did not fail. -/
theorem reportAt?_append {g' : Graph} {report : α} (ha : BatchRun step label 0 g front a met)
    (hb : BatchRun step label (front.length + 1) g' back b last) :
    Outcome.reportAt? ⟨a.succeeded ++ report :: b.succeeded, a.failed ++ b.failed⟩ front.length =
      some report := by
  have hfailedAt : Outcome.failedAt ⟨a.succeeded ++ report :: b.succeeded, a.failed ++ b.failed⟩ =
      a.failedAt ++ b.failedAt := List.map_append
  have hfront : ∀ i ∈ a.failedAt, i < front.length := by
    intro i hi
    have hlt := ha.lt_of_mem_failedAt i hi
    omega
  have hbehind : ∀ i ∈ b.failedAt, ¬ i < front.length := by
    intro i hi
    have hle := hb.le_of_mem_failedAt i hi
    omega
  have hself : front.length ∉ a.failedAt ++ b.failedAt := by
    intro hmem
    rcases List.mem_append.mp hmem with hmem | hmem
    · exact Nat.lt_irrefl _ (hfront _ hmem)
    · exact Nat.not_succ_le_self _ (hb.le_of_mem_failedAt _ hmem)
  -- Of all failures those of the front are in front of the item, so what is taken off its place is
  -- their number.
  have hcount : (a.failedAt ++ b.failedAt).countP (· < front.length) = a.failed.length := by
    rw [List.countP_append, List.countP_eq_length.mpr fun i hi => decide_eq_true (hfront i hi),
      List.countP_eq_zero.mpr fun i hi => (decide_eq_true_iff.not).mpr (hbehind i hi)]
    exact List.length_map _
  have htotal : a.succeeded.length + a.failed.length = front.length := ha.total_eq
  have hplace : front.length - a.failed.length = a.succeeded.length := by omega
  rw [Outcome.reportAt?, hfailedAt, if_neg hself, hcount, hplace,
    List.getElem?_append_right (Nat.le_refl _), Nat.sub_self]
  rfl

end BatchRun

/-- Where there is a report there is no failure. -/
theorem not_mem_failedAt_of_reportAt? {place : Nat} {report : α}
    (h : o.reportAt? place = some report) : place ∉ o.failedAt := by
  intro hmem
  rw [Outcome.reportAt?, if_pos hmem] at h
  nomatch h

/-- **An item that succeeds on the graph that it meets** reports so at its place. -/
theorem batch_item_of_ok {r : α × Graph}
    (h : (step item).onCopy (batch step label front g).2 = .ok r) (back : List ι) :
    (batch step label (front ++ item :: back) g).1.reportAt? front.length = some r.1 ∧
      (batch step label (front ++ [item]) g).2 = r.2 := by
  -- The run over all items is that over the front, then the item, then those behind it.
  have hrun := Edit.onCopy_eq_ok_iff.mp h
  have hfront : BatchRun step label 0 g front (batch step label front g).1
      (batch step label front g).2 := batchRun_batchFrom front 0 g
  have hbehind : BatchRun step label (front.length + 1) r.2 back _ _ :=
    batchRun_batchFrom back (front.length + 1) r.2
  have hall := hfront.append (Nat.zero_add _) (.succeeds hrun hbehind)
  have hitem := hfront.append (Nat.zero_add _) (.succeeds hrun .done)
  constructor
  · rw [batch, hall.batchFrom_eq]
    exact hfront.reportAt?_append hbehind
  · rw [batch, hitem.batchFrom_eq]

/-- **An item that fails on the graph that it meets** is told at its place, and leaves
this graph. -/
theorem batch_item_of_error {failure : Failure} (hstep : (step item).ChecksFirst)
    (h : (step item).onCopy (batch step label front g).2 = .error failure) (back : List ι) :
    ⟨front.length, label item, failure⟩ ∈ (batch step label (front ++ item :: back) g).1.failed ∧
      (batch step label (front ++ [item]) g).2 = (batch step label front g).2 := by
  have hrun := hstep.inPlace_of_error h
  have hfront : BatchRun step label 0 g front (batch step label front g).1
      (batch step label front g).2 := batchRun_batchFrom front 0 g
  have hbehind : BatchRun step label (front.length + 1) (batch step label front g).2 back _ _ :=
    batchRun_batchFrom back (front.length + 1) (batch step label front g).2
  have hall := hfront.append (Nat.zero_add _) (.fails hrun hbehind)
  have hitem := hfront.append (Nat.zero_add _) (.fails hrun .done)
  constructor
  · rw [batch, hall.batchFrom_eq]
    exact List.mem_append_right _ List.mem_cons_self
  · rw [batch, hitem.batchFrom_eq]

end append

/-! ## All batches -/

/-- The batch of a change that checks before it writes comes apart into its items. -/
theorem batch_independent {step : ι → Edit Graph α} (hstep : ∀ item, (step item).ChecksFirst)
    (label : ι → String) (g : Graph) (items : List ι) :
    Independent (fun g items => batch step label items g) g items := by
  have hrun : BatchRun step label 0 g items (batch step label items g).1
      (batch step label items g).2 := batchRun_batchFrom items 0 g
  exact {
    oneByOne := hrun.oneByOne_eq
    withoutFailed := (hrun.kept hstep 0).batchFrom_eq
    places := by
      rw [List.range_eq_range']
      exact hrun.places_perm
    increasing := hrun.pairwise_failedAt
    reported := hrun.reported.imp fun _ _ h => h.2
    failed := hrun.failed hstep
    total := hrun.total_eq }

/-- **The items of a batch are independent.**  In each of the eight batches the graph and the
reports are those of the items taken one by one, and those of the items that succeed taken alone;
each place of the request is accounted for once, by a report or by a failure, both in the order of
the items. -/
theorem batches_independent (g : Graph) :
    (∀ nodes, Independent addNodes g nodes) ∧
      (∀ updates, Independent updateNodes g updates) ∧
      (∀ names, Independent deleteNodes g names) ∧
      (∀ edges, Independent addEdges g edges) ∧
      (∀ updates, Independent updateEdges g updates) ∧
      (∀ edges, Independent deleteEdges g edges) ∧
      (∀ additions, Independent addMetadata g additions) ∧
      ∀ deletions, Independent deleteMetadata g deletions :=
  ⟨fun nodes => batch_independent checksFirst_addNode Node.name g nodes,
    fun updates => batch_independent checksFirst_updateNode NodeUpdate.name g updates,
    fun names => batch_independent checksFirst_deleteNode id g names,
    fun edges => batch_independent checksFirst_addEdge Edge.label g edges,
    fun updates => batch_independent checksFirst_updateEdge (·.edge.label) g updates,
    fun edges => batch_independent checksFirst_deleteEdge Edge.label g edges,
    fun additions => batch_independent checksFirst_addLines NodeLines.name g additions,
    fun deletions => batch_independent checksFirst_deleteLines NodeLines.name g deletions⟩

/-- The name of the second node is taken by then; the third is added all the same. -/
example :
    let nodes : List Node := [⟨"a", "npc", []⟩, ⟨"a", "npc", []⟩, ⟨"b", "npc", []⟩]
    (empty.addNodes nodes).1.failedAt = [1] ∧
      (empty.addNodes nodes).1.kept nodes = [(⟨"a", "npc", []⟩, 0), (⟨"b", "npc", []⟩, 2)] := by
  decide

end Graph

end GraphKeeper

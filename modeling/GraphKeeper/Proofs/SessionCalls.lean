/-
  Which calls leave everything as it was.

  A call can fail at any of three layers: the catalog knows no tool of the name or the tool refuses
  the arguments, the change cannot be made on the graph, or the changed graph cannot be written.
  Only the last two come near the store, and there `Store.change_eq_error` says that a failure
  changes nothing; once a change has been taken over, nothing is left that could fail.  So a call
  that is answered with an error leaves store and disk as they were, and so does every call of a
  tool that only asks, whatever its answer (`Session.dispatch_untouched`).  A call that is none of
  these makes one change in the store (`Session.dispatch_cases`).

  That such a tool is what its name stands for needs a look at how a catalog comes about: the tools
  for any graph are the first in it (`Catalog.Reachable.holds`), so no schema can take their names.
-/
import GraphKeeper.Proofs.Registration
import GraphKeeper.Proofs.StoreRuns
import GraphKeeper.Session

namespace GraphKeeper

open Tool

/-! ## Requests -/

namespace Tool.Request

variable {r : Request} {s : Store} {d : Disk}

/-- Whether a request only asks. -/
def isQuestion : Request → Bool
  | .change _ => false
  | .readGraph | .searchNodes _ | .openNodes _ => true

/-- A question leaves store and disk alone. -/
theorem run_of_isQuestion (h : r.isQuestion = true) : (r.run s d).2 = (s, d) := by
  cases r with
  | change c => nomatch h
  | readGraph => rfl
  | searchNodes query => rfl
  | openNodes names => rfl

/-- A request that fails does so too, be it in the store or before. -/
theorem run_of_error {failure : Failure} (h : (r.run s d).1 = .error failure) :
    (r.run s d).2 = (s, d) := by
  cases r with
  | change c =>
    rcases hchange : s.change d c with ⟨result, s', d'⟩
    simp only [run, hchange] at h ⊢
    cases result with
    | ok report => nomatch h
    | error _ =>
      obtain ⟨rfl, rfl⟩ := Store.change_eq_error hchange
      rfl
  | readGraph => exact run_of_isQuestion rfl
  | searchNodes query => exact run_of_isQuestion rfl
  | openNodes names => exact run_of_isQuestion rfl

end Tool.Request

/-! ## Tools that only ask -/

namespace Tool.GraphTool

/-- Whether a tool only asks. -/
def isQuestion : GraphTool → Bool
  | .readGraph | .searchNodes | .openNodes => true
  | _ => false

/-- A tool that only asks makes a question out of its arguments. -/
theorem isQuestion_of_validate {t : GraphTool} (ht : t.isQuestion = true) {args : Json}
    {r : Request} (h : t.validate args = .ok r) : r.isQuestion = true := by
  cases t with
  | readGraph =>
    obtain ⟨_, _, h⟩ := bind_eq_ok_iff.mp h
    cases h
    rfl
  | searchNodes =>
    obtain ⟨_, _, h⟩ := bind_eq_ok_iff.mp h
    cases h
    rfl
  | openNodes =>
    obtain ⟨_, _, h⟩ := bind_eq_ok_iff.mp h
    cases h
    rfl
  | _ => nomatch ht

end Tool.GraphTool

/-! ## Catalogs -/

namespace Catalog

/-- The catalogs that there can be: of a directory that has not been read, or set up from a disk. -/
inductive Reachable : Catalog → Prop
  | new (directory : String) : Reachable (.new directory)
  | setUp {c c' : Catalog} {d : Disk} (h : Reachable c) (hsetUp : c.setUp d = .ok c') : Reachable c'

variable {c : Catalog}

/-- The tools for any graph are the first that a catalog has. -/
theorem Reachable.holds (h : Reachable c) {table : Tool.Table} (htable : c.table = some table) :
    ∃ ts : List EntityTool, table.Holds (GraphTool.all.map .graph ++ ts.map .entity) := by
  -- Setting up again leaves a table as it is, and a new one is filled from the tools for any graph
  -- on.
  induction h with
  | new directory => nomatch htable
  | @setUp c c' d _ hsetUp ih =>
    unfold Catalog.setUp at hsetUp
    split at hsetUp
    · cases hsetUp
      exact ih htable
    · cases hread : Tool.ofDirectory d c.directory with
      | error failure =>
        rw [hread] at hsetUp
        nomatch hsetUp
      | ok read =>
        rw [hread] at hsetUp
        cases hsetUp
        cases htable
        obtain ⟨_, _, h⟩ := bind_eq_ok_iff.mp hread
        obtain ⟨ts, _, h⟩ := bind_eq_ok_iff.mp h
        exact ⟨ts, holds_of_assemble h⟩

/-- The name of a tool for any graph stands for that tool in every catalog. -/
theorem Reachable.tool? (h : Reachable c) (t : GraphTool) {found : Option Tool}
    (hfound : c.tool? t.name = .ok found) : found = some (.graph t) := by
  cases htable : c.table with
  | none =>
    rw [Catalog.tool?, ready, htable] at hfound
    nomatch hfound
  | some table =>
    obtain ⟨ts, hholds⟩ := h.holds htable
    have hmem : Tool.graph t ∈ GraphTool.all.map .graph ++ ts.map .entity :=
      List.mem_append_left _ (List.mem_map_of_mem (by cases t <;> decide))
    rw [Catalog.tool?, ready, htable] at hfound
    cases hfound
    exact (hholds.found t.name (.graph t)).mpr ⟨hmem, rfl⟩

end Catalog

/-! ## Calls -/

namespace Session

variable {s : Session} {c : Call}

theorem call_of_request_error {failure : Failure} (h : s.catalog.request c = .error failure) :
    s.call c = (.error failure, s) := by
  rw [call, h]

/-- A call that is known and accepted is what its request does to the store. -/
theorem call_of_request {r : Request} (h : s.catalog.request c = .ok r) :
    s.call c = ((r.run s.store s.disk).1,
      { s with store := (r.run s.store s.disk).2.1, disk := (r.run s.store s.disk).2.2 }) := by
  rw [call, h]

/-- **A call leaves the session alone, or makes a change in its store.** -/
theorem dispatch_cases (s : Session) (c : Call) :
    (s.dispatch c).2 = s ∨ ∃ change, s.catalog.request c = .ok (.change change) ∧
      (s.dispatch c).2 =
        ⟨s.catalog, (s.store.change s.disk change).2.1, (s.store.change s.disk change).2.2⟩ := by
  show (s.call c).2 = s ∨ ∃ change, _ ∧ (s.call c).2 = _
  cases hrequest : s.catalog.request c with
  | error failure =>
    rw [call_of_request_error hrequest]
    exact Or.inl rfl
  | ok r =>
    rw [call_of_request hrequest]
    cases r with
    | change change => exact Or.inr ⟨change, rfl, rfl⟩
    | readGraph => exact Or.inl rfl
    | searchNodes query => exact Or.inl rfl
    | openNodes names => exact Or.inl rfl

/-- A call that fails leaves the session alone. -/
theorem call_of_error {failure : Failure} (h : (s.call c).1 = .error failure) :
    (s.call c).2 = s := by
  cases hrequest : s.catalog.request c with
  | error _ => rw [call_of_request_error hrequest]
  | ok r =>
    rw [call_of_request hrequest] at h ⊢
    rw [Request.run_of_error h]

/-- A tool that only asks leaves the session alone, also when it fails. -/
theorem call_of_isQuestion (hs : s.catalog.Reachable) {t : GraphTool} (ht : t.isQuestion = true)
    (hname : c.name = t.name) : (s.call c).2 = s := by
  cases hrequest : s.catalog.request c with
  | error failure => rw [call_of_request_error hrequest]
  | ok r =>
    obtain ⟨found, hfound, hr⟩ := bind_eq_ok_iff.mp hrequest
    rw [hname] at hfound
    rw [hs.tool? t hfound] at hr
    have hquestion : r.isQuestion = true := GraphTool.isQuestion_of_validate ht hr
    rw [call_of_request hrequest, Request.run_of_isQuestion hquestion]

/-- **A call that is answered with an error changes nothing**, neither the graph in memory nor the
disk nor the tools; and the tools that only ask never change anything. -/
theorem dispatch_untouched (s : Session) (c : Call) :
    ((s.dispatch c).1.isError = true → (s.dispatch c).2 = s) ∧
      (s.catalog.Reachable →
        c.name ∈ [GraphTool.readGraph, .searchNodes, .openNodes].map GraphTool.name →
          (s.dispatch c).2 = s) := by
  constructor
  · -- A reply is an error exactly if the call has failed.
    intro herror
    change (Reply.ofResult c.name (s.call c).1).isError = true at herror
    show (s.call c).2 = s
    cases hresult : (s.call c).1 with
    | ok response =>
      rw [hresult] at herror
      nomatch herror
    | error failure => exact call_of_error hresult
  · intro hs hname
    obtain ⟨t, ht, hname⟩ := List.mem_map.mp hname
    have hquestion : t.isQuestion = true := by
      rcases List.mem_cons.mp ht with rfl | ht
      · rfl
      rcases List.mem_cons.mp ht with rfl | ht
      · rfl
      rw [List.mem_singleton.mp ht]
      rfl
    exact call_of_isQuestion hs hquestion hname.symm

/-- A disk with a directory that holds no documents, and the catalog that it leads to. -/
def plainDisk : Disk := ⟨[(["schemas"], .directory)], none⟩

def plainCatalog : Catalog := ((Catalog.new "schemas").setUp plainDisk).toOption.getD (.new "")

/-- A session with one node, on a disk that is full. -/
def fullSession : Session :=
  ⟨plainCatalog, ⟨"m", ⟨[⟨"a", "npc", []⟩], []⟩⟩, Store.oneNodeFull⟩

/-- Deleting the node fails when the disk is asked for room, and reading the graph goes on. -/
theorem dispatch_fullSession :
    let deleting : Call := ⟨"delete_nodes", .obj [("nodeNames", .arr [.str "a"])]⟩
    let reading : Call := ⟨"read_graph", .null⟩
    (fullSession.dispatch deleting).1.error?.map ErrorReply.kind = some "PersistenceError" ∧
      (fullSession.dispatch deleting).2 = fullSession ∧
      (fullSession.dispatch reading).1.isError = false ∧
      (fullSession.dispatch reading).2 = fullSession := by
  intro deleting reading
  have hcatalog : plainCatalog.Reachable :=
    .setUp (d := plainDisk) (.new "schemas") (eq_ok_of_isOk (by decide +kernel))
  exact ⟨by decide +kernel, (dispatch_untouched fullSession deleting).1 (by decide +kernel),
    by decide +kernel, (dispatch_untouched fullSession reading).2 hcatalog (by decide)⟩

end Session

end GraphKeeper

/-
  Tools are set up once, and stay as they were then.

  A session is asked to set up its tools, for their list, for the sort of a name and to make calls,
  in any order and as often as one likes, while others change the disk between any two of these
  events.  What it answers depends on how far it has come (`Stage`), and there are two stages only:
    * No set-up has succeeded.  Then nothing has been done to the store, whatever was asked for is
      refused because the tools are not ready, and setting up is decided by the disk as it is at
      that moment alone (`Unready`).
    * One has.  Then all answers are those of the tools that the directory led to at the first
      success, whatever has become of the directory (`Ready`).  An event keeps the session in its
      stage, except for a set-up that succeeds in the first (`Stage.step`); so a run of events ends
      in one of them (`stage`).
-/
import GraphKeeper.Proofs.CallFailures
import GraphKeeper.Proofs.NoBlanks
import Mathlib.Data.List.Induction

namespace GraphKeeper.Session

open Tool

/-! ## Events -/

/-- What a session is asked for, or what happens to its disk meanwhile. -/
inductive Event where
  | setUp
  | list
  | isEntityTool (name : String)
  | dispatch (c : Call)
  /-- Somebody else changes the disk. -/
  | disk (d : Disk)

/-- What a session answers to an event. -/
inductive Answer where
  | setUp (r : Except Failure Unit)
  /-- What the listing tells of each tool. -/
  | list (r : Except Failure (List Descriptor))
  | isEntityTool (r : Except Failure Bool)
  | reply (r : Reply)
  | none

/-- The answer to an event, and the session after it. -/
def respond (s : Session) : Event → Answer × Session
  | .setUp =>
    match s.catalog.setUp s.disk with
    | .error failure => (.setUp (.error failure), s)
    | .ok catalog => (.setUp (.ok ()), { s with catalog })
  | .list => (.list s.catalog.listing, s)
  | .isEntityTool name => (.isEntityTool (s.catalog.isEntityTool name), s)
  | .dispatch c => (.reply (s.dispatch c).1, (s.dispatch c).2)
  | .disk d => (.none, { s with disk := d })

/-- The answers to events one after another, and the session after them. -/
def follow (s : Session) : List Event → List Answer × Session
  | [] => ([], s)
  | e :: events =>
    let (answer, s) := s.respond e
    let (answers, s) := s.follow events
    (answer :: answers, s)

/-- Whether an event asks for something that needs the tools. -/
def Event.needsTools : Event → Bool
  | .list | .isEntityTool _ | .dispatch _ => true
  | .setUp | .disk _ => false

/-- Whether an answer tells that the tools are set up. -/
def Answer.isSetUp : Answer → Bool
  | .setUp (.ok ()) => true
  | _ => false

/-- The kind of the failure that an answer tells of. -/
def Answer.failureKind? : Answer → Option String
  | .setUp (.error failure) | .list (.error failure) | .isEntityTool (.error failure) =>
    some failure.kind
  | .reply r => r.error?.map ErrorReply.kind
  | _ => Option.none

/-- The last event of a run is answered by the session after the others. -/
theorem follow_concat (s : Session) (events : List Event) (e : Event) :
    s.follow (events ++ [e]) =
      ((s.follow events).1 ++ [((s.follow events).2.respond e).1],
        ((s.follow events).2.respond e).2) := by
  induction events generalizing s with
  | nil => rfl
  | cons e' events ih =>
    simp only [List.cons_append, follow, ih]

/-! ## Stages -/

/-- The answer to a call by the tools of a table, and the session after it. -/
def dispatchBy (table : Table) (s : Session) (c : Call) : Reply × Session :=
  match table.tool? c.name with
  | none => (.ofResult c.name (.error (.unknownTool c.name)), s)
  | some tool =>
    match tool.validate c.arguments with
    | .error failure => (.ofResult c.name (.error failure), s)
    | .ok request =>
      let (result, store, disk) := request.run s.store s.disk
      (.ofResult c.name result, { s with store, disk })

/-- What a session does whose tools are not set up: it refuses what needs them and stays as it is,
and sets them up when the directory leads to some. -/
structure Unready (directory : String) (s : Session) : Prop where
  refused : ∀ e : Event, e.needsTools = true →
    (s.respond e).1.failureKind? = some "InitializationError" ∧ (s.respond e).2 = s
  failing : ∀ failure, Tool.ofDirectory s.disk directory = .error failure →
    s.respond .setUp = (.setUp (.error failure), s)
  succeeding : ∀ table, Tool.ofDirectory s.disk directory = .ok table →
    s.respond .setUp = (.setUp (.ok ()), { s with catalog := ⟨directory, some table⟩ })

/-- What a session does whose tools are set up, whatever its disk is. -/
structure Ready (table : Table) (s : Session) : Prop where
  setUp : s.respond .setUp = (.setUp (.ok ()), s)
  list : s.respond .list = (.list (.ok table.listing), s)
  isEntityTool : ∀ name, s.respond (.isEntityTool name) =
    (.isEntityTool (.ok (match table.tool? name with
      | some (.entity _) => true
      | _ => false)), s)
  dispatch : ∀ c, s.respond (.dispatch c) =
    (.reply (dispatchBy table s c).1, (dispatchBy table s c).2)

variable {directory : String} {table : Table} {s s₀ : Session} {events : List Event}

/-- **Without tools a session does what `Unready` says.** -/
theorem unready_of_catalog (h : s.catalog = .new directory) : Unready directory s := by
  have hsetUp : s.catalog.setUp s.disk = (Tool.ofDirectory s.disk directory).map fun table =>
      ⟨directory, some table⟩ := by rw [h]; rfl
  refine ⟨fun e he => ?_, fun failure hfailure => ?_, fun table hread => ?_⟩
  · cases e with
    | setUp => nomatch he
    | disk d => nomatch he
    | list =>
      rw [respond, h]
      exact ⟨rfl, rfl⟩
    | isEntityTool name =>
      rw [respond, h]
      exact ⟨rfl, rfl⟩
    | dispatch c =>
      show (Reply.ofResult c.name (s.call c).1).error?.map ErrorReply.kind = _ ∧ (s.call c).2 = s
      cases s.call_fate c with
      | notReady reason _ hcall =>
        rw [hcall]
        exact ⟨congrArg some (ErrorReply.kind_ofFailure _ _), rfl⟩
      | unknown _ hset _ _ => rw [h] at hset; nomatch hset
      | reached _ _ hset _ _ => rw [h] at hset; nomatch hset
  · rw [respond, hsetUp, hfailure]
    rfl
  · rw [respond, hsetUp, hread]
    rfl

/-- **With tools it does what `Ready` says.** -/
theorem ready_of_catalog (h : s.catalog = ⟨directory, some table⟩) : Ready table s := by
  refine ⟨?_, ?_, fun name => ?_, fun c => ?_⟩
  · have hsetUp : s.catalog.setUp s.disk = .ok s.catalog := by rw [h]; rfl
    rw [respond, hsetUp]
  · rw [respond, h]
    rfl
  · rw [respond, h]
    rfl
  · have hset : s.catalog.table = some table := by rw [h]
    rw [respond, Session.dispatch, dispatchBy, call]
    cases hfind : table.tool? c.name with
    | none =>
      rw [Catalog.request_of_unknown hset hfind]
    | some tool =>
      rw [Catalog.request_of_known hset hfind]
      cases hvalidate : tool.validate c.arguments with
      | error failure => simp only [hvalidate]
      | ok request => simp only [hvalidate]

/-! ## Runs -/

/-- How far a session has come that began without tools. -/
inductive Stage (directory : String) (s₀ : Session) (events : List Event) : Prop
  | unready (hnone : (s₀.follow events).1.any Answer.isSetUp = false)
    (hcatalog : (s₀.follow events).2.catalog = .new directory)
    (hstore : (s₀.follow events).2.store = s₀.store)
  | ready (before after : List Event) (table : Table)
    (hsome : (s₀.follow events).1.any Answer.isSetUp = true)
    (hevents : events = before ++ .setUp :: after)
    (hfirst : (s₀.follow before).1.any Answer.isSetUp = false)
    (hread : Tool.ofDirectory (s₀.follow before).2.disk directory = .ok table)
    (hcatalog : (s₀.follow events).2.catalog = ⟨directory, some table⟩)

/-- An event leaves the tools as they are unless it sets them up. -/
theorem catalog_respond {e : Event} (he : e ≠ .setUp) : (s.respond e).2.catalog = s.catalog := by
  cases e with
  | setUp => exact absurd rfl he
  | dispatch c => exact catalog_dispatch s c
  | _ => rfl

/-- No other event tells that the tools are set up. -/
theorem isSetUp_respond {e : Event} (he : e ≠ .setUp) : (s.respond e).1.isSetUp = false := by
  cases e with
  | setUp => exact absurd rfl he
  | _ => rfl

/-- Without tools an event leaves the store as it is. -/
theorem Unready.store_respond (h : Unready directory s) (e : Event) :
    (s.respond e).2.store = s.store := by
  cases e with
  | setUp =>
    cases hread : Tool.ofDirectory s.disk directory with
    | error failure => rw [h.failing failure hread]
    | ok table => rw [h.succeeding table hread]
  | disk d => rfl
  | list => rfl
  | isEntityTool name => rfl
  | dispatch c => rw [(h.refused _ rfl).2]

/-- **One more event keeps a session in its stage, or sets its tools up for good.** -/
theorem Stage.step (h : Stage directory s₀ events) (e : Event) :
    Stage directory s₀ (events ++ [e]) := by
  cases h with
  | unready hnone hcatalog hstore =>
    have hunready := unready_of_catalog hcatalog
    -- All events but a set-up that succeeds keep the session where it is.
    have hkeeps : ∀ {e : Event}, ((s₀.follow events).2.respond e).1.isSetUp = false →
        ((s₀.follow events).2.respond e).2.catalog = .new directory →
          Stage directory s₀ (events ++ [e]) := by
      intro e hanswer hcatalog
      refine .unready ?_ ?_ ?_
      · rw [follow_concat, List.any_append, hnone, List.any_cons, hanswer, List.any_nil]
        rfl
      · rw [follow_concat]
        exact hcatalog
      · rw [follow_concat]
        exact (hunready.store_respond e).trans hstore
    by_cases he : e = .setUp
    · subst he
      cases hread : Tool.ofDirectory (s₀.follow events).2.disk directory with
      | error failure =>
        have hrespond := hunready.failing failure hread
        exact hkeeps (by rw [hrespond]; rfl) (by rw [hrespond]; exact hcatalog)
      | ok table =>
        have hrespond := hunready.succeeding table hread
        refine .ready events [] table ?_ rfl hnone hread ?_
        · rw [follow_concat, hrespond, List.any_append, List.any_cons]
          exact Bool.or_true _
        · rw [follow_concat, hrespond]
    · exact hkeeps (isSetUp_respond he) ((catalog_respond he).trans hcatalog)
  | ready before after table hsome hevents hfirst hread hcatalog =>
    refine .ready before (after ++ [e]) table ?_ ?_ hfirst hread ?_
    · rw [follow_concat, List.any_append, hsome]
      rfl
    · rw [hevents, List.append_assoc, List.cons_append]
    · rw [follow_concat]
      -- A set-up after the first one finds the tools that are there.
      by_cases he : e = .setUp
      · subst he
        rw [(ready_of_catalog hcatalog).setUp]
        exact hcatalog
      · exact (catalog_respond he).trans hcatalog

/-- **Every run ends in one of the two stages.** -/
theorem stage (directory : String) (store : Store) (d : Disk) (events : List Event) :
    Stage directory ⟨.new directory, store, d⟩ events := by
  -- The induction is on the last event, as a stage is told from the start of the run.
  induction events using List.reverseRecOn with
  | nil => exact .unready rfl rfl rfl
  | append_singleton events e ih => exact ih.step e

/-- **Tools are set up once and stay as they were then.**  Take any events from the start of a
session on.  As long as no set-up was answered with success, the store is untouched, everything that
needs the tools is refused, and the next set-up succeeds exactly if the directory leads to tools at
that moment.  Once one was, all is answered by the tools that the directory led to at the first
success, and a further set-up succeeds and changes nothing. -/
theorem follow_setUp (directory : String) (store : Store) (d : Disk) (events : List Event) :
    let s₀ : Session := ⟨.new directory, store, d⟩
    let s := (s₀.follow events).2
    ((s₀.follow events).1.any Answer.isSetUp = false → s.store = store ∧ Unready directory s) ∧
    ((s₀.follow events).1.any Answer.isSetUp = true →
      ∃ before after table, events = before ++ .setUp :: after ∧
        (s₀.follow before).1.any Answer.isSetUp = false ∧
        Tool.ofDirectory (s₀.follow before).2.disk directory = .ok table ∧ Ready table s) := by
  intro s₀ s
  cases stage directory store d events with
  | unready hnone hcatalog hstore =>
    refine ⟨fun _ => ⟨hstore, unready_of_catalog hcatalog⟩, fun hsome => ?_⟩
    nomatch hnone.symm.trans hsome
  | ready before after table hsome hevents hfirst hread hcatalog =>
    refine ⟨fun hnone => ?_, fun _ => ?_⟩
    · nomatch hnone.symm.trans hsome
    · exact ⟨before, after, table, hevents, hfirst, hread, ready_of_catalog hcatalog⟩

/-- A session that begins before there is a directory. -/
def earlySession : Session := ⟨.new "schemas", ⟨"m", .empty⟩, .empty⟩

/-- A listing, a call and a set-up that come too early; then somebody makes the directory. -/
def earlyEvents : List Event :=
  [.list, .dispatch ⟨"add_npc", .obj [("name", .str "Ann")]⟩, .setUp, .disk Catalog.npcDisk,
    .isEntityTool "add_npc"]

/-- The set-up that was refused succeeds when it is tried again, and goes on doing so without the
directory. -/
theorem follow_earlyEvents :
    let late := earlyEvents ++ [.setUp] ++ [.disk .empty] ++ [.setUp]
    ((earlySession.follow earlyEvents).1.any Answer.isSetUp = false ∧
      (earlySession.follow earlyEvents).2.store = ⟨"m", .empty⟩ ∧
      Unready "schemas" (earlySession.follow earlyEvents).2) ∧
    (earlySession.follow late).1.any Answer.isSetUp = true ∧
      ∃ before after table, late = before ++ .setUp :: after ∧
        (earlySession.follow before).1.any Answer.isSetUp = false ∧
        Tool.ofDirectory (earlySession.follow before).2.disk "schemas" = .ok table ∧
        Ready table (earlySession.follow late).2 := by
  intro late
  have hnone : (earlySession.follow earlyEvents).1.any Answer.isSetUp = false := by decide +kernel
  have hearly : (earlySession.follow earlyEvents).2 =
      ⟨.new "schemas", ⟨"m", .empty⟩, Catalog.npcDisk⟩ := rfl
  have hsetUp : (((earlySession.follow earlyEvents).2.respond .setUp).1).isSetUp = true := by
    rw [hearly, respond, Catalog.setUp_npcDisk]
    rfl
  have hsome : (earlySession.follow late).1.any Answer.isSetUp = true := by
    rw [follow_concat, List.any_append, follow_concat, List.any_append, follow_concat,
      List.any_append, List.any_cons, hsetUp]
    simp
  exact ⟨⟨hnone, (follow_setUp "schemas" ⟨"m", .empty⟩ .empty earlyEvents).1 hnone⟩, hsome,
    (follow_setUp "schemas" ⟨"m", .empty⟩ .empty late).2 hsome⟩

end GraphKeeper.Session

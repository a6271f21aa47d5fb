/-
  What the call of a tool can fail with.

  A call fails before any tool is reached, because the tools are not set up or because none of them
  has the name; or the tool that was reached refuses it, and then what is wrong is an argument, the
  graph or the disk (`Failure.isOfTool`).  The three do not overlap, so the kind of the failure in
  an answer tells how far the call came (`Session.call_fate`, `ErrorReply.kind_ofFailure`).

  A tool makes its checks and its change in steps, each of which may fail.  The law of each step is
  that it fails as a tool may (`FailsAsTool`), and a sequence of such steps does so again
  (`FailsAsTool.bind`); so the laws of the functions below follow their definitions line by line.
  The checks of a tool of an entity type are known to do more: what they report names a field
  (`EntityTool.validate_blamed`).
-/
import GraphKeeper.Proofs.BlamedFields
import GraphKeeper.Proofs.SessionCalls

namespace GraphKeeper

open Tool Schema

/-! ## The kind in an answer -/

/-- No kind has a colon in it, so the first colon of an error text ends the kind. -/
theorem Failure.colon_not_mem_kind (f : Failure) : ':' ∉ f.kind.toList := by
  cases f <;> simp only [kind] <;> decide

/-- **The kind of a failure can be read off the answer**, whatever its message holds. -/
theorem Tool.ErrorReply.kind_ofFailure (operation : String) (f : Failure) :
    (ErrorReply.ofFailure operation f).kind = f.kind := by
  -- The text is the kind, a colon, a blank and the message; whatever colons the message has come
  -- later.
  have herror : (ErrorReply.ofFailure operation f).error.toList =
      f.kind.toList ++ ':' :: (' ' :: f.message.toList) := by
    simp [ErrorReply.ofFailure, toString]
  have hkind : (f.kind.toList ++ ':' :: (' ' :: f.message.toList)).takeWhile (· ≠ ':') =
      f.kind.toList := by
    rw [List.takeWhile_append_of_pos fun c hc => decide_eq_true ?_, List.takeWhile_cons_of_neg
      (by decide), List.append_nil]
    rintro rfl
    exact f.colon_not_mem_kind hc
  rw [ErrorReply.kind, herror, hkind, String.ofList_toList]

/-! ## Steps of a tool -/

/-- Whether a failure is one that a tool which was reached may have. -/
def Failure.isOfTool : Failure → Bool
  | .invalidArgument .. | .notFound .. | .nodeExists _ | .storage .. => true
  | .notReady _ | .unknownTool _ | .corruptFile .. | .undecodable _ => false

/-- A tool that was reached is never reported as an unknown one. -/
theorem Failure.kind_ne_of_isOfTool {f : Failure} (h : f.isOfTool = true) :
    f.kind ≠ "UnknownToolError" := by
  cases f with
  | unknownTool name => nomatch h
  | _ => simp [kind]

/-- A computation that fails only as a tool may. -/
def FailsAsTool {α : Type} (x : Except Failure α) : Prop :=
  ∀ failure, x = .error failure → failure.isOfTool = true

namespace FailsAsTool

variable {α β ε : Type}

/-- A result is no failure. -/
theorem ok (a : α) : FailsAsTool (.ok a) := FailsWith.ok a

/-- A failure that a tool may have. -/
theorem error {failure : Failure} (h : failure.isOfTool = true) :
    FailsAsTool (.error failure : Except Failure α) := FailsWith.error h

/-- **Steps one after another.**  Whatever the first one gives, the second must keep to the rule. -/
theorem bind {x : Except Failure α} {f : α → Except Failure β} (hx : FailsAsTool x)
    (hf : ∀ a, FailsAsTool (f a)) : FailsAsTool (x >>= f) := FailsWith.bind hx hf

/-- What is made of a result does not matter. -/
theorem map {x : Except Failure α} (hx : FailsAsTool x) (f : α → β) : FailsAsTool (x.map f) := by
  cases x with
  | ok a => exact ok _
  | error failure => exact error (hx failure rfl)

/-- A failure of another type may be put into words in any way that a tool may use. -/
theorem mapError (x : Except ε α) {f : ε → Failure} (hf : ∀ e, (f e).isOfTool = true) :
    FailsAsTool (x.mapError f) := by
  cases x with
  | ok a => exact ok a
  | error e => exact error (hf e)

/-- A check in front: its failure in one branch, what goes on in the other. -/
theorem ite {p : Prop} [Decidable p] {x y : Except Failure α} (hx : FailsAsTool x)
    (hy : FailsAsTool y) : FailsAsTool (if p then x else y) := FailsWith.ite hx hy

/-- A check that is made in some cases only, with the same steps behind it either way. -/
theorem checked {p : Prop} [Decidable p] {check : Except Failure α} {rest : Except Failure β}
    (hcheck : FailsAsTool check) (hrest : FailsAsTool rest) :
    FailsAsTool (if p then check >>= fun _ => rest else rest) := FailsWith.checked hcheck hrest

/-- The same check of each item in turn. -/
theorem forM {check : α → Except Failure Unit} (h : ∀ a, FailsAsTool (check a)) (as : List α) :
    FailsAsTool (as.forM check) := FailsWith.forM h as

end FailsAsTool

/-! ## Checks of the graph -/

namespace Graph

theorem addNode_failsAsTool (g : Graph) (node : Node) : FailsAsTool ((addNode node).onCopy g) := by
  rw [onCopy_addNode]
  exact .ite (.error rfl) (.ite (.error rfl) (.ite (.error rfl) (.ok _)))

theorem deleteNode_failsAsTool (g : Graph) (name : String) :
    FailsAsTool ((deleteNode name).onCopy g) := by
  rw [onCopy_deleteNode]
  exact .ite (.error rfl) (.ok _)

theorem checkEdge_failsAsTool (g : Graph) (e : Edge) : FailsAsTool (g.checkEdge e) :=
  .ite (.error rfl) (.ite (.error rfl) (.ite (.error rfl) (.ok _)))

/-- Adding an entity is adding its node and then checking its edges, one after another. -/
theorem createEntity_failsAsTool (g : Graph) (node : Node) (edges : List Edge) :
    FailsAsTool (g.createEntity node edges) := by
  rw [createEntity_eq_bind]
  -- The edges are checked in the graph that has the node already.
  refine .bind (g.addNode_failsAsTool node) fun (node, g) => ?_
  refine .bind (.forM (fun e => ?_) edges) fun _ => .ok _
  exact .ite (.error rfl) (g.checkEdge_failsAsTool e)

theorem checkKind_failsAsTool (g : Graph) (name kind : String) :
    FailsAsTool (g.checkKind name kind) := by
  unfold checkKind
  split
  · exact .error rfl
  · exact .ite (.error rfl) (.ok _)

/-- Updating an entity looks at its kind, at the targets, and once more for the node. -/
theorem updateEntity_failsAsTool (g : Graph) (u : EntityUpdate) :
    FailsAsTool (g.updateEntity u) := by
  rw [updateEntity_eq_bind]
  refine .bind (g.checkKind_failsAsTool u.name u.kind) fun _ => ?_
  refine .bind (.forM (fun target => .ite (.ok _) (.error rfl)) _) fun _ => ?_
  -- By then the node is known to be there, but the text of the update does not know it.
  cases g.node? u.name with
  | none => exact .error rfl
  | some node => exact .ok _

/-- Deleting an entity is a check of its kind and the deletion of its node. -/
theorem deleteEntity_failsAsTool (g : Graph) (name kind : String) :
    FailsAsTool (g.deleteEntity name kind) := by
  rw [deleteEntity_eq_bind]
  exact .bind (g.checkKind_failsAsTool name kind) fun _ => g.deleteNode_failsAsTool name

/-- A search fails for a missing value behind a prefix, and for nothing else. -/
theorem search_failsAsTool (g : Graph) (query : String) : FailsAsTool (g.search query) := by
  have hvalue : ∀ rest, FailsAsTool (Query.valueOf (Text.trim query) rest) :=
    fun rest => .ite (.error rfl) (.ok _)
  -- What is left after the selection of nodes is how the query is read.
  refine .map ?_ g.select
  refine .ite (.error rfl) ?_
  split
  · exact (hvalue _).map _
  · split
    · exact (hvalue _).map _
    · exact .ok _

end Graph

/-- A batch does not fail as a whole; the change of an entity may. -/
theorem Change.apply_failsAsTool (g : Graph) (c : Change) : FailsAsTool (c.apply g) := by
  -- The eight batches report what fails item by item.
  cases c with
  | entity change =>
    cases change with
    | create node edges => exact (g.createEntity_failsAsTool node edges).map _
    | update u => exact (g.updateEntity_failsAsTool u).map _
    | delete name kind => exact (g.deleteEntity_failsAsTool name kind).map _
  | _ => exact .ok _

/-- A change fails with its own failure, or because the disk does not take the file. -/
theorem Store.change_failsAsTool (s : Store) (d : Disk) (c : Change) :
    FailsAsTool (s.change d c).1 := by
  cases s.change_fate d c with
  | failed failure happly h =>
    rw [h]
    exact .error (c.apply_failsAsTool s.graph failure happly)
  | same report _ h => rw [h]; exact .ok report
  | refused _ _ _ _ _ _ h => rw [h]; exact .error rfl
  | written report _ _ _ _ _ h => rw [h]; exact .ok report

namespace Tool

/-- **Carrying a request out fails only as a tool may.**  Reading and opening cannot fail at all. -/
theorem Request.run_failsAsTool (r : Request) (s : Store) (d : Disk) :
    FailsAsTool (r.run s d).1 := by
  cases r with
  | change c => exact (s.change_failsAsTool d c).map _
  | readGraph => exact .ok _
  | searchNodes query => exact (s.graph.search_failsAsTool query).map _
  | openNodes names => exact .ok _

/-! ## Checks of arguments -/

/-- A tool of an entity type blames an argument. -/
theorem EntityTool.validate_failsAsTool (t : EntityTool) (args : Json) :
    FailsAsTool (t.validate args) := by
  cases args with
  | obj args =>
    intro failure h
    obtain ⟨field, ⟨reason, rfl⟩, _⟩ := t.validate_blamed args failure h
    rfl
  | _ => exact .error rfl

namespace GraphTool

/-- What is wrong with the fields of an object is told of the argument object as a whole. -/
theorem readArguments_failsAsTool (fields : List Json.Field) (args : Json) :
    FailsAsTool (readArguments fields args) := by
  -- Missing arguments and `null` stand for an empty object; other values are refused.
  refine .bind ?_ fun members => .mapError _ fun _ => rfl
  cases args with
  | null => exact .ok _
  | obj members => exact .ok _
  | _ => exact .error rfl

variable {α : Type}

/-- An argument that is missing is an invalid one. -/
theorem soleArgument_failsAsTool (name : String) (value : Json.Decoder α) (args : Json) :
    FailsAsTool (soleArgument name value args) :=
  .bind (readArguments_failsAsTool _ args) fun _ => .mapError _ fun _ => rfl

/-- An empty list of items is an invalid argument too. -/
theorem someItems_failsAsTool (name : String) (item : Json.Decoder α) (args : Json) :
    FailsAsTool (someItems name item args) :=
  .bind (soleArgument_failsAsTool name _ args) fun _ =>
    .checked (.error rfl) (.ok _)

/-- Each tool for any graph reads its arguments and then only builds a request. -/
theorem validate_failsAsTool (t : GraphTool) (args : Json) : FailsAsTool (t.validate args) := by
  cases t with
  | readGraph => exact .bind (readArguments_failsAsTool _ args) fun _ => .ok _
  | searchNodes => exact .bind (soleArgument_failsAsTool _ _ args) fun _ => .ok _
  | _ => exact .bind (someItems_failsAsTool _ _ args) fun _ => .ok _

end GraphTool

/-- **A tool refuses arguments only as a tool may.** -/
theorem validate_failsAsTool (t : Tool) (args : Json) : FailsAsTool (t.validate args) := by
  cases t with
  | graph t => exact t.validate_failsAsTool args
  | entity t => exact (t.validate_failsAsTool args).map _

end Tool

/-! ## Calls -/

namespace Catalog

variable {c : Catalog} {call : Call} {table : Tool.Table}

/-- A call of a name that stands for nothing is refused for its name. -/
theorem request_of_unknown (hset : c.table = some table)
    (hfind : table.tool? call.name = none) :
    c.request call = .error (.unknownTool call.name) := by
  have htool : c.tool? call.name = .ok none := by
    rw [tool?, ready, hset]
    exact congrArg Except.ok hfind
  rw [request, htool]
  rfl

/-- A call of a name that stands for a tool is decided by the tool. -/
theorem request_of_known (hset : c.table = some table) {tool : Tool}
    (hfind : table.tool? call.name = some tool) :
    c.request call = tool.validate call.arguments := by
  have htool : c.tool? call.name = .ok (some tool) := by
    rw [tool?, ready, hset]
    exact congrArg Except.ok hfind
  rw [request, htool]
  rfl

end Catalog

namespace Session

/-- How far a call comes: to no tool, because there are none yet or none of the name, or to a
tool. -/
inductive CallFate (s : Session) (c : Call) : Prop
  | notReady (reason : String) (hunset : s.catalog.table = none)
    (h : s.call c = (.error (.notReady reason), s))
  | unknown (table : Tool.Table) (hset : s.catalog.table = some table)
    (hfind : table.tool? c.name = none)
    (h : s.call c = (.error (.unknownTool c.name), s))
  | reached (table : Tool.Table) (tool : Tool) (hset : s.catalog.table = some table)
    (hfind : table.tool? c.name = some tool) (h : FailsAsTool (s.call c).1)

/-- **Each call comes to one of three ends.** -/
theorem call_fate (s : Session) (c : Call) : CallFate s c := by
  -- The cases follow `Catalog.request`: the table, the name in it, the arguments; only a request
  -- that was accepted is carried out.
  cases htable : s.catalog.table with
  | none =>
    have hrequest : ∃ reason, s.catalog.request c = .error (.notReady reason) := by
      rw [Catalog.request, Catalog.tool?, Catalog.ready, htable]
      exact ⟨_, rfl⟩
    obtain ⟨reason, hrequest⟩ := hrequest
    exact .notReady reason htable (call_of_request_error hrequest)
  | some table =>
    cases hfind : table.tool? c.name with
    | none =>
      have hrequest := Catalog.request_of_unknown htable hfind
      exact .unknown table htable hfind (call_of_request_error hrequest)
    | some tool =>
      have hrequest := Catalog.request_of_known htable hfind
      refine .reached table tool htable hfind ?_
      cases hvalidate : tool.validate c.arguments with
      | error failure =>
        rw [call_of_request_error (hrequest.trans hvalidate)]
        exact .error (tool.validate_failsAsTool c.arguments failure hvalidate)
      | ok r =>
        rw [call_of_request (hrequest.trans hvalidate)]
        exact r.run_failsAsTool s.store s.disk

end Session

end GraphKeeper

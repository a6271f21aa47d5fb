/-
  Edits: changes that are made in place and may fail on their way.

  An edit reads and writes its state step by step.  Where it fails, the state stays as it was
  written by then; nothing takes the writes back.  Whoever wants all of an edit or nothing of it
  makes the edit on a copy and drops the copy if the edit fails (`Edit.onCopy`).
-/
import GraphKeeper.Failure
import GraphKeeper.Graph.Basic

namespace GraphKeeper

/-- A change of a state, made in place: it gives a report or fails. -/
abbrev Edit (σ α : Type) := ExceptT Failure (StateM σ) α

namespace Edit

variable {σ α : Type}

/-- Makes an edit in place: its report or failure, and the state that it leaves either way. -/
def inPlace (s : σ) (e : Edit σ α) : Except Failure α × σ := StateT.run (ExceptT.run e) s

/-- Makes an edit on a copy: its report and the edited copy, or its failure alone. -/
def onCopy (s : σ) (e : Edit σ α) : Except Failure (α × σ) :=
  match e.inPlace s with
  | (.ok report, edited) => .ok (report, edited)
  | (.error failure, _) => .error failure

/-- Fails where something is bad. -/
def refuseIf (bad : Bool) (failure : Failure) : Edit σ Unit :=
  if bad then throw failure else pure ()

/-- Looks at the state without writing to it, and fails where the check does. -/
def check (c : σ → Except Failure α) : Edit σ α := do
  MonadExcept.ofExcept (c (← get))

end Edit

namespace Graph

/-- Edits the first node of a name in place.  What the edit wrote to the node by the time it fails
stands in the graph. -/
def onNode {α : Type} (name : String) (e : Edit Node α) : Edit Graph α := do
  match (← get).node? name with
  | none => throw (.notFound .node name)
  | some node =>
    let (result, edited) := e.inPlace node
    modify (·.modifyNode name fun _ => edited)
    MonadExcept.ofExcept result

end Graph

end GraphKeeper

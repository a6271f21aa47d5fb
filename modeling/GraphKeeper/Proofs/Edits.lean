/-
  Laws of edits, and edits that check before they write.

  An edit is made on its state in place, so one that fails may have written something by then.  What
  rules this out is `Edit.ChecksFirst`: where the edit fails, it leaves its state as it found it.
  The type of an edit does not promise this; it has to be proved of each of them.

  The proof follows the text of an edit.  A step that only reads may stand in front of whatever
  checks first (`Reads.bind`), and from the first write on no step may fail (`NeverFails`).  An edit
  of a node of a graph checks first if the edit of the node by itself does
  (`Graph.checksFirst_onNode`): what is put back is then the node that was found, in its own place.

  What an edit gives where it succeeds is worked out on a copy, one step after another
  (`onCopy_bind`, and a law for each kind of step).
-/
import GraphKeeper.Graph.Edit
import GraphKeeper.Proofs.Sequences

namespace GraphKeeper

namespace Edit

variable {σ α β ι : Type} {s t : σ} {failure : Failure}

/-! ## In place -/

/-- What stands behind a part that succeeds meets the state that this part leaves. -/
theorem inPlace_bind_of_ok {x : Edit σ α} {f : α → Edit σ β} {a : α}
    (h : x.inPlace s = (.ok a, t)) : (x >>= f).inPlace s = (f a).inPlace t := by
  rw [inPlace] at h
  rw [inPlace, ExceptT.run_bind, StateT.run_bind, h]
  rfl

/-- Behind a part that fails nothing happens any more, and what it wrote remains. -/
theorem inPlace_bind_of_error {x : Edit σ α} {f : α → Edit σ β}
    (h : x.inPlace s = (.error failure, t)) : (x >>= f).inPlace s = (.error failure, t) := by
  rw [inPlace] at h
  rw [inPlace, ExceptT.run_bind, StateT.run_bind, h]
  rfl

/-- Reading the state is handing it on. -/
theorem inPlace_get_bind (f : σ → Edit σ α) : inPlace s (get >>= f) = (f s).inPlace s := rfl

/-- What stands behind a write meets the written state. -/
theorem inPlace_modify_bind (w : σ → σ) (f : PUnit → Edit σ α) :
    inPlace s (modify w >>= f) = (f ⟨⟩).inPlace (w s) := rfl

/-- A result of something else comes in without a write. -/
theorem inPlace_ofExcept (r : Except Failure α) :
    inPlace s (MonadExcept.ofExcept r) = (r, s) := by
  cases r <;> rfl

/-- A refusal leaves the state alone, and so does going on. -/
theorem inPlace_refuseIf (bad : Bool) :
    (refuseIf bad failure).inPlace s = (if bad then .error failure else .ok (), s) := by
  cases bad <;> rfl

/-- A check reads the state and leaves it alone. -/
theorem inPlace_check (c : σ → Except Failure α) : (check c).inPlace s = (c s, s) :=
  inPlace_ofExcept (c s)

/-- Checks one after another come to one check of the state. -/
theorem inPlace_forM_check (c : ι → σ → Except Failure Unit) (items : List ι) :
    inPlace s (items.forM fun item => check (c item)) = (items.forM (c · s), s) := by
  -- The first check that fails ends both sides; behind one that passes the state is the same.
  induction items with
  | nil => rfl
  | cons item items ih =>
    show inPlace s (check (c item) >>= fun _ => items.forM fun item => check (c item)) =
      (c item s >>= fun _ => items.forM (c · s), s)
    cases h : c item s with
    | error failure => rw [inPlace_bind_of_error ((inPlace_check _).trans (by rw [h]))]; rfl
    | ok _ => rw [inPlace_bind_of_ok ((inPlace_check _).trans (by rw [h])), ih]; rfl

/-! ## On a copy -/

/-- On a copy an edit succeeds exactly where it succeeds in place, with the same report
and state. -/
theorem onCopy_eq_ok_iff {e : Edit σ α} {a : α} :
    e.onCopy s = .ok (a, t) ↔ e.inPlace s = (.ok a, t) := by
  rw [onCopy]
  rcases e.inPlace s with ⟨failure | report, edited⟩
  · exact ⟨(nomatch ·), (nomatch ·)⟩
  · simp

/-- On a copy an edit fails exactly where it fails in place, whatever it leaves there. -/
theorem onCopy_eq_error_iff {e : Edit σ α} :
    e.onCopy s = .error failure ↔ ∃ left, e.inPlace s = (.error failure, left) := by
  rw [onCopy]
  rcases e.inPlace s with ⟨failure' | report, edited⟩ <;> simp

/-- The second part of an edit goes on with what the first part made of the copy. -/
theorem onCopy_bind (x : Edit σ α) (f : α → Edit σ β) :
    (x >>= f).onCopy s = x.onCopy s >>= fun r => (f r.1).onCopy r.2 := by
  rcases h : x.inPlace s with ⟨failure | a, t⟩
  · rw [onCopy_eq_error_iff.mpr ⟨t, h⟩]
    exact onCopy_eq_error_iff.mpr ⟨t, inPlace_bind_of_error h⟩
  · rw [onCopy_eq_ok_iff.mpr h, onCopy, inPlace_bind_of_ok h]
    rfl

/-- Reading the copy is handing it on. -/
theorem onCopy_get_bind (f : σ → Edit σ α) : onCopy s (get >>= f) = (f s).onCopy s := rfl

/-- What stands behind a write goes on with the written copy. -/
theorem onCopy_modify_bind (w : σ → σ) (f : PUnit → Edit σ α) :
    onCopy s (modify w >>= f) = (f ⟨⟩).onCopy (w s) := rfl

/-- A refusal drops the copy, whatever was written to it. -/
theorem onCopy_refuseIf_bind (bad : Bool) (f : Unit → Edit σ α) :
    (refuseIf bad failure >>= f).onCopy s = if bad then .error failure else (f ()).onCopy s := by
  cases bad <;> rfl

/-- A check in the middle is a check of the copy as it then is. -/
theorem onCopy_check_bind (c : σ → Except Failure α) (f : α → Edit σ β) :
    (check c >>= f).onCopy s = c s >>= fun a => (f a).onCopy s := by
  rw [onCopy_bind, onCopy, inPlace_check]
  cases c s <;> rfl

/-- Checks of many items in the middle are one check of the copy. -/
theorem onCopy_forM_check_bind (c : ι → σ → Except Failure Unit) (items : List ι)
    (f : PUnit → Edit σ β) :
    onCopy s ((items.forM fun item => check (c item)) >>= f) =
      items.forM (c · s) >>= fun u => (f u).onCopy s := by
  rw [onCopy_bind, onCopy, inPlace_forM_check]
  cases items.forM (c · s) <;> rfl

/-! ## Edits that check before they write -/

/-- Where the edit fails, it leaves the state as it found it. -/
def ChecksFirst (e : Edit σ α) : Prop :=
  ∀ s failure left, e.inPlace s = (.error failure, left) → left = s

/-- Not every edit is like this: a write in front of the check stays. -/
example :
    ¬ ChecksFirst (modify (· + 1) >>= fun _ => refuseIf true (.blank "name") : Edit Nat Unit) :=
  fun h => nomatch h 0 (.blank "name") 1 rfl

/-- The edit writes nothing. -/
def Reads (e : Edit σ α) : Prop := ∀ s, (e.inPlace s).2 = s

/-- Whatever state it meets, the edit succeeds. -/
def NeverFails (e : Edit σ α) : Prop := ∀ s, (e.inPlace s).1.isOk = true

theorem reads_get : Reads (get : Edit σ σ) := fun _ => rfl

theorem reads_refuseIf (bad : Bool) : Reads (refuseIf bad failure : Edit σ Unit) := fun _ =>
  congrArg Prod.snd (inPlace_refuseIf bad)

theorem reads_check (c : σ → Except Failure α) : Reads (check c) := fun _ =>
  congrArg Prod.snd (inPlace_check c)

theorem neverFails_pure (a : α) : NeverFails (pure a : Edit σ α) := fun _ => rfl

theorem neverFails_get : NeverFails (get : Edit σ σ) := fun _ => rfl

theorem neverFails_modify (w : σ → σ) : NeverFails (modify w : Edit σ PUnit) := fun _ => rfl

/-- Two parts that never fail make an edit that never fails. -/
theorem NeverFails.bind {x : Edit σ α} {f : α → Edit σ β} (hx : NeverFails x)
    (hf : ∀ a, NeverFails (f a)) : NeverFails (x >>= f) := by
  intro s
  -- Neither part can fail on the state it meets, the second one not on any.
  obtain ⟨a, h⟩ := exists_eq_ok_of_isOk (hx s)
  rw [inPlace_bind_of_ok h]
  exact hf a _

/-- An edit that never fails has nothing to check, so the condition holds of it. -/
theorem NeverFails.checksFirst {e : Edit σ α} (he : NeverFails e) : ChecksFirst e := by
  intro s failure left h
  have hok := he s
  rw [h] at hok
  nomatch hok

/-- **A part that only reads** may stand in front of an edit that checks first. -/
theorem Reads.bind {x : Edit σ α} {f : α → Edit σ β} (hx : Reads x)
    (hf : ∀ a, ChecksFirst (f a)) : ChecksFirst (x >>= f) := by
  intro s failure left h
  have hread := hx s
  -- Either the first part fails, which has written nothing, or the second part fails on the state
  -- that both were given.
  rcases hrun : x.inPlace s with ⟨failure' | a, t⟩
  · rw [inPlace_bind_of_error hrun] at h
    rw [hrun] at hread
    exact (Prod.mk.inj h).2.symm.trans hread
  · rw [inPlace_bind_of_ok hrun] at h
    rw [hrun] at hread
    exact (hf a t failure left h).trans hread

/-- An edit that checks first fails in place just as it does on a copy. -/
theorem ChecksFirst.inPlace_of_error {e : Edit σ α} (he : ChecksFirst e)
    (h : e.onCopy s = .error failure) : e.inPlace s = (.error failure, s) := by
  obtain ⟨left, hrun⟩ := onCopy_eq_error_iff.mp h
  rw [hrun, he s failure left hrun]

end Edit

namespace Graph

variable {α : Type} {g : Graph} {name : String} {node : Node} {e : Edit Node α}

/-- Only the first node of a name is changed, so only what becomes of it matters. -/
theorem modifyNode_eq_of_node? {f : Node → Node} (h : g.node? name = some node) :
    g.modifyNode name f = g.modifyNode name fun _ => f node := by
  have hnodes : modifyFirst (·.name == name) f g.nodes =
      modifyFirst (·.name == name) (fun _ => f node) g.nodes := by
    refine modifyFirst_congr fun n hn => ?_
    rw [Option.some.inj (hn.symm.trans h)]
  rw [modifyNode, hnodes]
  rfl

/-- Putting the node back that was found changes nothing. -/
theorem modifyNode_self (h : g.node? name = some node) :
    (g.modifyNode name fun _ => node) = g := by
  have hid : g.modifyNode name (fun n => n) = g := by
    rw [modifyNode, modifyFirst_eq_self fun _ => rfl]
  exact (modifyNode_eq_of_node? h).symm.trans hid

/-- Where there is no node of the name, nothing is edited. -/
theorem inPlace_onNode_of_none (h : g.node? name = none) :
    (onNode name e).inPlace g = (.error (.notFound .node name), g) := by
  unfold onNode
  rw [Edit.inPlace_get_bind, h]
  rfl

/-- Where there is one, what becomes of it stands in its place, whether or not its edit fails. -/
theorem inPlace_onNode (h : g.node? name = some node) :
    (onNode name e).inPlace g =
      ((e.inPlace node).1, g.modifyNode name fun _ => (e.inPlace node).2) := by
  unfold onNode
  rw [Edit.inPlace_get_bind, h]
  show Edit.inPlace g (modify (·.modifyNode name fun _ => (e.inPlace node).2) >>= fun _ =>
    MonadExcept.ofExcept (e.inPlace node).1) = _
  rw [Edit.inPlace_modify_bind, Edit.inPlace_ofExcept]

/-- **An edit of a node checks first** in the graph if it does by itself. -/
theorem checksFirst_onNode (he : e.ChecksFirst) : (onNode name e).ChecksFirst := by
  intro g failure left h
  -- A failed edit has put back a node; that it is the one that was found is what `he` says.
  cases hnode : g.node? name with
  | none =>
    rw [inPlace_onNode_of_none hnode] at h
    exact (congrArg Prod.snd h).symm
  | some node =>
    rw [inPlace_onNode hnode] at h
    obtain ⟨hfailed, hleft⟩ := Prod.mk.inj h
    have hnoWrite : (e.inPlace node).2 = node := he node failure _ (Prod.ext hfailed rfl)
    rw [hnoWrite, modifyNode_self hnode] at hleft
    exact hleft.symm

/-- On a copy the edited node is put in the place of the one that was found. -/
theorem onCopy_onNode :
    (onNode name e).onCopy g =
      match g.node? name with
      | none => .error (.notFound .node name)
      | some node => (e.onCopy node).map fun r => (r.1, g.modifyNode name fun _ => r.2) := by
  cases hnode : g.node? name with
  | none => exact Edit.onCopy_eq_error_iff.mpr ⟨g, inPlace_onNode_of_none hnode⟩
  | some node =>
    show _ = (e.onCopy node).map fun r => (r.1, g.modifyNode name fun _ => r.2)
    rw [Edit.onCopy, inPlace_onNode hnode, Edit.onCopy]
    rcases e.inPlace node with ⟨failure | report, edited⟩ <;> rfl

end Graph

end GraphKeeper

/-
  The field that a refusal blames.

  A tool of an entity type refuses arguments at the first thing wrong and names one field.  Which
  field that is depends on the others, as those in front of it are checked first; that the field is
  at fault does not.  `EntityTool.Fault` lists what can be wrong with a field and looks at nothing
  but its name and its value: no field of a closed type, no name of an entity, a required field that
  is missing, a value that does not fit.

  Two facts about the list carry the result.  Every check reports under the name of the field whose
  value it is given (`checkValue_blames`, `targets_blames`, `entityName_blames`), so the field that
  a refusal names is at fault (`EntityTool.validate_blamed`).  And there is no way around a fault:
  any arguments in which some field is at fault are refused (`EntityTool.Fault.refused`), although
  maybe for the sake of another one.  So to change the other fields never helps
  (`EntityTool.refused_of_blamed`).
-/
import GraphKeeper.Proofs.InputSchemas

namespace GraphKeeper

open Schema

/-- The failure is that the argument of the field is not as it must be. -/
def Failure.Blames (failure : Failure) (field : String) : Prop :=
  ∃ reason, failure = .invalidArgument field reason

namespace Tool

variable {f : EntityField} {args : Members} {v : Json}

/-! ## Checks name their field -/

/-- A value that is not allowed is told under the name it is given. -/
theorem checkAllowed_blames (field : String) (allowed : Option (List Json)) (v : Json) :
    FailsWith (·.Blames field) (checkAllowed field allowed v) := by
  cases allowed with
  | none => exact .ok _
  | some vs => exact .ite (.ok _) (.error ⟨_, rfl⟩)

/-- So is an item, since the field is named and not the place of the item. -/
theorem checkItem_blames (field : String) (rule : ItemRule) (v : Json) :
    FailsWith (·.Blames field) (checkItem field rule v) :=
  .checked (.error ⟨_, rfl⟩) (checkAllowed_blames _ _ _)

/-- **The check of a value blames the field.** -/
theorem checkValue_blames (f : EntityField) (v : Json) :
    FailsWith (·.Blames f.name) (checkValue f v) := by
  refine .checked (.error ⟨_, rfl⟩) (.bind (checkAllowed_blames _ _ _) fun _ => ?_)
  split
  · exact .forM (checkItem_blames _ _) _
  · exact .ok _

/-- So does the reading of its targets. -/
theorem targets_blames (f : EntityField) (v : Json) :
    FailsWith (·.Blames f.name) (targets f v) := by
  unfold targets
  extract_lets vs
  cases vs.mapM targetName? with
  | none => exact .error ⟨_, rfl⟩
  | some names => exact .ok _

/-- What is wrong with the name of the entity is told under the key. -/
theorem entityName_blames (args : Members) : FailsWith (·.Blames keyName) (entityName args) := by
  unfold entityName
  split
  · exact .ite (.error ⟨_, rfl⟩) (.ok _)
  · exact .error ⟨_, rfl⟩
  · exact .error ⟨_, rfl⟩

namespace EntityTool

theorem add_blames (entity : String) (args : Members) (f : EntityField) (draft : Draft) :
    FailsWith (·.Blames f.name) (draft.add entity args f) := by
  unfold Draft.add
  split
  · exact .ite (.error ⟨_, rfl⟩) (.ok _)
  · -- The value is checked first, and then, if it is that of a relationship, its targets.
    refine .bind (checkValue_blames f _) fun _ => ?_
    split
    · exact .ok _
    · split <;> exact .ok _
    · exact .bind (targets_blames f _) fun _ => .ok _

theorem fieldChange_blames (f : EntityField) (v : Json) :
    FailsWith (·.Blames f.name) (fieldChange f v) := by
  refine .checked (checkValue_blames f v) ?_
  cases f.role with
  | key => exact .ok _
  | metadata => exact .ok _
  | relationship kind => exact .ite (.ok _) (.bind (targets_blames f v) fun _ => .ok _)

/-! ## Fields at fault -/

/-- What can be wrong with a field: it is told by the name of the field and by its value, if it has
one. -/
inductive Fault (t : EntityTool) : String → Option Json → Prop
  /-- The type is closed and does not know the field; even `null` is a value too much. -/
  | unknown {key : String} {v : Json} (hclosed : t.type.additional = false)
    (h : t.knows key = false) : Fault t key (some v)
  /-- The name of the entity is missing, no string or blank. -/
  | name {value? : Option Json}
    (h : ∀ entity, value? = some (.str entity) → Text.isBlank entity = true) :
    Fault t keyName value?
  /-- A new entity needs the field. -/
  | missing {f : EntityField} {value? : Option Json} (hverb : t.verb = .add)
    (hf : f ∈ t.type.fields) (hrequired : f.required = true)
    (h : ∀ v, value? = some v → v.isNull = true) : Fault t f.name value?
  /-- The field has a value that it does not take. -/
  | unfit {f : EntityField} {v : Json} (hverb : t.verb ≠ .delete) (hf : f ∈ t.type.fields)
    (hnull : v.isNull = false) (h : ¬ Fits f v) : Fault t f.name (some v)

/-- The failure names a field that is at fault. -/
def Blamed (t : EntityTool) (args : Members) (failure : Failure) : Prop :=
  ∃ field, failure.Blames field ∧ t.Fault field (args.get? field)

variable {t : EntityTool} {entity : String}

/-- A step that looks at one field blames it rightly if the field is at fault whenever the step does
not succeed. -/
theorem blamed_of_field {α : Type} {x : Except Failure α} {field : String}
    (hx : FailsWith (·.Blames field) x)
    (hfault : (¬ ∃ a, x = .ok a) → t.Fault field (args.get? field)) :
    FailsWith (t.Blamed args) x := by
  intro failure herror
  refine ⟨field, hx failure herror, hfault ?_⟩
  rintro ⟨a, hok⟩
  nomatch herror.symm.trans hok

/-! ## The field that is named is at fault -/

/-- A value is there if it is given and not `null`. -/
theorem present?_eq_some_iff_get? {key : String} :
    present? args key = some v ↔ args.get? key = some v ∧ v.isNull = false := by
  rw [present?, Option.filter_eq_some_iff, Bool.not_eq_true']

theorem present?_eq_none_iff_get? {key : String} :
    present? args key = none ↔ ∀ v, args.get? key = some v → v.isNull = true := by
  simp [present?, Option.filter_eq_none_iff]

/-- The check of the keys blames a key that is not known. -/
theorem checkKeys_blamed : FailsWith (t.Blamed args) (t.checkKeys args) := by
  unfold checkKeys
  split
  · exact .ok _
  rename_i hclosed
  cases hfind : args.keys.find? fun key => !t.knows key with
  | none => exact .ok _
  | some key =>
    have hget := Members.get?_isSome_iff.mpr (List.mem_of_find?_eq_some hfind)
    obtain ⟨v, hv⟩ := Option.isSome_iff_exists.mp hget
    have hknows : t.knows key = false := by simpa using List.find?_some hfind
    refine .error ⟨key, ⟨_, rfl⟩, ?_⟩
    rw [hv]
    exact .unknown (Bool.eq_false_iff.mpr hclosed) hknows

theorem entityName_blamed : FailsWith (t.Blamed args) (entityName args) := by
  refine blamed_of_field (entityName_blames args) fun h => .name fun entity hentity => ?_
  by_contra hblank
  exact h ⟨entity, entityName_eq_ok_iff.mpr
    ⟨present?_eq_some_iff_get?.mpr ⟨hentity, rfl⟩, Bool.eq_false_iff.mpr hblank⟩⟩

/-- A field of an addition is blamed if it is missing and required, or does not fit. -/
theorem add_blamed (hverb : t.verb = .add) (hf : f ∈ t.type.fields) (draft : Draft) :
    FailsWith (t.Blamed args) (draft.add entity args f) := by
  refine blamed_of_field (add_blames entity args f draft) fun h => ?_
  rw [exists_add_eq_ok_iff] at h
  cases hvalue : present? args f.name with
  | none =>
    refine .missing hverb hf ?_ (present?_eq_none_iff_get?.mp hvalue)
    by_contra hrequired
    exact h ⟨fun hreq => absurd hreq hrequired, fun v hv => nomatch hvalue.symm.trans hv⟩
  | some v =>
    obtain ⟨hget, hnull⟩ := present?_eq_some_iff_get?.mp hvalue
    rw [hget]
    refine .unfit (by rw [hverb]; decide) hf hnull fun hfits => h ⟨fun _ => ?_, fun w hw => ?_⟩
    · rw [hvalue]
      rfl
    · cases hvalue.symm.trans hw
      exact hfits

/-- A field of an update is blamed if it does not fit. -/
theorem fieldChange_blamed (hverb : t.verb ≠ .delete) (hf : f ∈ t.type.fields)
    (hv : args.get? f.name = some v) : FailsWith (t.Blamed args) (fieldChange f v) := by
  refine blamed_of_field (fieldChange_blames f v) fun h => ?_
  rw [exists_fieldChange_eq_ok_iff, Classical.not_imp] at h
  rw [hv]
  exact .unfit hverb hf h.1 h.2

theorem fieldChanges_blamed (hverb : t.verb ≠ .delete) {fields : List EntityField}
    (hfields : ∀ f ∈ fields, f ∈ t.type.fields) :
    FailsWith (t.Blamed args) (fieldChanges args fields) := by
  induction fields with
  | nil => exact .ok _
  | cons f fields ih =>
    obtain ⟨hf, hfields⟩ := List.forall_mem_cons.mp hfields
    rw [fieldChanges]
    split
    · exact ih hfields
    · rename_i v hv
      exact .bind (fieldChange_blamed hverb hf hv) fun _ => .bind (ih hfields) fun _ => .ok _

/-- **Whatever a tool refuses, it blames a field at fault.**  The checks are made one after another,
and each of them looks at one field. -/
theorem validate_blamed (t : EntityTool) (args : Members) :
    FailsWith (t.Blamed args) (t.validate (.obj args)) := by
  refine .bind checkKeys_blamed fun _ => .bind entityName_blamed fun entity => ?_
  cases hverb : t.verb with
  | add => exact .bind (.foldlM (fun f hf => add_blamed hverb hf) _) fun _ => .ok _
  | update =>
    have hdelete : t.verb ≠ .delete := by rw [hverb]; decide
    exact .bind (fieldChanges_blamed hdelete fun _ hf => hf) fun _ => .ok _
  | delete => exact .ok _

/-! ## A field at fault is enough -/

/-- Arguments in which a field is at fault are refused, whatever the other fields are. -/
theorem Fault.refused {field : String} (h : t.Fault field (args.get? field)) :
    ∃ failure, t.validate (.obj args) = .error failure := by
  cases hvalidate : t.validate (.obj args) with
  | error failure => exact ⟨failure, rfl⟩
  | ok c =>
    exfalso
    obtain ⟨_, hkeys, hrest⟩ := bind_eq_ok_iff.mp hvalidate
    obtain ⟨entity, hentity, _⟩ := bind_eq_ok_iff.mp hrest
    -- If the arguments were accepted, each check would have passed, and one of them looks for this
    -- very fault.
    generalize hvalue : args.get? field = value? at h
    cases h with
    | unknown hclosed hunknown =>
      have hkey := Members.get?_isSome_iff.mp (Option.isSome_of_eq_some hvalue)
      have hknown := checkKeys_eq_ok_iff_knows.mp hkeys hclosed field hkey
      exact Bool.false_ne_true (hunknown.symm.trans hknown)
    | name hbad =>
      obtain ⟨hpresent, hblank⟩ := entityName_eq_ok_iff.mp hentity
      have hget := (present?_eq_some_iff_get?.mp hpresent).1
      exact Bool.false_ne_true (hblank.symm.trans (hbad entity (hvalue.symm.trans hget)))
    -- Required fields are all there in what is accepted, and `null` does not count.
    | @missing f _ hverb hf hrequired hnull =>
      have hdelete : t.verb ≠ .delete := by rw [hverb]; decide
      obtain ⟨_, _, hthere, _⟩ := (exists_validate_eq_ok_iff hdelete).mp ⟨c, hvalidate⟩
      have hname : f.name ∈ t.inputRequired := by
        rw [inputRequired, hverb]
        exact List.mem_map.mpr ⟨f, List.mem_filter.mpr ⟨hf, hrequired⟩, rfl⟩
      have habsent : present? args f.name = none :=
        present?_eq_none_iff_get?.mpr fun v hv => hnull v (hvalue.symm.trans hv)
      have hsome := hthere f.name hname
      rw [habsent] at hsome
      exact Bool.false_ne_true hsome
    | @unfit f v hverb hf hnull hbad =>
      obtain ⟨_, _, _, hfits⟩ := (exists_validate_eq_ok_iff hverb).mp ⟨c, hvalidate⟩
      exact hbad (hfits f hf v (present?_eq_some_iff_get?.mpr ⟨hvalue, hnull⟩))

/-- **Refusals blame a field that is really at fault.**  Take any tool of any type, made out of a
document or not.  Whatever arguments it refuses, it names a field that is at fault; and all
arguments that have the same value for this field, or like the refused ones have none, are refused
as well. -/
theorem refused_of_blamed {t : EntityTool} {args : Members} {failure : Failure}
    (h : t.validate (.obj args) = .error failure) :
    ∃ field reason, failure = .invalidArgument field reason ∧ t.Fault field (args.get? field) ∧
      ∀ args' : Members, args'.get? field = args.get? field →
        ∃ failure', t.validate (.obj args') = .error failure' := by
  obtain ⟨field, ⟨reason, rfl⟩, hfault⟩ := t.validate_blamed args failure h
  refine ⟨field, reason, rfl, hfault, fun args' hsame => ?_⟩
  rw [← hsame] at hfault
  exact hfault.refused

/-- Two things are wrong with this soup: where it is from, and that it serves three. -/
def badSoup : Members :=
  [("servings", .ofNat 3), ("from", .arr [.str "Sea", .str " "]), ("name", .str "Soup")]

def goodSoup : Members :=
  [("servings", .ofNat 4), ("from", .arr [.str "Sea"]), ("name", .str "Soup")]

/-- The number of servings is blamed, as it is declared first, and nothing that serves three passes;
with another number and from the sea alone, the soup does. -/
theorem refused_of_blamed_badSoup :
    let t : EntityTool := ⟨.add, dishType⟩
    t.validate (.obj badSoup) = .error (.invalidArgument "servings" "must be one of: 2, 4") ∧
      t.Fault "servings" (some (.ofNat 3)) ∧
      (∀ args : Members, args.get? "servings" = some (.ofNat 3) →
        ∃ failure, t.validate (.obj args) = .error failure) ∧
      t.validate (.obj goodSoup) = .ok
        (.create ⟨"Soup", "dish", ["Servings: 4"]⟩ [⟨"Soup", "Sea", "grows_at"⟩]) := by
  intro t
  have hsoup : t.validate (.obj badSoup) =
      .error (.invalidArgument "servings" "must be one of: 2, 4") := by rfl
  obtain ⟨field, reason, heq, hfault, hsame⟩ := refused_of_blamed hsoup
  cases heq
  exact ⟨hsoup, hfault, hsame, by rfl⟩

end EntityTool

end Tool

end GraphKeeper

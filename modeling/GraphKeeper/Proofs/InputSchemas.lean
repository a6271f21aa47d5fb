/-
  The input schema of a tool and its check of arguments agree.

  A tool says in `inputSchema` what arguments it takes, and checks them field by field on its own.
  The two are brought together over the fields of the type: a value passes `checkValue` exactly if
  it satisfies the `fieldSchema` (`checkValue_eq_ok_iff`).  The input schema of a call says that of
  every member (`satisfies_inputSchema_iff`), and the checks of an addition and of an update come to
  the same for the members that are not `null` (`exists_validate_eq_ok_iff`).

  A schema cannot say everything.  That the name is not blank and that relationships name their
  targets (`NamesTargets`) is asked besides, and unknown keys of a closed type are refused even if
  their value is `null`.
-/
import GraphKeeper.Proofs.EntityTools
import GraphKeeper.Proofs.EntityTypes
import GraphKeeper.Proofs.JsonSchemas

namespace GraphKeeper

open Schema Json

namespace Tool

variable {f : EntityField} {args : Members} {entity : String} {v : Json}

/-! ## Values that are there -/

/-- A value is there exactly if it is among the members that are not `null`. -/
theorem present?_eq_some_iff (hargs : args.keys.Nodup) {key : String} :
    present? args key = some v ↔ (key, v) ∈ args.withoutNulls := by
  rw [present?, Option.filter_eq_some_iff, Members.get?_eq_some_iff hargs,
    Members.mem_withoutNulls, Bool.not_eq_true']

/-- So is a key. -/
theorem present?_isSome_iff (hargs : args.keys.Nodup) {key : String} :
    (present? args key).isSome ↔ key ∈ args.withoutNulls.keys := by
  rw [Option.isSome_iff_exists, Members.mem_keys_withoutNulls]
  exact exists_congr fun v => present?_eq_some_iff hargs

/-! ## Schemas of values -/

/-- The types that a tool checks are those that a schema names. -/
theorem accepts_iff (type : ValueType) : type.accepts v = true ↔ type.name ∈ v.typeNames := by
  cases v with
  -- Of numbers, those without a point count as integers too.
  | num n => cases n <;> cases type <;> simp [ValueType.accepts, ValueType.name, typeNames]
  | _ => cases type <;> simp [ValueType.accepts, ValueType.name, typeNames]

/-- A value is allowed if it is among those listed, or if none are. -/
theorem checkAllowed_eq_ok_iff (field : String) {allowed : Option (List Json)} :
    checkAllowed field allowed v = .ok () ↔ ∀ vs, allowed = some vs → v.isAmong vs = true := by
  cases allowed with
  | none => exact ⟨fun _ _ h => (nomatch h), fun _ => rfl⟩
  | some vs => by_cases h : v.isAmong vs = true <;> simp [checkAllowed, h]

namespace EntityTool

/-- The schema of the items of an array. -/
def itemSchema (rule : ItemRule) : Json :=
  .obj (("type", .str rule.type.name) :: allowedMember rule.allowed)

/-- The keywords that bind the items of an array. -/
theorem member?_itemSchema (rule : ItemRule) (key : String) :
    (itemSchema rule).member? key =
      if key = "type" then some (.str rule.type.name)
      else if key = "enum" then rule.allowed.map .arr else none := by
  unfold itemSchema member? allowedMember
  simp only
  rw [Members.get?_cons, Members.get?_toList]

/-- The keywords that bind the values of a field; its description binds none. -/
theorem member?_fieldSchema {key : String} (hkey : key ≠ "description") :
    (fieldSchema f).member? key =
      if key = "type" then some (.str f.type.name)
      else if key = "enum" then f.allowed.map .arr
      else if key = "items" then f.items.map itemSchema else none := by
  have hdescription : Members.get? (if fieldDescription f = "" then []
      else [("description", .str (fieldDescription f))]) key = none := by
    split
    · rfl
    · rw [Members.get?_cons, if_neg hkey]
      rfl
  unfold fieldSchema member? allowedMember
  simp only
  rw [Members.get?_append, Members.get?_append, Members.get?_append, Members.get?_cons,
    hdescription,
    Members.get?_toList, Members.get?_toList]
  by_cases htype : key = "type"
  · simp [htype]
  by_cases henum : key = "enum"
  · simp [henum, Members.get?]
  · simp [htype, henum, Members.get?]
    rfl

/-- An item satisfies its schema by its type and its value; nothing in it is looked into. -/
theorem satisfies_itemSchema_iff {rule : ItemRule} :
    Satisfies (itemSchema rule) v ↔
      rule.type.name ∈ v.typeNames ∧ ∀ vs, rule.allowed = some vs → v.isAmong vs = true := by
  have hkeywords := member?_itemSchema rule
  rw [satisfies_iff_of_flat (hkeywords _) (hkeywords _) (hkeywords _) (hkeywords _) (hkeywords _)
    (hkeywords _)]
  exact and_congr_right' (and_iff_left fun _ _ h => nomatch h)

/-- A value satisfies the schema of a field by its type, its value, and its items if it is
an array. -/
theorem satisfies_fieldSchema_iff :
    Satisfies (fieldSchema f) v ↔
      f.type.name ∈ v.typeNames ∧ (∀ vs, f.allowed = some vs → v.isAmong vs = true) ∧
        ∀ rule vs, f.items = some rule → v = .arr vs → ∀ w ∈ vs, Satisfies (itemSchema rule) w := by
  -- No other keyword of schemas stands there, so the schema is a flat one.
  have hkeywords := fun key (hkey : key ≠ "description") => member?_fieldSchema (f := f) hkey
  rw [satisfies_iff_of_flat (hkeywords _ (by decide)) (hkeywords _ (by decide))
    (hkeywords _ (by decide)) (hkeywords _ (by decide)) (hkeywords _ (by decide))
    (hkeywords _ (by decide))]
  refine and_congr_right' (and_congr_right' ⟨fun h rule vs hrule => ?_, fun h r vs hr => ?_⟩)
  · exact h (itemSchema rule) vs (Option.map_eq_some_iff.mpr ⟨rule, hrule, rfl⟩)
  · obtain ⟨rule, hrule, rfl⟩ := Option.map_eq_some_iff.mp hr
    exact h rule vs hrule

/-- The check of an item is its schema. -/
theorem checkItem_eq_ok_iff {field : String} {rule : ItemRule} :
    checkItem field rule v = .ok () ↔ Satisfies (itemSchema rule) v := by
  rw [satisfies_itemSchema_iff, ← accepts_iff, ← checkAllowed_eq_ok_iff field]
  unfold checkItem
  exact unless_eq_ok_iff

/-- **The check of a value is the schema of its field.** -/
theorem checkValue_eq_ok_iff : checkValue f v = .ok () ↔ Satisfies (fieldSchema f) v := by
  rw [satisfies_fieldSchema_iff, ← accepts_iff, ← checkAllowed_eq_ok_iff f.name]
  unfold checkValue
  refine unless_eq_ok_iff.trans (and_congr_right' ?_)
  rw [bind_eq_ok_iff]
  constructor
  · rintro ⟨_, hallowed, h⟩
    refine ⟨hallowed, ?_⟩
    rintro rule vs hrule rfl w hw
    rw [hrule] at h
    exact checkItem_eq_ok_iff.mp (forM_eq_ok_iff.mp h w hw)
  · rintro ⟨hallowed, h⟩
    refine ⟨(), hallowed, ?_⟩
    -- Items are checked only if there are any and there is a rule for them.
    split
    · rename_i vs rule hrule
      exact forM_eq_ok_iff.mpr fun w hw => checkItem_eq_ok_iff.mpr (h rule vs hrule rfl w hw)
    · rfl

end EntityTool

/-! ## What a schema cannot say -/

/-- The value is the name of a target: a string that is not blank. -/
def IsTarget (v : Json) : Prop := ∃ s, v = .str s ∧ Text.isBlank s = false

/-- The value names targets: it is the name of one, or an array of names. -/
def NamesTargets (v : Json) : Prop := IsTarget v ∨ ∃ vs, v = .arr vs ∧ ∀ w ∈ vs, IsTarget w

/-- The tool finds the name of a target exactly in a target. -/
theorem targetName?_isSome_iff : (targetName? v).isSome ↔ IsTarget v := by
  cases v with
  | str s =>
    cases h : Text.isBlank s with
    | true => simp [targetName?, IsTarget, h]
    | false => simp [targetName?, IsTarget, h]
  | _ => simp [targetName?, IsTarget]

/-- In a list it finds all names or none. -/
theorem mapM_targetName?_isSome_iff {vs : List Json} :
    (vs.mapM targetName?).isSome ↔ ∀ w ∈ vs, IsTarget w := by
  induction vs with
  | nil => exact ⟨fun _ _ h => absurd h List.not_mem_nil, fun _ => rfl⟩
  | cons v vs ih =>
    rw [List.forall_mem_cons, ← ih, ← targetName?_isSome_iff, List.mapM_cons]
    cases targetName? v with
    | none => simp
    | some name => cases vs.mapM targetName? <;> simp

/-- **The targets of a value are read exactly if it names targets.** -/
theorem exists_targets_eq_ok_iff : (∃ names, targets f v = .ok names) ↔ NamesTargets v := by
  unfold targets
  split
  · rename_i vs
    have hvs : NamesTargets (.arr vs) ↔ ∀ w ∈ vs, IsTarget w := by simp [NamesTargets, IsTarget]
    rw [hvs, ← mapM_targetName?_isSome_iff]
    cases hfound : vs.mapM targetName? <;> simp [hfound]
  -- A value that is no array counts as a list of one.
  · rename_i hv
    have hone : NamesTargets v ↔ ∀ w ∈ [v], IsTarget w := by
      rw [List.forall_mem_singleton, NamesTargets]
      exact or_iff_left fun ⟨vs, hvs, _⟩ => hv vs hvs
    rw [hone, ← mapM_targetName?_isSome_iff]
    cases hfound : [v].mapM targetName? <;> simp only [hfound] <;> simp

/-- A value that a field takes. -/
structure Fits (f : EntityField) (v : Json) : Prop where
  schema : Satisfies (EntityTool.fieldSchema f) v
  targets : ∀ kind, f.role = .relationship kind → NamesTargets v

namespace EntityTool

/-- Both tools check a value and then fail for nothing but its targets: such a value fits. -/
theorem exists_checked_eq_ok_iff {α : Type} {next : Unit → Except Failure α}
    (hnext : (∃ a, next () = .ok a) ↔ ∀ kind, f.role = .relationship kind → NamesTargets v) :
    (∃ a, (checkValue f v >>= next) = .ok a) ↔ Fits f v := by
  rw [exists_bind_eq_ok_iff]
  constructor
  · rintro ⟨_, hcheck, h⟩
    exact ⟨checkValue_eq_ok_iff.mp hcheck, hnext.mp h⟩
  · rintro ⟨hschema, htargets⟩
    exact ⟨(), checkValue_eq_ok_iff.mpr hschema, hnext.mpr htargets⟩

/-! ## Additions -/

/-- One field of an addition: it may be missing if it is not required, and its value must fit. -/
theorem exists_add_eq_ok_iff {draft : Draft} :
    (∃ draft', Draft.add entity args draft f = .ok draft') ↔
      (f.required = true → (present? args f.name).isSome) ∧
        ∀ v, present? args f.name = some v → Fits f v := by
  unfold Draft.add
  cases hv : present? args f.name with
  | none => cases f.required <;> simp
  | some v =>
    simp only [Option.isSome_some, implies_true, true_and, Option.some.injEq, forall_eq']
    refine exists_checked_eq_ok_iff ?_
    -- Only targets can be at fault once the value has been checked.
    cases hrole : f.role with
    | key => exact iff_of_true ⟨_, rfl⟩ fun _ h => nomatch h
    | metadata =>
      refine iff_of_true ?_ fun _ h => nomatch h
      cases renderValue v <;> exact ⟨_, rfl⟩
    | relationship kind =>
      simp only [Role.relationship.injEq, forall_eq', exists_bind_eq_ok_iff]
      exact (exists_congr fun names => and_iff_left ⟨_, rfl⟩).trans exists_targets_eq_ok_iff

/-- **An addition is accepted when the required fields are there and each value fits.** -/
theorem exists_creation_eq_ok_iff {t : EntityTool} :
    (∃ c, t.creation entity args = .ok c) ↔ ∀ f ∈ t.type.fields,
      (f.required = true → (present? args f.name).isSome) ∧
        ∀ v, present? args f.name = some v → Fits f v := by
  have hfields : (∃ draft, t.type.fields.foldlM (Draft.add entity args) ⟨[], []⟩ = .ok draft) ↔ _ :=
    exists_foldlM_eq_ok_iff fun _ f => exists_add_eq_ok_iff (f := f)
  rw [creation, exists_bind_eq_ok_iff, ← hfields]
  exact exists_congr fun draft => and_iff_left ⟨_, rfl⟩

/-! ## Updates -/

/-- One field of an update: its value must fit, unless it clears the field. -/
theorem exists_fieldChange_eq_ok_iff :
    (∃ change, fieldChange f v = .ok change) ↔ (v.isNull = false → Fits f v) := by
  unfold fieldChange
  cases hnull : v.isNull with
  -- To clear a field is always fine.
  | true =>
    refine iff_of_true ?_ fun h => nomatch h
    cases f.role <;> exact ⟨_, rfl⟩
  | false =>
    simp only [Bool.not_false, if_true, forall_const, Bool.false_eq_true, if_false]
    refine exists_checked_eq_ok_iff ?_
    cases hrole : f.role with
    | key => exact iff_of_true ⟨_, rfl⟩ fun _ h => nomatch h
    | metadata => exact iff_of_true ⟨_, rfl⟩ fun _ h => nomatch h
    | relationship kind =>
      simp only [Role.relationship.injEq, forall_eq', exists_bind_eq_ok_iff]
      exact (exists_congr fun names => and_iff_left ⟨_, rfl⟩).trans exists_targets_eq_ok_iff

/-- All fields of an update; those that are not mentioned are passed over. -/
theorem exists_fieldChanges_eq_ok_iff {fields : List EntityField} :
    (∃ changes, fieldChanges args fields = .ok changes) ↔
      ∀ f ∈ fields, ∀ v, present? args f.name = some v → Fits f v := by
  induction fields with
  | nil => exact ⟨fun _ _ h => absurd h List.not_mem_nil, fun _ => ⟨[], rfl⟩⟩
  | cons f fields ih =>
    rw [List.forall_mem_cons, ← ih, fieldChanges, present?]
    cases args.get? f.name with
    | none => simp
    | some v =>
      have hfits : (∃ change, fieldChange f v = .ok change) ↔
          ∀ w, (some v).filter (fun w => !w.isNull) = some w → Fits f w := by
        rw [exists_fieldChange_eq_ok_iff]
        simp [Option.filter_eq_some_iff]
      rw [← hfits, exists_bind_eq_ok_iff]
      constructor
      · rintro ⟨change, hchange, h⟩
        obtain ⟨changes, hchanges, _⟩ := exists_bind_eq_ok_iff.mp h
        exact ⟨⟨change, hchange⟩, changes, hchanges⟩
      · rintro ⟨⟨change, hchange⟩, changes, hchanges⟩
        exact ⟨change, hchange, exists_bind_eq_ok_iff.mpr ⟨changes, hchanges, _, rfl⟩⟩

/-- **An update is accepted when each value that is not `null` fits.** -/
theorem exists_updating_eq_ok_iff {t : EntityTool} :
    (∃ c, t.updating entity args = .ok c) ↔
      ∀ f ∈ t.type.fields, ∀ v, present? args f.name = some v → Fits f v := by
  rw [updating, exists_bind_eq_ok_iff, ← exists_fieldChanges_eq_ok_iff]
  exact exists_congr fun changes => and_iff_left ⟨_, rfl⟩

/-! ## Whole calls -/

variable {t : EntityTool}

/-- The schemas of the fields of a tool, under their names. -/
def fieldSchemas (t : EntityTool) : Members := t.inputFields.map fun f => (f.name, fieldSchema f)

/-- The tools that write describe all fields of their type. -/
theorem mem_fieldSchemas (hverb : t.verb ≠ .delete) {key : String} {rule : Json} :
    (key, rule) ∈ t.fieldSchemas ↔ ∃ f ∈ t.type.fields, f.name = key ∧ fieldSchema f = rule := by
  have hfields : t.inputFields = t.type.fields := by
    unfold inputFields
    split
    · contradiction
    · rfl
  rw [fieldSchemas, hfields, List.mem_map]
  simp only [Prod.mk.injEq]

/-- A key is known to a tool exactly if its input schema describes it. -/
theorem knows_iff (hverb : t.verb ≠ .delete) {key : String} :
    t.knows key = true ↔ key ∈ t.fieldSchemas.keys := by
  have hfield : (t.type.field? key).isSome ↔ ∃ f ∈ t.type.fields, f.name = key := by
    simp [EntityType.field?]
  have hkeys : key ∈ t.fieldSchemas.keys ↔ ∃ f ∈ t.type.fields, f.name = key := by
    rw [Members.keys, List.mem_map]
    simp [mem_fieldSchemas hverb]
  rw [hkeys, ← hfield, knows]
  split
  · contradiction
  · rfl

/-- An object keeps to the input schema of a closed type if all its keys are described. -/
theorem keepsTo_inputSchema_iff :
    KeepsTo t.inputSchema args ↔
      (t.type.additional = false → ∀ key ∈ args.keys, key ∈ t.fieldSchemas.keys) := by
  have hproperties : t.inputSchema.member? "properties" = some (.obj t.fieldSchemas) := rfl
  have hadditional : t.inputSchema.member? "additionalProperties" =
      some (.bool t.type.additional) := rfl
  unfold KeepsTo
  rw [hproperties, hadditional]
  simp

/-- The check of the keys passes exactly if all of them are known, or the type is open. -/
theorem checkKeys_eq_ok_iff_knows :
    t.checkKeys args = .ok () ↔
      (t.type.additional = false → ∀ key ∈ args.keys, t.knows key = true) := by
  rw [checkKeys]
  cases t.type.additional with
  | true => simp
  | false =>
    -- A closed type is refused for the first key that is not known, so none must be found.
    have hnone : (args.keys.find? fun key => !t.knows key) = none ↔
        ∀ key ∈ args.keys, t.knows key = true := by simp
    rw [forall_prop_of_true rfl, ← hnone]
    cases args.keys.find? fun key => !t.knows key <;> simp

/-- The check of the keys is what the input schema says of other members. -/
theorem checkKeys_eq_ok_iff (hverb : t.verb ≠ .delete) :
    t.checkKeys args = .ok () ↔ KeepsTo t.inputSchema args := by
  rw [keepsTo_inputSchema_iff, checkKeys_eq_ok_iff_knows]
  exact forall_congr' fun _ => forall₂_congr fun _ _ => knows_iff hverb

/-- The input schema asks of the members what the schemas of their fields ask. -/
theorem satisfies_inputSchema_iff (hverb : t.verb ≠ .delete) :
    Satisfies t.inputSchema (.obj args) ↔
      (∀ f ∈ t.type.fields, ∀ v, (f.name, v) ∈ args → Satisfies (fieldSchema f) v) ∧
      (∀ key ∈ t.inputRequired, key ∈ args.keys) ∧ KeepsTo t.inputSchema args := by
  have hproperties : t.inputSchema.member? "properties" = some (.obj t.fieldSchemas) := rfl
  have hrequired : t.inputSchema.member? "required" = some (.ofStrings t.inputRequired) := rfl
  rw [satisfies_obj_iff rfl rfl hproperties hrequired]
  refine and_congr_left' ⟨fun h f hf v hv => ?_, fun h key rule v hrule hv => ?_⟩
  · exact h f.name _ v ((mem_fieldSchemas hverb).mpr ⟨f, hf, rfl, rfl⟩) hv
  · obtain ⟨f, hf, rfl, rfl⟩ := (mem_fieldSchemas hverb).mp hrule
    exact h f hf v hv

/-- A call looks at the keys and at the name before its last step, whatever that is. -/
theorem exists_last_eq_ok_iff (hverb : t.verb ≠ .delete)
    {last : String → Except Failure EntityChange}
    {p : Prop} (hlast : ∀ entity, entityName args = .ok entity → ((∃ c, last entity = .ok c) ↔ p)) :
    (∃ c, (t.checkKeys args >>= fun _ => entityName args >>= last) = .ok c) ↔
      KeepsTo t.inputSchema args ∧ (∃ entity, entityName args = .ok entity) ∧ p := by
  rw [← checkKeys_eq_ok_iff hverb, exists_bind_eq_ok_iff]
  constructor
  · rintro ⟨_, hkeys, h⟩
    obtain ⟨entity, hentity, h⟩ := exists_bind_eq_ok_iff.mp h
    exact ⟨hkeys, ⟨entity, hentity⟩, (hlast entity hentity).mp h⟩
  · rintro ⟨hkeys, ⟨entity, hentity⟩, h⟩
    exact ⟨(), hkeys, exists_bind_eq_ok_iff.mpr ⟨entity, hentity, (hlast entity hentity).mpr h⟩⟩

/-- **The checks of a call, in terms of the values that are there.** -/
theorem exists_validate_eq_ok_iff (hverb : t.verb ≠ .delete) :
    (∃ c, t.validate (.obj args) = .ok c) ↔
      KeepsTo t.inputSchema args ∧ (∃ entity, entityName args = .ok entity) ∧
      (∀ key ∈ t.inputRequired, (present? args key).isSome) ∧
      ∀ f ∈ t.type.fields, ∀ v, present? args f.name = some v → Fits f v := by
  obtain ⟨verb, type⟩ := t
  cases verb with
  | delete => exact absurd rfl hverb
  | add =>
    refine exists_last_eq_ok_iff hverb fun entity _ => exists_creation_eq_ok_iff.trans ?_
    simp only [inputRequired, EntityType.required, List.forall_mem_map, List.forall_mem_filter,
      forall₂_and]
  | update =>
    -- The name is required anyway.
    refine exists_last_eq_ok_iff hverb fun entity hentity => exists_updating_eq_ok_iff.trans ?_
    have hname : (present? args keyName).isSome := by
      rw [(entityName_eq_ok_iff.mp hentity).1]
      rfl
    simp only [inputRequired, List.forall_mem_singleton, hname, true_and]

/-- The input schema itself sees to it that there is a name. -/
theorem exists_name {doc : Document} (hdoc : EntityType.ofDocument doc = .ok t.type)
    (hverb : t.verb ≠ .delete) (h : Satisfies t.inputSchema (.obj args)) :
    ∃ name, (keyName, .str name) ∈ args := by
  obtain ⟨hfields, hrequired, _⟩ := (satisfies_inputSchema_iff hverb).mp h
  -- Every type has the key as a required field, whose values are strings.
  obtain ⟨f, hf, hname, htype, hfrequired⟩ := exists_key hdoc
  have hkey : keyName ∈ t.inputRequired := by
    unfold inputRequired
    split
    · exact List.mem_map.mpr ⟨f, List.mem_filter.mpr ⟨hf, hfrequired⟩, hname⟩
    · exact List.mem_singleton.mpr rfl
  obtain ⟨⟨_, v⟩, hv, rfl⟩ := List.mem_map.mp (hrequired keyName hkey)
  have hstring := (satisfies_fieldSchema_iff.mp (hfields f hf v (hname ▸ hv))).1
  rw [htype, ← accepts_iff] at hstring
  cases v with
  | str name => exact ⟨name, hv⟩
  | _ => nomatch hstring

/-- **A tool accepts the arguments that its input schema describes.**  Take any tool that adds or
updates entities of a type that was made out of a document.  It accepts arguments exactly if they
are an object; the object has no key that a closed input schema does not describe; what is left of
it without `null`s satisfies the input schema; and there the name is not blank and every value of a
relationship names targets. -/
theorem accepted_iff_satisfies {doc : Document} {t : EntityTool} {args : Json}
    (hdoc : EntityType.ofDocument doc = .ok t.type) (hverb : t.verb ≠ .delete)
    (hargs : ∀ ms : Members, args = .obj ms → ms.keys.Nodup) :
    (∃ c, t.validate args = .ok c) ↔
      ∃ ms : Members, args = .obj ms ∧ KeepsTo t.inputSchema ms ∧
        Satisfies t.inputSchema (.obj ms.withoutNulls) ∧
        (∀ name, (keyName, .str name) ∈ ms.withoutNulls → Text.isBlank name = false) ∧
        ∀ f kind, (f, kind) ∈ t.type.relationshipFields →
          ∀ v, (f.name, v) ∈ ms.withoutNulls → NamesTargets v := by
  cases args with
  | obj ms =>
    have hms : (Members.keys ms).Nodup := hargs ms rfl
    have hobj : ∀ p : Members → Prop, (∃ ns : Members, Json.obj ms = .obj ns ∧ p ns) ↔ p ms := by
      simp
    rw [hobj, exists_validate_eq_ok_iff hverb]
    simp only [entityName_eq_ok_iff, present?_eq_some_iff hms, present?_isSome_iff hms]
    constructor
    · rintro ⟨hkeys, ⟨entity, hentity, hblank⟩, hrequired, hfits⟩
      refine ⟨hkeys, ?_, fun name hname => ?_, fun f kind hf v hv => ?_⟩
      · exact (satisfies_inputSchema_iff hverb).mpr ⟨fun f hf v hv => (hfits f hf v hv).schema,
          hrequired, hkeys.subset Members.keys_withoutNulls_subset⟩
      · have hsame := (present?_eq_some_iff hms).mpr hentity
        rw [(present?_eq_some_iff hms).mpr hname] at hsame
        cases hsame
        exact hblank
      · obtain ⟨hf, hrole⟩ := mem_relationshipFields.mp hf
        exact (hfits f hf v hv).targets kind hrole
    -- The other way round, the schema provides the name, which is checked besides.
    · rintro ⟨hkeys, hschema, hblank, htargets⟩
      obtain ⟨name, hname⟩ := exists_name hdoc hverb hschema
      obtain ⟨hfields, hrequired, _⟩ := (satisfies_inputSchema_iff hverb).mp hschema
      exact ⟨hkeys, ⟨name, hname, hblank name hname⟩, hrequired, fun f hf v hv =>
        ⟨hfields f hf v hv, fun kind hrole =>
          htargets f kind (mem_relationshipFields.mpr ⟨hf, hrole⟩) v hv⟩⟩
  | _ => exact ⟨fun ⟨_, h⟩ => (nomatch h), fun ⟨_, h, _⟩ => (nomatch h)⟩

/-! ## A closed type -/

/-- A document with restricted values, restricted items and a relationship of any length. -/
def dishDocument : Document where
  name := "dish"
  description := ""
  properties :=
    [("servings", ⟨.integer, "", true, some [.ofNat 2, .ofNat 4], none, none⟩),
      ("tastes", ⟨.array, "", false, none, some ⟨.string, some [.str "hot", .str "sour"]⟩, none⟩),
      ("from", ⟨.array, "", false, none, none, some ⟨"grows_at", ""⟩⟩)]
  additional := false

def dishType : EntityType := ((EntityType.ofDocument dishDocument).toOption).getD ⟨"", "", [], true⟩

/-- An update that clears one field and sets two. -/
def soupArgs : Members :=
  [("from", .arr [.str "Farm", .str "Sea"]), ("servings", .null), ("tastes", .arr [.str "hot"]),
    ("name", .str "Soup")]

/-- The update is accepted, so what is left of it satisfies the schema; with one more key it is
refused, although the key has no value. -/
theorem accepted_soup :
    let t : EntityTool := ⟨.update, dishType⟩
    Satisfies t.inputSchema (.obj soupArgs.withoutNulls) ∧
      ¬ ∃ c, t.validate (.obj (("colour", .null) :: soupArgs)) = .ok c := by
  intro t
  have hdoc : EntityType.ofDocument dishDocument = .ok t.type := rfl
  have hnodup : ∀ ms : Members, ms.keys.Nodup → ∀ ns : Members, Json.obj ms = .obj ns →
      ns.keys.Nodup := fun _ h _ heq => Json.obj.inj heq ▸ h
  constructor
  · have haccepted : ∃ c, t.validate (.obj soupArgs) = .ok c := ⟨_, rfl⟩
    obtain ⟨_, hobj, _, hschema, _⟩ :=
      (accepted_iff_satisfies hdoc (by decide) (hnodup _ (by decide))).mp haccepted
    exact Json.obj.inj hobj ▸ hschema
  · intro haccepted
    obtain ⟨_, hobj, hkeys, _⟩ :=
      (accepted_iff_satisfies hdoc (by decide) (hnodup _ (by decide))).mp haccepted
    cases hobj
    exact absurd (keepsTo_inputSchema_iff.mp hkeys rfl "colour" List.mem_cons_self) (by decide)

end EntityTool

end Tool

end GraphKeeper

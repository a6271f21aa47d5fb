/-
  What the tools of an entity type ask of the graph.

  Once the arguments have passed all checks, the change follows from the fields of the type and the
  values of the arguments alone: each field contributes what `addedChange?` and `addedEdges` say to
  a new entity, or what `metadataChange?` and `relationshipChange?` say to an update, in the order
  of the fields (`creation_eq_ok`, `updating_eq_ok`).  So nobody who cares for the effect of a call
  needs to go through its checks again.
-/
import GraphKeeper.Proofs.MetadataLines
import GraphKeeper.Proofs.Sequences
import GraphKeeper.Tool.EntityTool

namespace GraphKeeper.Tool

open Schema

variable {f : EntityField} {args : Members} {entity : String} {v : Json}

/-! ## Names -/

/-- The name is a string that is not blank. -/
theorem entityName_eq_ok_iff :
    entityName args = .ok entity ↔
      present? args keyName = some (.str entity) ∧ Text.isBlank entity = false := by
  unfold entityName
  cases present? args keyName with
  | none => simp
  | some v =>
    cases v with
    | str s =>
      constructor
      · intro h
        simp only at h
        split at h
        · nomatch h
        · rename_i hs
          cases h
          exact ⟨rfl, Bool.eq_false_iff.mpr hs⟩
      · rintro ⟨hs, hblank⟩
        cases hs
        exact if_neg (ne_true_of_eq_false hblank)
    | _ => simp

/-! ## Targets -/

/-- The text, if the value is one. -/
def text? : Json → Option String
  | .str s => some s
  | _ => none

/-- The names in a value of a relationship. -/
def namesIn : Json → List String
  | .arr vs => vs.filterMap text?
  | v => (text? v).toList

/-- A target is a text; that it is not blank is not needed here. -/
theorem text?_of_targetName? {name : String} (h : targetName? v = some name) :
    text? v = some name := by
  cases v with
  | str s =>
    rw [targetName?] at h
    split at h
    · nomatch h
    · exact h
  | _ => nomatch h

theorem filterMap_text?_of_mapM {vs : List Json} :
    ∀ {names : List String}, vs.mapM targetName? = some names → vs.filterMap text? = names := by
  induction vs with
  | nil =>
    intro names h
    cases h
    rfl
  | cons v vs ih =>
    intro names h
    rw [List.mapM_cons] at h
    obtain ⟨name, hname, h⟩ := Option.bind_eq_some_iff.mp h
    obtain ⟨rest, hrest, h⟩ := Option.bind_eq_some_iff.mp h
    cases h
    rw [List.filterMap_cons_some (text?_of_targetName? hname), ih hrest]

/-- Targets are the names in the value, each one once. -/
theorem targets_eq_ok {names : List String} (h : targets f v = .ok names) :
    names = distinct (namesIn v) := by
  unfold targets at h
  split at h
  · rename_i vs
    cases hfound : vs.mapM targetName? with
    | none =>
      simp only [hfound] at h
      nomatch h
    | some found =>
      simp only [hfound] at h
      cases h
      rw [namesIn, filterMap_text?_of_mapM hfound]
  · rename_i hv
    cases hfound : [v].mapM targetName? with
    | none =>
      simp only [hfound] at h
      nomatch h
    | some found =>
      simp only [hfound] at h
      cases h
      rw [← filterMap_text?_of_mapM hfound]
      cases v with
      | arr vs => exact absurd rfl (hv vs)
      | _ => rfl

/-! ## Updates -/

/-- The change of metadata that the arguments ask for in a field. -/
def metadataChange? (args : Members) (f : EntityField) : Option MetadataChange :=
  match f.role with
  | .metadata => (args.get? f.name).map fun v => ⟨f.label, renderValue v⟩
  | _ => none

/-- The change of a relationship that the arguments ask for in a field. -/
def relationshipChange? (args : Members) (f : EntityField) : Option RelationshipChange :=
  match f.role with
  | .relationship kind => (args.get? f.name).map fun v => ⟨kind, distinct (namesIn v)⟩
  | _ => none

/-- A change of a relationship is one of edges of its kind. -/
theorem role_of_relationshipChange? {c : RelationshipChange}
    (h : relationshipChange? args f = some c) : f.role = .relationship c.kind := by
  unfold relationshipChange? at h
  split at h
  · rename_i kind hrole
    obtain ⟨_, _, rfl⟩ := Option.map_eq_some_iff.mp h
    exact hrole
  · nomatch h

namespace EntityTool

/-- The change that a field asks for, once its value has been checked. -/
theorem fieldChange_eq_ok {change : Option (MetadataChange ⊕ RelationshipChange)}
    (h : fieldChange f v = .ok change) :
    change = match f.role with
      | .key => none
      | .metadata => some (.inl ⟨f.label, renderValue v⟩)
      | .relationship kind => some (.inr ⟨kind, distinct (namesIn v)⟩) := by
  unfold fieldChange at h
  cases hnull : v.isNull with
  -- `null` is not checked, and asks for what no names would ask for.
  | true =>
    have hv : v = .null := by
      cases v with
      | null => rfl
      | _ => nomatch hnull
    subst hv
    cases hrole : f.role with
    | key => rw [hrole] at h; cases h; rfl
    | metadata => rw [hrole] at h; cases h; rfl
    | relationship kind => rw [hrole] at h; cases h; rfl
  | false =>
    simp only [hnull, Bool.not_false, Bool.false_eq_true, if_false, if_true] at h
    obtain ⟨_, _, h⟩ := bind_eq_ok_iff.mp h
    cases hrole : f.role with
    | key => rw [hrole] at h; cases h; rfl
    | metadata => rw [hrole] at h; cases h; rfl
    | relationship kind =>
      rw [hrole] at h
      obtain ⟨names, hnames, h⟩ := bind_eq_ok_iff.mp h
      cases h
      rw [targets_eq_ok hnames]

/-- The changes are those of the fields, in order. -/
theorem fieldChanges_eq_ok {fields : List EntityField} :
    ∀ {changes : List (MetadataChange ⊕ RelationshipChange)},
      fieldChanges args fields = .ok changes →
        changes.filterMap Sum.getLeft? = fields.filterMap (metadataChange? args) ∧
        changes.filterMap Sum.getRight? = fields.filterMap (relationshipChange? args) := by
  induction fields with
  | nil =>
    intro changes h
    cases h
    exact ⟨rfl, rfl⟩
  | cons f fields ih =>
    intro changes h
    -- A field without a value asks for nothing; one with a value asks for what `fieldChange` makes
    -- of it.
    rw [fieldChanges] at h
    cases hv : args.get? f.name with
    | none =>
      have hmetadata : metadataChange? args f = none := by
        rw [metadataChange?, hv]
        cases f.role <;> rfl
      have hrelationship : relationshipChange? args f = none := by
        rw [relationshipChange?, hv]
        cases f.role <;> rfl
      rw [hv] at h
      rw [List.filterMap_cons_none hmetadata, List.filterMap_cons_none hrelationship]
      exact ih h
    | some v =>
      rw [hv] at h
      obtain ⟨change, hchange, h⟩ := bind_eq_ok_iff.mp h
      obtain ⟨rest, hrest, h⟩ := bind_eq_ok_iff.mp h
      obtain ⟨ihmetadata, ihrelationship⟩ := ih hrest
      cases h
      rw [fieldChange_eq_ok hchange, List.filterMap_append, List.filterMap_append, ihmetadata,
        ihrelationship, List.filterMap_cons, List.filterMap_cons]
      simp only [metadataChange?, relationshipChange?, hv]
      cases f.role <;> exact ⟨rfl, rfl⟩

/-- **The update that the arguments ask for**, once they have been checked. -/
theorem updating_eq_ok {t : EntityTool} {c : EntityChange} (h : t.updating entity args = .ok c) :
    c = .update ⟨entity, t.type.kind, t.type.fields.filterMap (metadataChange? args),
      t.type.fields.filterMap (relationshipChange? args)⟩ := by
  obtain ⟨changes, hchanges, h⟩ := bind_eq_ok_iff.mp h
  obtain ⟨hmetadata, hrelationships⟩ := fieldChanges_eq_ok hchanges
  cases h
  rw [hmetadata, hrelationships]

end EntityTool

/-! ## Creations -/

/-- The metadata that the arguments give to a new entity in a field. -/
def addedChange? (args : Members) (f : EntityField) : Option MetadataChange :=
  match f.role with
  | .metadata => ((present? args f.name).bind renderValue).map fun text => ⟨f.label, some text⟩
  | _ => none

/-- The edges that the arguments give to a new entity in a field. -/
def addedEdges (entity : String) (args : Members) (f : EntityField) : List Edge :=
  match f.role with
  | .relationship kind =>
    (((present? args f.name).map namesIn).getD [] |> distinct).map (⟨entity, ·, kind⟩)
  | _ => []

/-- An edge of a relationship starts at the entity and is of the kind of the relationship. -/
theorem mem_addedEdges {e : Edge} (he : e ∈ addedEdges entity args f) :
    e.source = entity ∧ f.role = .relationship e.kind := by
  unfold addedEdges at he
  split at he
  · rename_i kind hrole
    obtain ⟨_, _, rfl⟩ := List.mem_map.mp he
    exact ⟨rfl, hrole⟩
  · exact absurd he List.not_mem_nil

namespace EntityTool

/-- **One field of a creation** sets its line and adds its edges. -/
theorem add_eq_ok {draft draft' : Draft} (h : Draft.add entity args draft f = .ok draft') :
    draft'.metadata = Graph.applyMetadata draft.metadata (addedChange? args f).toList ∧
      draft'.edges = draft.edges ++ addedEdges entity args f := by
  unfold Draft.add at h
  rw [addedChange?, addedEdges]
  cases hv : present? args f.name with
  | none =>
    rw [hv] at h
    have hdraft : draft' = draft := by
      -- A field without a value is passed over, if it is not required.
      have hif : (if f.required = true then
          Except.error (Failure.invalidArgument f.name "is required")
        else .ok draft) = .ok draft' := h
      split at hif
      · nomatch hif
      · exact (Except.ok.inj hif).symm
    rw [hdraft]
    cases f.role <;> exact ⟨rfl, (List.append_nil _).symm⟩
  | some v =>
    rw [hv] at h
    obtain ⟨_, _, h⟩ := bind_eq_ok_iff.mp h
    cases hrole : f.role with
    | key =>
      rw [hrole] at h
      cases h
      exact ⟨rfl, (List.append_nil _).symm⟩
    | metadata =>
      rw [hrole] at h
      cases hrender : renderValue v with
      | none =>
        rw [hrender] at h
        cases h
        simp only [Option.bind_some, hrender]
        exact ⟨rfl, (List.append_nil _).symm⟩
      | some text =>
        rw [hrender] at h
        cases h
        simp only [Option.bind_some, hrender]
        exact ⟨rfl, (List.append_nil _).symm⟩
    | relationship kind =>
      rw [hrole] at h
      obtain ⟨names, hnames, h⟩ := bind_eq_ok_iff.mp h
      cases h
      rw [targets_eq_ok hnames]
      exact ⟨rfl, rfl⟩

/-- **All fields of a creation**, one after another. -/
theorem foldlM_add_eq_ok {fields : List EntityField} :
    ∀ {draft draft' : Draft}, fields.foldlM (Draft.add entity args) draft = .ok draft' →
      draft'.metadata = Graph.applyMetadata draft.metadata (fields.filterMap (addedChange? args)) ∧
      draft'.edges = draft.edges ++ fields.flatMap (addedEdges entity args) := by
  induction fields with
  | nil =>
    intro draft draft' h
    cases h
    exact ⟨rfl, (List.append_nil _).symm⟩
  | cons f fields ih =>
    intro draft draft' h
    rw [List.foldlM_cons] at h
    obtain ⟨next, hnext, h⟩ := bind_eq_ok_iff.mp h
    obtain ⟨hmetadata, hedges⟩ := add_eq_ok hnext
    obtain ⟨ihmetadata, ihedges⟩ := ih h
    rw [ihmetadata, ihedges, hmetadata, hedges, List.flatMap_cons, List.append_assoc,
      List.filterMap_cons]
    cases addedChange? args f <;> exact ⟨rfl, rfl⟩

/-- **The entity that the arguments create**, once they have been checked. -/
theorem creation_eq_ok {t : EntityTool} {c : EntityChange} (h : t.creation entity args = .ok c) :
    c = .create ⟨entity, t.type.kind,
        Graph.applyMetadata [] (t.type.fields.filterMap (addedChange? args))⟩
      (t.type.fields.flatMap (addedEdges entity args)) := by
  obtain ⟨draft, hdraft, h⟩ := bind_eq_ok_iff.mp h
  obtain ⟨hmetadata, hedges⟩ := foldlM_add_eq_ok hdraft
  cases h
  rw [hmetadata, hedges, List.nil_append]

/-! ## Whole calls -/

/-- What a tool asks for names the entity and passes the checks of its verb. -/
theorem validate_eq_ok {t : EntityTool} {c : EntityChange}
    (h : t.validate (.obj args) = .ok c) : ∃ entity, entityName args = .ok entity ∧
      (match t.verb with
        | .add => t.creation entity args
        | .update => t.updating entity args
        | .delete => .ok (.delete entity t.type.kind)) = .ok c := by
  obtain ⟨_, _, h⟩ := bind_eq_ok_iff.mp h
  obtain ⟨entity, hentity, h⟩ := bind_eq_ok_iff.mp h
  exact ⟨entity, hentity, h⟩

end EntityTool

end GraphKeeper.Tool

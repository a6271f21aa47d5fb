/-
  JSON schemas and the values that satisfy them.

  A schema is an object, and each keyword that stands in it asks something of the value:

  1. `type`: the value is of the type (`Json.typeNames`; an integer is of two types);
  2. `enum`: the value equals one of those that are listed;
  3. `items`: each item satisfies a schema, if the value is an array;
  4. `properties`, `required`, `additionalProperties`: if the value is an object, the members that
     are described satisfy their schemas, the required keys are there, and a schema that allows no
     other members finds none.

  `Satisfies` says so in one rule, and knows nothing of the tools: it is what a caller takes an
  input schema to mean.  A keyword that is missing asks nothing, nor does one with a value of
  another shape, nor a keyword that is not in the list, such as `description`.

  Arguments of tools are looked up by their keys.  In an object that was read no key stands twice
  (`Entries.nodup_keys_toMembers`), so looking up is the same as finding the member
  (`Members.get?_eq_some_iff`).
-/
import GraphKeeper.Json.Outline
import GraphKeeper.Proofs.Sequences

namespace GraphKeeper

/-! ## Members of objects -/

namespace Members

variable {ms : Members} {key : String} {v : Json}

/-- The first member with the key is the one that is found. -/
theorem get?_cons {k : String} :
    get? ((k, v) :: ms) key = if key = k then some v else get? ms key := by
  unfold get?
  rw [List.lookup_cons]
  by_cases h : key = k
  · rw [h, beq_self_eq_true, if_pos rfl]
  · rw [beq_false_of_ne h, if_neg h]

theorem get?_append {ns : Members} :
    get? (ms ++ ns) key = (get? ms key).or (get? ns key) := List.lookup_append

/-- Looking up in a member that may be missing. -/
theorem get?_toList {α : Type} {k : String} (a : Option α) (value : α → Json) :
    get? (a.map fun a => (k, value a)).toList key = if key = k then a.map value else none := by
  cases a with
  | none => exact (ite_self none).symm
  | some a => exact get?_cons

/-- Something is found under the keys of the object. -/
theorem get?_isSome_iff : (get? ms key).isSome ↔ key ∈ ms.keys := by
  have hnone : get? ms key = none ↔ key ∉ ms.keys := by
    rw [get?, List.lookup_eq_none_iff, keys, List.mem_map]
    constructor
    · rintro h ⟨m, hm, rfl⟩
      exact bne_iff_ne.mp (h m hm) rfl
    · intro h m hm
      exact bne_iff_ne.mpr fun heq => h ⟨m, hm, heq.symm⟩
  rw [Option.isSome_iff_ne_none, Ne, hnone, not_not]

/-- **Where no key stands twice, looking up finds each member.** -/
theorem get?_eq_some_iff (hms : ms.keys.Nodup) : get? ms key = some v ↔ (key, v) ∈ ms := by
  induction ms with
  | nil => exact ⟨(nomatch ·), fun h => absurd h List.not_mem_nil⟩
  | cons m ms ih =>
    obtain ⟨k, w⟩ := m
    obtain ⟨hk, hms⟩ := List.nodup_cons.mp hms
    rw [get?_cons]
    by_cases heq : key = k
    · subst heq
      rw [if_pos rfl, List.mem_cons]
      constructor
      · intro h
        cases h
        exact Or.inl rfl
      -- The key does not come again.
      · rintro (h | h)
        · cases h
          rfl
        · exact absurd (List.mem_map_of_mem h) hk
    · have hne : (key, v) ≠ (k, w) := fun h => heq (congrArg Prod.fst h)
      rw [if_neg heq, List.mem_cons, or_iff_right hne, ih hms]

/-- The members with another value than `null`. -/
def withoutNulls (ms : Members) : Members := ms.filter fun m => !m.2.isNull

theorem mem_withoutNulls : (key, v) ∈ ms.withoutNulls ↔ (key, v) ∈ ms ∧ v.isNull = false := by
  rw [withoutNulls, List.mem_filter, Bool.not_eq_true']

theorem mem_keys_withoutNulls :
    key ∈ ms.withoutNulls.keys ↔ ∃ v, (key, v) ∈ ms.withoutNulls := by
  rw [keys, List.mem_map]
  constructor
  · rintro ⟨⟨_, v⟩, hv, rfl⟩
    exact ⟨v, hv⟩
  · rintro ⟨v, hv⟩
    exact ⟨(key, v), hv, rfl⟩

theorem keys_withoutNulls_subset : ms.withoutNulls.keys ⊆ ms.keys :=
  List.map_subset Prod.fst (List.filter_subset_self _)

/-- Setting a value adds at most its own key. -/
theorem mem_keys_set {k : String} : k ∈ (ms.set key v).keys ↔ k = key ∨ k ∈ ms.keys := by
  induction ms with
  | nil => exact List.mem_singleton.trans (or_iff_left List.not_mem_nil).symm
  | cons m ms ih =>
    unfold set
    split
    · rename_i heq
      simp [keys, heq]
    · have ih : k ∈ List.map Prod.fst (set ms key v) ↔ k = key ∨ k ∈ List.map Prod.fst ms := ih
      simp [keys, ih, or_left_comm]

/-- Setting a value makes no key stand twice. -/
theorem nodup_keys_set (hms : ms.keys.Nodup) : (ms.set key v).keys.Nodup := by
  induction ms with
  | nil => exact List.nodup_singleton key
  | cons m ms ih =>
    obtain ⟨hm, hms⟩ := List.nodup_cons.mp hms
    unfold set
    -- Either the value takes the place of another one under its key, or it goes behind this member.
    split
    · rename_i heq
      subst heq
      exact List.nodup_cons.mpr ⟨hm, hms⟩
    · rename_i hne
      refine List.nodup_cons.mpr ⟨fun h => ?_, ih hms⟩
      rcases mem_keys_set.mp h with h | h
      · exact hne h
      · exact hm h

end Members

namespace Json

/-- No key stands twice in an object that was read. -/
theorem Entries.nodup_keys_toMembers :
    ∀ {es : Entries} {acc ms : Members}, acc.keys.Nodup → es.toMembers acc = .ok ms → ms.keys.Nodup
  | .done, _, _, hacc, h => by
    cases h
    exact hacc
  | .broken _, _, _, _, h => nomatch h
  | .entry _ _ _, _, _, hacc, h => by
    -- Each entry that is read is set, so the keys stay distinct all along.
    obtain ⟨_, _, h⟩ := bind_eq_ok_iff.mp h
    obtain ⟨_, _, h⟩ := bind_eq_ok_iff.mp h
    exact nodup_keys_toMembers (Members.nodup_keys_set hacc) h

/-! ## Schemas -/

/-- The value under a key of an object. -/
def member? (v : Json) (key : String) : Option Json :=
  match v with
  | .obj ms => Members.get? ms key
  | _ => none

/-- The names of the types that a value is of. -/
def typeNames : Json → List String
  | .null => ["null"]
  | .bool _ => ["boolean"]
  | .num (.int _) => ["integer", "number"]
  | .num (.double _) => ["number"]
  | .str _ => ["string"]
  | .arr _ => ["array"]
  | .obj _ => ["object"]

/-- If the schema allows no other members than those it describes, there are none. -/
def KeepsTo (schema : Json) (ms : Members) : Prop :=
  schema.member? "additionalProperties" = some (.bool false) →
    ∀ key ∈ ms.keys, ∃ described : Members,
      schema.member? "properties" = some (.obj described) ∧ key ∈ described.keys

/-- A value satisfies a schema when it does what each of its keywords asks for. -/
inductive Satisfies : (schema v : Json) → Prop
  | intro {schema v : Json}
    (type : ∀ name, schema.member? "type" = some (.str name) → name ∈ v.typeNames)
    (enum : ∀ allowed, schema.member? "enum" = some (.arr allowed) → v.isAmong allowed = true)
    (items : ∀ rule vs, schema.member? "items" = some rule → v = .arr vs →
      ∀ w ∈ vs, Satisfies rule w)
    (properties : ∀ described ms, schema.member? "properties" = some (.obj described) →
      v = .obj ms → ∀ key rule w, (key, rule) ∈ described → (key, w) ∈ ms → Satisfies rule w)
    (required : ∀ keys (ms : Members), schema.member? "required" = some (.arr keys) → v = .obj ms →
      ∀ key, .str key ∈ keys → key ∈ ms.keys)
    (additional : ∀ ms, v = .obj ms → KeepsTo schema ms) : Satisfies schema v

variable {schema v : Json} {ms : Members}

/-- Fewer members keep to what more of them keep to. -/
theorem KeepsTo.subset {ns : Members} (hns : ns.keys ⊆ ms.keys) (h : KeepsTo schema ms) :
    KeepsTo schema ns := fun hclosed key hkey => h hclosed key (hns hkey)

/-- A schema without keywords for objects asks for a type, for one of some values and for items. -/
theorem satisfies_iff_of_flat {type : String} {allowed : Option (List Json)} {rule : Option Json}
    (htype : schema.member? "type" = some (.str type))
    (henum : schema.member? "enum" = allowed.map .arr) (hitems : schema.member? "items" = rule)
    (hproperties : schema.member? "properties" = none)
    (hrequired : schema.member? "required" = none)
    (hadditional : schema.member? "additionalProperties" = none) :
    Satisfies schema v ↔ type ∈ v.typeNames ∧ (∀ vs, allowed = some vs → v.isAmong vs = true) ∧
      ∀ r vs, rule = some r → v = .arr vs → ∀ w ∈ vs, Satisfies r w := by
  constructor
  · intro h
    cases h with
    | intro asType asEnum asItems =>
      refine ⟨asType type htype, fun vs hvs => asEnum vs ?_, fun r vs hr => asItems r vs ?_⟩
      · rw [henum, hvs]
        rfl
      · rw [hitems, hr]
  · rintro ⟨asType, asEnum, asItems⟩
    -- The other way round, a keyword that the schema has not asks for nothing.
    constructor
    case type =>
      intro name h
      rw [htype] at h
      cases h
      exact asType
    case enum =>
      intro vs h
      rw [henum] at h
      obtain ⟨_, hvs, heq⟩ := Option.map_eq_some_iff.mp h
      cases heq
      exact asEnum _ hvs
    case items =>
      intro r vs h
      exact asItems r vs (hitems ▸ h)
    case properties =>
      intro _ _ h
      rw [hproperties] at h
      nomatch h
    case required =>
      intro _ _ h
      rw [hrequired] at h
      nomatch h
    case additional =>
      intro _ _ h
      rw [hadditional] at h
      nomatch h

/-- A schema of objects asks for the members that it describes, for the required ones and for no
others if it is closed. -/
theorem satisfies_obj_iff {described : Members} {keys : List String}
    (htype : schema.member? "type" = some (.str "object")) (henum : schema.member? "enum" = none)
    (hproperties : schema.member? "properties" = some (.obj described))
    (hrequired : schema.member? "required" = some (.ofStrings keys)) :
    Satisfies schema (.obj ms) ↔
      (∀ key rule w, (key, rule) ∈ described → (key, w) ∈ ms → Satisfies rule w) ∧
      (∀ key ∈ keys, key ∈ ms.keys) ∧ KeepsTo schema ms := by
  constructor
  · intro h
    cases h with
    | intro _ _ _ asProperties asRequired asAdditional =>
      exact ⟨asProperties described ms hproperties rfl,
        fun key hkey => asRequired _ ms hrequired rfl key (List.mem_map_of_mem hkey),
        asAdditional ms rfl⟩
  · rintro ⟨asProperties, asRequired, asAdditional⟩
    constructor
    case type =>
      intro name h
      rw [htype] at h
      cases h
      exact List.mem_singleton.mpr rfl
    case enum =>
      intro _ h
      rw [henum] at h
      nomatch h
    case items =>
      intro _ _ _ h
      nomatch h
    case properties =>
      intro _ _ h hms
      rw [hproperties] at h
      cases h
      cases hms
      exact asProperties
    case required =>
      intro _ _ h hms key hkey
      rw [hrequired] at h
      cases h
      cases hms
      obtain ⟨_, hkey, heq⟩ := List.mem_map.mp hkey
      cases heq
      exact asRequired key hkey
    case additional =>
      intro _ hms
      cases hms
      exact asAdditional

end Json

end GraphKeeper

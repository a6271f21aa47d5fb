/-
  Which documents describe a kind of entities, and what becomes of their properties.

  What makes a document valid is said here in terms of the document alone: its name gives a kind
  (`Names`, `IsKindName`), and each property makes sense under the name it has (`Property.Valid`).
  `ofDocument_eq_ok_iff` shows that exactly the valid documents describe a type, and gives the type
  in full: its fields are the properties one by one (`Property.field`), with a key in front if none
  of them is one.

  That a type has only one key needs more, for a document with two properties called `name` would
  lead to two.  There is no such document: properties are read off an object, and an object that was
  read holds no key twice (`Document.nodup_properties`).  The main theorem is
  `classified_ofDocument`.
-/
import GraphKeeper.Proofs.EntityTypes
import GraphKeeper.Proofs.JsonSchemas
import GraphKeeper.Proofs.JsonText
import GraphKeeper.Proofs.TextParts

namespace GraphKeeper.Schema

open Json

/-! ## Valid documents -/

/-- The text consists of letters, digits and underscores, and is not empty. -/
def IsKindName (kind : String) : Prop :=
  kind ≠ "" ∧ ∀ c ∈ kind.toList,
    ('A' ≤ c ∧ c ≤ 'Z') ∨ ('a' ≤ c ∧ c ≤ 'z') ∨ ('0' ≤ c ∧ c ≤ '9') ∨ c = '_'

/-- The name of a document gives a kind: without blanks at its ends, it is the kind, or the kind
behind one `add_`. -/
def Names (name kind : String) : Prop :=
  Text.trim name = "add_" ++ kind ∨ (Text.trim name = kind ∧ ¬ "add_".toList <+: kind.toList)

/-- The property makes sense under a name. -/
structure Property.Valid (name : String) (p : Property) : Prop where
  name_ne : name ≠ ""
  allowed_ne : p.allowed ≠ some []
  /-- The key is a plain string. -/
  plain : name = keyName → p.type = .string ∧ p.relationship = none
  /-- A relationship has a kind of edges, and its values are texts or arrays that may hold texts. -/
  related : name ≠ keyName → ∀ r, p.relationship = some r → Text.isBlank r.kind = false ∧
    (p.type = .string ∨ p.type = .array ∧ ∀ rule, p.items = some rule → rule.type = .string)

/-- The document describes a kind of entities. -/
structure Document.Valid (doc : Document) : Prop where
  kind : ∃ kind, Names doc.name kind ∧ IsKindName kind
  properties : ∀ name p, (name, p) ∈ doc.properties → p.Valid name

/-! ## Fields of properties -/

/-- The role of a property under its name. -/
def Property.role (name : String) (p : Property) : Role :=
  if name = keyName then .key
  else
    match p.relationship with
    | some r => .relationship r.kind
    | none => .metadata

/-- The field that a property becomes. -/
def Property.field (name : String) (p : Property) : EntityField where
  name := name
  label := Text.capitalize name
  type := p.type
  allowed := p.allowed
  items := p.items
  required := p.required || name == keyName
  description := descriptionOf p
  role := p.role name

/-- The names of the properties of a document, in order. -/
def Document.names (doc : Document) : List String := doc.properties.map Prod.fst

/-- The fields of the properties of a document, in order, behind a key if none of them is one. -/
def Document.fields (doc : Document) (kind : String) : List EntityField :=
  (if keyName ∈ doc.names then [] else [EntityField.key kind]) ++
    doc.properties.map fun p => p.2.field p.1

variable {doc : Document} {type : EntityType} {name kind : String} {p : Property}

theorem Property.role_eq_key_iff : p.role name = .key ↔ name = keyName := by
  unfold Property.role
  split
  · exact iff_of_true rfl ‹_›
  · rename_i hne
    cases p.relationship <;> exact iff_of_false nofun hne

theorem namesTargets_iff :
    namesTargets p = true ↔
      p.type = .string ∨ p.type = .array ∧ ∀ rule, p.items = some rule → rule.type = .string := by
  unfold namesTargets
  cases p.type <;> cases p.items <;> simp

theorem any_isEmpty_eq_false_iff {allowed : Option (List Json)} :
    allowed.any List.isEmpty = false ↔ allowed ≠ some [] := by
  cases allowed with
  | none => simp
  | some vs => cases vs <;> simp

/-- A property has the role of its name and its relationship if it makes sense, and none if not. -/
theorem roleOf_eq_ok_iff_valid {role : Role} :
    roleOf name p = .ok role ↔ p.Valid name ∧ role = p.role name := by
  rw [roleOf_eq_ok_iff, any_isEmpty_eq_false_iff]
  constructor
  · rintro ⟨hname, hallowed, hrole⟩
    -- A role says what was checked of the property, which is what makes sense under its name.
    cases role with
    | key =>
      obtain ⟨hkey, htype, hplain⟩ := hrole
      exact ⟨⟨hname, hallowed, fun _ => ⟨htype, hplain⟩, fun hne => absurd hkey hne⟩,
        (Property.role_eq_key_iff.mpr hkey).symm⟩
    | metadata =>
      obtain ⟨hne, hplain⟩ := hrole
      refine ⟨⟨hname, hallowed, fun hkey => absurd hkey hne, fun _ r hr => ?_⟩, ?_⟩
      · rw [hplain] at hr
        nomatch hr
      · rw [Property.role, if_neg hne, hplain]
    | relationship kind =>
      obtain ⟨hne, htargets, hblank, r, hr, rfl⟩ := hrole
      refine ⟨⟨hname, hallowed, fun hkey => absurd hkey hne, fun _ r' hr' => ?_⟩, ?_⟩
      · cases hr.symm.trans hr'
        exact ⟨hblank, namesTargets_iff.mp htargets⟩
      · rw [Property.role, if_neg hne, hr]
  · rintro ⟨⟨hname, hallowed, hplain, hrelated⟩, rfl⟩
    refine ⟨hname, hallowed, ?_⟩
    unfold Property.role
    -- The name decides first, and then whether there is an annotation.
    by_cases hkey : name = keyName
    · rw [if_pos hkey]
      exact ⟨hkey, hplain hkey⟩
    · rw [if_neg hkey]
      cases hr : p.relationship with
      | none => exact ⟨hkey, rfl⟩
      | some r =>
        obtain ⟨hblank, htargets⟩ := hrelated hkey r hr
        exact ⟨hkey, namesTargets_iff.mpr htargets, hblank, r, rfl, rfl⟩

/-- **A property that makes sense becomes its field**, and no other one becomes any. -/
theorem ofProperty_eq_ok_iff_valid {f : EntityField} :
    EntityField.ofProperty name p = .ok f ↔ p.Valid name ∧ f = p.field name := by
  have hkey : (p.role name == .key) = (name == keyName) := by
    rw [Bool.eq_iff_iff, beq_iff_eq, beq_iff_eq]
    exact Property.role_eq_key_iff
  simp only [ofProperty_eq_ok_iff, roleOf_eq_ok_iff_valid]
  constructor
  · rintro ⟨_, ⟨hvalid, rfl⟩, rfl⟩
    exact ⟨hvalid, by rw [Property.field, hkey]⟩
  · rintro ⟨hvalid, rfl⟩
    exact ⟨_, ⟨hvalid, rfl⟩, by rw [Property.field, hkey]⟩

/-! ## Kinds of documents -/

/-- The characters of a kind, as ranges. -/
theorem isKindChar_iff {c : Char} :
    isKindChar c = true ↔
      ('A' ≤ c ∧ c ≤ 'Z') ∨ ('a' ≤ c ∧ c ≤ 'z') ∨ ('0' ≤ c ∧ c ≤ '9') ∨ c = '_' := by
  have hupper : c.isUpper = true ↔ 'A' ≤ c ∧ c ≤ 'Z' := decide_eq_true_iff
  have hbetween : ∀ a b : Char, (decide (a ≤ c) && decide (c ≤ b)) = true ↔ a ≤ c ∧ c ≤ b :=
    fun a b => by rw [Bool.and_eq_true, decide_eq_true_iff, decide_eq_true_iff]
  have hlower : c.isLower = true ↔ 'a' ≤ c ∧ c ≤ 'z' := hbetween 'a' 'z'
  have hdigit : c.isDigit = true ↔ '0' ≤ c ∧ c ≤ '9' := hbetween '0' '9'
  show (((c.isUpper || c.isLower) || c.isDigit) || c == '_') = true ↔ _
  rw [Bool.or_eq_true, Bool.or_eq_true, Bool.or_eq_true, hupper, hlower, hdigit, beq_iff_eq,
    or_assoc, or_assoc]

/-- What is left of a name without one lead is the kind that it gives. -/
theorem getD_stripLead?_eq_iff :
    (Text.stripLead? "add_" (Text.trim name)).getD (Text.trim name) = kind ↔ Names name kind := by
  unfold Names
  cases hstrip : Text.stripLead? "add_" (Text.trim name) with
  | some rest =>
    rw [Text.stripLead?_eq_some_iff] at hstrip
    rw [hstrip, Option.getD_some]
    constructor
    · rintro rfl
      exact Or.inl rfl
    · rintro (h | ⟨h, hlead⟩)
      · exact String.toList_inj.mp (by simpa using congrArg String.toList h)
      · rw [← h, String.toList_append] at hlead
        exact absurd (List.prefix_append _ _) hlead
  | none =>
    rw [Text.stripLead?_eq_none_iff] at hstrip
    rw [Option.getD_none]
    constructor
    · rintro rfl
      exact Or.inr ⟨rfl, hstrip⟩
    · rintro (h | ⟨h, _⟩)
      · rw [h, String.toList_append] at hstrip
        exact absurd (List.prefix_append _ _) hstrip
      · exact h

theorem kindOf_eq_ok_iff : kindOf doc = .ok kind ↔ Names doc.name kind ∧ IsKindName kind := by
  have hchars : ∀ s : String, (s ≠ "" ∧ s.toList.all isKindChar = true) ↔ IsKindName s := by
    intro s
    rw [IsKindName, List.all_eq_true]
    simp only [isKindChar_iff]
  have hchecked : ∀ (s : String) (e : SchemaFailure),
      (if s ≠ "" ∧ s.toList.all isKindChar then Except.ok s else .error e) = .ok kind ↔
        s = kind ∧ IsKindName kind := by
    intro s e
    split
    · rename_i h
      rw [Except.ok.injEq]
      exact ⟨fun heq => ⟨heq, heq ▸ (hchars s).mp h⟩, And.left⟩
    · rename_i h
      refine iff_of_false nofun ?_
      rintro ⟨rfl, hkind⟩
      exact h ((hchars s).mpr hkind)
  rw [← getD_stripLead?_eq_iff]
  exact hchecked _ _

/-! ## Types of documents -/

/-- All properties become fields if all make sense. -/
theorem mapM_ofProperty_eq_ok_iff {fields : List EntityField} :
    (doc.properties.mapM fun (name, p) =>
        (EntityField.ofProperty name p).mapError (SchemaFailure.invalid doc.name)) = .ok fields ↔
      (∀ name p, (name, p) ∈ doc.properties → p.Valid name) ∧
        fields = doc.properties.map fun p => p.2.field p.1 := by
  rw [mapM_eq_ok_iff]
  simp only [mapError_eq_ok_iff, ofProperty_eq_ok_iff_valid]
  induction doc.properties generalizing fields with
  | nil => simp
  | cons p ps ih =>
    rw [List.forall₂_cons_left_iff]
    simp only [ih]
    constructor
    · rintro ⟨_, _, ⟨hvalid, rfl⟩, ⟨hvalids, rfl⟩, rfl⟩
      refine ⟨fun name q hq => ?_, rfl⟩
      rcases List.mem_cons.mp hq with rfl | hq
      · exact hvalid
      · exact hvalids name q hq
    · rintro ⟨hvalids, rfl⟩
      exact ⟨_, _, ⟨hvalids _ _ List.mem_cons_self, rfl⟩,
        ⟨fun name q hq => hvalids name q (List.mem_cons_of_mem _ hq), rfl⟩, rfl⟩

/-- A field is the key if a property is called `name`. -/
theorem any_field_eq_key_iff :
    ((doc.properties.map fun p => p.2.field p.1).any (·.role == .key)) = true ↔
      keyName ∈ doc.names := by
  rw [List.any_map, List.any_eq_true, Document.names, List.mem_map]
  refine exists_congr fun p => and_congr_right fun _ => ?_
  exact beq_iff_eq.trans Property.role_eq_key_iff

/-- **A valid document describes one type, and no other document describes any.** -/
theorem ofDocument_eq_ok_iff :
    EntityType.ofDocument doc = .ok type ↔
      Names doc.name type.kind ∧ IsKindName type.kind ∧
      (∀ name p, (name, p) ∈ doc.properties → p.Valid name) ∧
      type.description = doc.description ∧ type.additional = doc.additional ∧
      type.fields = doc.fields type.kind := by
  -- A key is put in front exactly if no property is called like it.
  have hfields : ∀ kind (fields : List EntityField),
      fields = (doc.properties.map fun p => p.2.field p.1) →
      (if fields.any (·.role == .key) then fields else EntityField.key kind :: fields) =
        doc.fields kind := by
    rintro kind _ rfl
    rw [Document.fields]
    by_cases hkey : keyName ∈ doc.names
    · rw [if_pos (any_field_eq_key_iff.mpr hkey), if_pos hkey, List.nil_append]
    · rw [if_neg (mt any_field_eq_key_iff.mp hkey), if_neg hkey, List.singleton_append]
  rw [EntityType.ofDocument, bind_eq_ok_iff]
  constructor
  · rintro ⟨kind, hkind, h⟩
    obtain ⟨fields, hmapM, h⟩ := bind_eq_ok_iff.mp h
    cases h
    obtain ⟨hnames, hchars⟩ := kindOf_eq_ok_iff.mp hkind
    obtain ⟨hvalid, heq⟩ := mapM_ofProperty_eq_ok_iff.mp hmapM
    exact ⟨hnames, hchars, hvalid, rfl, rfl, heq ▸ hfields kind fields heq⟩
  · rintro ⟨hnames, hchars, hvalid, hdescription, hadditional, heq⟩
    refine ⟨type.kind, kindOf_eq_ok_iff.mpr ⟨hnames, hchars⟩, bind_eq_ok_iff.mpr
      ⟨_, mapM_ofProperty_eq_ok_iff.mpr ⟨hvalid, rfl⟩, ?_⟩⟩
    show Except.ok (EntityType.mk _ _ _ _) = _
    rw [hfields type.kind _ rfl, ← heq, ← hdescription, ← hadditional]

/-! ## Names of properties -/

/-- The properties have the names of the members they are read from. -/
theorem Property.keys_listOfMembers :
    ∀ {ms : Members} {ps : List (String × Property)},
      Property.listOfMembers ms = .ok ps → ps.map Prod.fst = ms.keys
  | [], _, h => by
    cases h
    rfl
  | (name, v) :: ms, _, h => by
    obtain ⟨p, _, h⟩ := bind_eq_ok_iff.mp h
    obtain ⟨ps, hps, h⟩ := bind_eq_ok_iff.mp h
    cases h
    rw [List.map_cons, keys_listOfMembers hps]
    rfl

theorem Property.nodup_listDecoder {src : Json.Source} {o : Outline} {ps : List (String × Property)}
    (h : Property.listDecoder src o = .ok ps) : (ps.map Prod.fst).Nodup := by
  obtain ⟨ms, hms, h⟩ := bind_eq_ok_iff.mp h
  rw [Property.keys_listOfMembers h]
  unfold Decoder.members at hms
  split at hms
  · nomatch hms
  · -- An object is read into members with distinct keys, as a later one takes the place of an
    -- earlier one.
    have hnil : (Members.keys []).Nodup := List.nodup_nil
    exact Entries.nodup_keys_toMembers hnil (mapError_eq_ok_iff.mp hms)
  · unfold Outline.wrongType at hms
    split at hms <;> nomatch hms

/-- **No two properties of a document that was read have one name**, whatever it was read from. -/
theorem Document.nodup_names {src : Json.Source} {o : Outline}
    (h : Document.decoder src o = .ok doc) : doc.names.Nodup := by
  obtain ⟨values, _, h⟩ := bind_eq_ok_iff.mp h
  obtain ⟨_, _, h⟩ := bind_eq_ok_iff.mp h
  obtain ⟨_, _, h⟩ := bind_eq_ok_iff.mp h
  obtain ⟨properties, hproperties, h⟩ := bind_eq_ok_iff.mp h
  obtain ⟨_, _, h⟩ := bind_eq_ok_iff.mp h
  cases h
  unfold FieldValues.orElse at hproperties
  split at hproperties
  · exact Property.nodup_listDecoder hproperties
  · cases hproperties
    exact List.nodup_nil

/-! ## What becomes of the properties -/

section

variable (hfields : type.fields = doc.fields type.kind)
include hfields

/-- A field is a property of the document, or the key in front. -/
theorem mem_fields_iff {f : EntityField} : f ∈ type.fields ↔
    (keyName ∉ doc.names ∧ f = .key type.kind) ∨
      ∃ name p, (name, p) ∈ doc.properties ∧ f = p.field name := by
  rw [hfields, Document.fields, List.mem_append, List.mem_map]
  refine or_congr ?_ ?_
  · split
    · rename_i hkey
      exact iff_of_false List.not_mem_nil fun h => h.1 hkey
    · rename_i hkey
      exact List.mem_singleton.trans (and_iff_right hkey).symm
  · constructor
    · rintro ⟨⟨name, p⟩, hp, rfl⟩
      exact ⟨name, p, hp, rfl⟩
    · rintro ⟨name, p, hp, rfl⟩
      exact ⟨(name, p), hp, rfl⟩

/-- The one field in the role of the key is the one called `name`. -/
theorem map_name_filter_key (hnodup : doc.names.Nodup) :
    (type.fields.filter (·.role == .key)).map EntityField.name = [keyName] := by
  have hrole : ((fun f : EntityField => f.role == .key) ∘ fun p => Property.field p.1 p.2) =
      fun p : String × Property => p.1 == keyName := by
    funext p
    rw [Bool.eq_iff_iff, beq_iff_eq]
    exact beq_iff_eq.trans Property.role_eq_key_iff
  have hnames : ((doc.properties.filter fun p => p.1 == keyName).map
      fun p => p.2.field p.1).map EntityField.name = doc.names.filter (· == keyName) := by
    rw [Document.names, List.filter_map, List.map_map]
    rfl
  rw [hfields, Document.fields, List.filter_append, List.filter_map, List.map_append, hrole, hnames,
    List.filter_beq]
  -- Either the key is put in front and no property is called so, or one property is, as names
  -- differ.
  split
  · rename_i hkey
    rw [List.count_eq_one_of_mem hnodup hkey]
    rfl
  · rename_i hkey
    rw [List.count_eq_zero_of_not_mem hkey]
    rfl

theorem mem_required_iff : name ∈ type.required ↔
    name = keyName ∨ ∃ p, (name, p) ∈ doc.properties ∧ p.required = true := by
  have hrequired : ∀ name (p : Property),
      (p.field name).required = true ↔ p.required = true ∨ name = keyName := by
    intro name p
    rw [Property.field, Bool.or_eq_true, beq_iff_eq]
  rw [EntityType.required, List.mem_map]
  simp only [List.mem_filter, mem_fields_iff hfields]
  constructor
  · rintro ⟨_, ⟨⟨_, rfl⟩ | ⟨name, p, hp, rfl⟩, hf⟩, rfl⟩
    · exact Or.inl rfl
    · exact ((hrequired name p).mp hf).symm.imp id fun hp' => ⟨p, hp, hp'⟩
  -- The key is required, whether it was declared or put in front.
  · rintro (rfl | ⟨p, hp, hp'⟩)
    · by_cases hkey : keyName ∈ doc.names
      · obtain ⟨⟨name, p⟩, hp, hname⟩ := List.mem_map.mp hkey
        exact ⟨_, ⟨Or.inr ⟨name, p, hp, rfl⟩, (hrequired name p).mpr (Or.inr hname)⟩, hname⟩
      · exact ⟨_, ⟨Or.inl ⟨hkey, rfl⟩, rfl⟩, rfl⟩
    · exact ⟨_, ⟨Or.inr ⟨name, p, hp, rfl⟩, (hrequired name p).mpr (Or.inl hp')⟩, rfl⟩

theorem metadataFields_eq : type.metadataFields =
    (doc.properties.filter fun p => p.1 != keyName && p.2.relationship.isNone).map
      fun p => p.2.field p.1 := by
  have hrole : ((fun f : EntityField => f.role == .metadata) ∘ fun p => Property.field p.1 p.2) =
      fun p : String × Property => p.1 != keyName && p.2.relationship.isNone := by
    funext p
    show (p.2.role p.1 == .metadata) = _
    unfold Property.role
    by_cases hkey : p.1 = keyName
    · rw [if_pos hkey, bne_eq_false_iff_eq.mpr hkey]
      rfl
    · rw [if_neg hkey, bne_iff_ne.mpr hkey]
      cases p.2.relationship <;> rfl
  rw [EntityType.metadataFields, hfields, Document.fields, List.filter_append, List.filter_map,
    hrole]
  split <;> rfl

/-- The relationships are the properties with an annotation; the key has none, since it
makes sense. -/
theorem relationshipFields_eq
    (hvalid : ∀ name p, (name, p) ∈ doc.properties → p.Valid name) :
    type.relationshipFields = doc.properties.filterMap fun p =>
      p.2.relationship.map fun r => (p.2.field p.1, r.kind) := by
  have hkey : ∀ F : EntityField → Option (EntityField × String), F (.key type.kind) = none →
      (if keyName ∈ doc.names then [] else [EntityField.key type.kind]).filterMap F = [] := by
    intro F hF
    split
    · rfl
    · exact List.filterMap_cons_none hF
  rw [EntityType.relationshipFields, hfields, Document.fields, List.filterMap_append,
    List.filterMap_map, hkey _ rfl, List.nil_append]
  refine List.filterMap_congr fun p hp => ?_
  simp only [Function.comp_apply, Property.field, Property.role]
  by_cases hname : p.1 = keyName
  · rw [if_pos hname, ((hvalid p.1 p.2 hp).plain hname).2]
    rfl
  · rw [if_neg hname]
    cases p.2.relationship <;> rfl

/-- The key is a string that is required. -/
theorem type_of_role_eq_key (hvalid : ∀ name p, (name, p) ∈ doc.properties → p.Valid name)
    {f : EntityField} (hf : f ∈ type.fields) (hrole : f.role = .key) :
    f.type = .string ∧ f.required = true := by
  rcases (mem_fields_iff hfields).mp hf with ⟨_, rfl⟩ | ⟨name, p, hp, rfl⟩
  · exact ⟨rfl, rfl⟩
  · have hname : name = keyName := Property.role_eq_key_iff.mp hrole
    refine ⟨((hvalid name p hp).plain hname).1, ?_⟩
    rw [Property.field, hname, beq_self_eq_true, Bool.or_true]

end

/-- How the fields of a type come from the properties of its document. -/
structure Classified (doc : Document) (type : EntityType) : Prop where
  kind : Names doc.name type.kind
  /-- The fields are the properties in order, each with all that was declared of it, behind a key
  if none is declared. -/
  fields : type.fields = doc.fields type.kind
  /-- One field is the key, which is called `name`, and it is a string that is required. -/
  key : ∃ f, type.fields.filter (·.role == .key) = [f] ∧ f.name = keyName ∧ f.type = .string ∧
    f.required = true
  required : ∀ name, name ∈ type.required ↔
    name = keyName ∨ ∃ p, (name, p) ∈ doc.properties ∧ p.required = true
  /-- The relationships are the properties that are annotated as such, with the kinds of edges they
  are annotated with. -/
  relationships : type.relationshipFields = doc.properties.filterMap fun p =>
    p.2.relationship.map fun r => (p.2.field p.1, r.kind)
  /-- Metadata are the properties without an annotation but the one called `name`. -/
  metadata : type.metadataFields =
    (doc.properties.filter fun p => p.1 != keyName && p.2.relationship.isNone).map
      fun p => p.2.field p.1

/-- **Valid documents, and the fields of their types.**  A document that was read describes a type
exactly if it is valid.  The fields of the type are then its properties in order, behind a key if
none is among them; one field is the key; the key and the properties that are marked so are
required; and every other field is a relationship if it is annotated as one, and metadata if not. -/
theorem classified_ofDocument {src : Json.Source} {o : Outline}
    (h : Document.decoder src o = .ok doc) :
    ((∃ type, EntityType.ofDocument doc = .ok type) ↔ doc.Valid) ∧
      ∀ type, EntityType.ofDocument doc = .ok type → Classified doc type := by
  constructor
  · constructor
    · rintro ⟨type, htype⟩
      obtain ⟨hnames, hchars, hvalid, _⟩ := ofDocument_eq_ok_iff.mp htype
      exact ⟨⟨type.kind, hnames, hchars⟩, hvalid⟩
    · rintro ⟨⟨kind, hnames, hchars⟩, hvalid⟩
      exact ⟨⟨kind, doc.description, doc.fields kind, doc.additional⟩,
        ofDocument_eq_ok_iff.mpr ⟨hnames, hchars, hvalid, rfl, rfl, rfl⟩⟩
  · intro type htype
    obtain ⟨hnames, _, hvalid, _, _, hfields⟩ := ofDocument_eq_ok_iff.mp htype
    refine ⟨hnames, hfields, ?_, fun name => mem_required_iff hfields,
      relationshipFields_eq hfields hvalid, metadataFields_eq hfields⟩
    have hkeys := map_name_filter_key hfields (Document.nodup_names h)
    obtain ⟨f, hf, hname⟩ := List.map_eq_singleton_iff.mp hkeys
    have hmem : f ∈ type.fields.filter (·.role == .key) := hf ▸ List.mem_singleton_self f
    obtain ⟨hmem, hrole⟩ := List.mem_filter.mp hmem
    exact ⟨f, hf, hname, type_of_role_eq_key hfields hvalid hmem (beq_iff_eq.mp hrole)⟩

/-! ## Two documents -/

/-- A document as it is written, with its key behind another field. -/
def guildJson : Json :=
  .obj [("name", .str " add_Guild_2 "), ("properties", .obj [
    ("motto", .obj [("type", .str "string"), ("required", .bool true), ("items", .null)]),
    ("name", .obj [("type", .str "string")]),
    ("members", .obj [("type", .str "array"), ("items", .obj [("type", .str "string")]),
      ("relationship", .obj [("edgeType", .str "has_member")])])])]

def guildDocument : Document where
  name := " add_Guild_2 "
  description := ""
  properties :=
    [("motto", ⟨.string, "", true, none, none, none⟩),
      ("name", ⟨.string, "", false, none, none, none⟩),
      ("members", ⟨.array, "", false, none, some ⟨.string, none⟩, some ⟨"has_member", ""⟩⟩)]
  additional := true

/-- A relationship whose values would be numbers. -/
def itemJson : Json :=
  .obj [("name", .str "add_item"), ("properties", .obj [
    ("weight", .obj [("type", .str "number"),
      ("relationship", .obj [("edgeType", .str "weighs")])])])]

def itemDocument : Document :=
  ⟨"add_item", "", [("weight", ⟨.number, "", false, none, none, some ⟨"weighs", ""⟩⟩)], true⟩

/-- Both documents are read, one describes a type and the other one does not. -/
theorem classified_guild :
    let type : EntityType := (EntityType.ofDocument guildDocument).toOption.getD ⟨"", "", [], true⟩
    decodeText Document.decoder guildJson.render = .ok guildDocument ∧
      decodeText Document.decoder itemJson.render = .ok itemDocument ∧
      guildDocument.Valid ∧ Classified guildDocument type ∧
      type.kind = "Guild_2" ∧ type.fields.map EntityField.name = ["motto", "name", "members"] ∧
      ¬ ∃ type, EntityType.ofDocument itemDocument = .ok type := by
  intro type
  have hguild : Document.decoder .text (.ofJson guildJson) = .ok guildDocument := rfl
  have hitem : Document.decoder .text (.ofJson itemJson) = .ok itemDocument := rfl
  have htype : EntityType.ofDocument guildDocument = .ok type := rfl
  have hlegible : guildJson.Legible ∧ itemJson.Legible := by
    simp [guildJson, itemJson, Json.Legible, Json.LegibleMembers]
  refine ⟨?_, ?_, (classified_ofDocument hguild).1.mp ⟨type, htype⟩,
    (classified_ofDocument hguild).2 type htype, rfl, rfl, fun h => ?_⟩
  · rw [decodeText_render hlegible.1 (by decide), hguild]
  · rw [decodeText_render hlegible.2 (by decide), hitem]
  · have hweight := ((classified_ofDocument hitem).1.mp h).properties "weight" _
      (List.mem_singleton_self _)
    obtain ⟨_, htargets⟩ := hweight.related (by decide) _ rfl
    exact absurd htargets (by decide)

end GraphKeeper.Schema

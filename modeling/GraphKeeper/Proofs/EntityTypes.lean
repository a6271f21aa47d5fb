/-
  What is known of the fields of an entity type that was made out of a document.

  Each field comes from a property, apart from the key of a type that declares none
  (`ofProperty_of_mem`).  A property that makes sense has a name, and a capital first letter is at
  least one character, so no label is empty (`label_ne_empty`); labels without blanks are then
  labels that lines can carry (`isLabel_label`).
-/
import GraphKeeper.Graph.Metadata
import GraphKeeper.Proofs.LetterCase
import GraphKeeper.Proofs.Sequences
import GraphKeeper.Schema.EntityType

namespace GraphKeeper

namespace Schema

variable {doc : Document} {type : EntityType} {f : EntityField}

/-! ## Fields and properties -/

theorem ofProperty_eq_ok_iff {name : String} {p : Property} :
    EntityField.ofProperty name p = .ok f ↔ ∃ role, roleOf name p = .ok role ∧
      f = ⟨name, Text.capitalize name, p.type, p.allowed, p.items, p.required || role == .key,
        descriptionOf p, role⟩ := by
  rw [EntityField.ofProperty, bind_eq_ok_iff]
  constructor
  · rintro ⟨role, hrole, h⟩
    exact ⟨role, hrole, (Except.ok.inj h).symm⟩
  · rintro ⟨role, hrole, rfl⟩
    exact ⟨role, hrole, rfl⟩

/-- A property makes sense exactly when it has a name, allows some value if it restricts them, and
is a plain string named as the key, any other plain property, or a relationship whose values name
targets of edges of some kind. -/
theorem roleOf_eq_ok_iff {name : String} {p : Property} {role : Role} :
    roleOf name p = .ok role ↔ name ≠ "" ∧ p.allowed.any List.isEmpty = false ∧
      match role with
      | .key => name = keyName ∧ p.type = .string ∧ p.relationship = none
      | .metadata => name ≠ keyName ∧ p.relationship = none
      | .relationship kind => name ≠ keyName ∧ namesTargets p = true ∧
          Text.isBlank kind = false ∧ ∃ r, p.relationship = some r ∧ r.kind = kind := by
  unfold roleOf
  -- The checks are gone through in their order; each leaves one role at most.
  by_cases hname : name = ""
  · simp [hname]
  cases hallowed : p.allowed.any List.isEmpty with
  | true => simp [hname]
  | false =>
    simp only [hname, if_false, Bool.false_eq_true, ne_eq, not_false_eq_true, true_and]
    by_cases hkey : name = keyName
    · cases hr : p.relationship with
      | none => by_cases htype : p.type = .string <;> cases role <;> simp [hkey, htype]
      | some r => cases role <;> simp [hkey]
    · cases hr : p.relationship with
      | none => cases role <;> simp [hkey]
      | some r =>
        cases hblank : Text.isBlank r.kind with
        | true =>
          have hkind : ∀ kind, Text.isBlank kind = false → r.kind ≠ kind :=
            fun kind h he => by rw [he, h] at hblank; nomatch hblank
          cases role <;> simp +contextual [hkey, hblank, hkind]
        | false =>
          have hkind : ∀ kind, r.kind = kind → Text.isBlank kind = false :=
            fun kind he => he ▸ hblank
          cases namesTargets p <;> cases role <;> simp +contextual [hkey, hblank, hkind]

/-- A type has the fields of the properties, in order, and a key in front if none is among
them. -/
theorem ofDocument_eq_ok (h : EntityType.ofDocument doc = .ok type) :
    ∃ fields, List.Forall₂ (fun p f => EntityField.ofProperty p.1 p.2 = .ok f)
        doc.properties fields ∧
      type.fields = if fields.any (·.role == .key) then fields
        else EntityField.key type.kind :: fields := by
  obtain ⟨kind, _, h⟩ := bind_eq_ok_iff.mp h
  obtain ⟨fields, hfields, h⟩ := bind_eq_ok_iff.mp h
  cases h
  exact ⟨fields, (mapM_eq_ok_iff.mp hfields).imp fun _ _ hf => mapError_eq_ok_iff.mp hf, rfl⟩

/-- A field that is not the key comes from a property. -/
theorem ofProperty_of_mem (h : EntityType.ofDocument doc = .ok type) (hf : f ∈ type.fields)
    (hrole : f.role ≠ .key) : ∃ p ∈ doc.properties, EntityField.ofProperty p.1 p.2 = .ok f := by
  obtain ⟨fields, hforall, hfields⟩ := ofDocument_eq_ok h
  have hmem : f ∈ fields := by
    rw [hfields] at hf
    split at hf
    · exact hf
    · rcases List.mem_cons.mp hf with rfl | hf
      · exact absurd rfl hrole
      · exact hf
  exact exists_mem_of_forall₂ hforall hmem

/-- Every type has a key, and it is a string that is required. -/
theorem exists_key (h : EntityType.ofDocument doc = .ok type) :
    ∃ f ∈ type.fields, f.name = keyName ∧ f.type = .string ∧ f.required = true := by
  obtain ⟨fields, hforall, hfields⟩ := ofDocument_eq_ok h
  -- Either a property is the key, or the one in front is.
  by_cases hkey : fields.any (·.role == .key) = true
  · rw [if_pos hkey] at hfields
    obtain ⟨f, hf, hrole⟩ := List.any_eq_true.mp hkey
    obtain ⟨p, _, hp⟩ := exists_mem_of_forall₂ hforall hf
    obtain ⟨role, hroleOf, rfl⟩ := ofProperty_eq_ok_iff.mp hp
    have hrole : role = .key := beq_iff_eq.mp hrole
    subst hrole
    obtain ⟨_, _, hname, htype, _⟩ := roleOf_eq_ok_iff.mp hroleOf
    exact ⟨_, hfields ▸ hf, hname, htype, Bool.or_true _⟩
  · rw [if_neg hkey] at hfields
    exact ⟨.key type.kind, hfields ▸ List.mem_cons_self, rfl, rfl, rfl⟩

/-! ## Roles -/

/-- The metadata fields are those in that role. -/
theorem mem_metadataFields : f ∈ type.metadataFields ↔ f ∈ type.fields ∧ f.role = .metadata := by
  rw [EntityType.metadataFields, List.mem_filter, beq_iff_eq]

theorem mem_relationshipFields {kind : String} :
    (f, kind) ∈ type.relationshipFields ↔ f ∈ type.fields ∧ f.role = .relationship kind := by
  rw [EntityType.relationshipFields, List.mem_filterMap]
  constructor
  · rintro ⟨f', hf', h⟩
    split at h
    · rename_i kind' hrole
      cases h
      exact ⟨hf', hrole⟩
    · nomatch h
  · rintro ⟨hf, hrole⟩
    exact ⟨f, hf, by rw [hrole]⟩

/-! ## Kinds -/

/-- Letters, digits and the underscore are not blank. -/
theorem isBlankChar_eq_false_of_isKindChar {c : Char} (h : isKindChar c = true) :
    Text.isBlankChar c = false := by
  have hranges : (decide (65 ≤ c.val ∧ c.val ≤ 90) || (97 ≤ c.val && c.val ≤ 122) ||
      (48 ≤ c.val && c.val ≤ 57) || c == '_') = true := h
  have hcode : 48 ≤ c.toNat ∧ c.toNat ≤ 122 := by
    simp [UInt32.le_iff_toNat_le] at hranges
    rcases hranges with h | rfl
    · omega
    · decide
  simp [Text.isBlankChar]
  omega

/-- The kind of a document has letters, digits and underscores, and at least one of them. -/
theorem kindOf_eq_ok {kind : String} (h : kindOf doc = .ok kind) :
    kind ≠ "" ∧ kind.toList.all isKindChar = true := by
  unfold kindOf at h
  simp only at h
  split at h
  · rename_i hkind
    rw [Except.ok.injEq] at h
    exact h ▸ hkind
  · nomatch h

/-- The kind of a type is not blank. -/
theorem isBlank_kind (h : EntityType.ofDocument doc = .ok type) :
    Text.isBlank type.kind = false := by
  obtain ⟨kind, hkind, h⟩ := bind_eq_ok_iff.mp h
  obtain ⟨fields, _, h⟩ := bind_eq_ok_iff.mp h
  cases h
  obtain ⟨hne, hchars⟩ := kindOf_eq_ok hkind
  obtain ⟨c, hc⟩ := List.exists_mem_of_ne_nil _ (mt String.toList_eq_nil_iff.mp hne)
  have hchar := isBlankChar_eq_false_of_isKindChar (List.all_eq_true.mp hchars c hc)
  exact List.all_eq_false.mpr ⟨c, hc, by rw [hchar]; exact Bool.false_ne_true⟩

/-- The kind of the edges of a relationship is not blank. -/
theorem isBlank_kind_of_role (h : EntityType.ofDocument doc = .ok type) (hf : f ∈ type.fields)
    {kind : String} (hrole : f.role = .relationship kind) : Text.isBlank kind = false := by
  obtain ⟨p, _, hp⟩ := ofProperty_of_mem h hf (by rw [hrole]; exact fun he => nomatch he)
  obtain ⟨role, hroleOf, rfl⟩ := ofProperty_eq_ok_iff.mp hp
  cases hrole
  exact (roleOf_eq_ok_iff.mp hroleOf).2.2.2.2.1

/-! ## Labels -/

/-- **No label is empty**, as no name is. -/
theorem label_ne_empty (h : EntityType.ofDocument doc = .ok type) (hf : f ∈ type.fields)
    (hrole : f.role ≠ .key) : f.label ≠ "" := by
  obtain ⟨p, _, hp⟩ := ofProperty_of_mem h hf hrole
  obtain ⟨role, hroleOf, rfl⟩ := ofProperty_eq_ok_iff.mp hp
  exact Text.capitalize_ne_empty (roleOf_eq_ok_iff.mp hroleOf).1

/-- A label without blanks is one that a line can carry. -/
theorem isLabel_label (h : EntityType.ofDocument doc = .ok type) (hf : f ∈ type.metadataFields)
    (hblank : f.label.toList.any Text.isBlankChar = false) :
    Metadata.isLabel f.label.toList = true := by
  obtain ⟨hf, hrole⟩ := mem_metadataFields.mp hf
  have hne : f.label ≠ "" := label_ne_empty h hf (by rw [hrole]; exact fun he => nomatch he)
  have hnil : f.label.toList.isEmpty = false := by
    rw [List.isEmpty_eq_false_iff]
    exact mt String.toList_eq_nil_iff.mp hne
  rw [Metadata.isLabel, hnil, hblank]
  rfl

end Schema

end GraphKeeper

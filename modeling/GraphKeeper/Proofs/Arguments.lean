/-
  Arguments that a tool for any graph refuses for a key, and those where it passes a key over.

  The input schema of a tool declares the keys of the arguments and, where an argument is an array
  of objects, the keys of these items.  The arguments themselves are read as a closed record, so
  that a key which is not declared is refused.  With items it depends on the tool, for some are
  closed records and some are open ones; the fields of the record are the declared keys either way.
  So a decoder of items comes in two kinds: one refuses what its schema does not describe
  (`Decoder.Refuses`) and the other one does not notice it (`Decoder.Skips`), and the shape of the
  record alone tells which kind it is (`Decoder.Refuses.ofShape`, `Decoder.Skips.ofShape`).

  All tools but two read an array as their only argument, so most is said once, about `someItems`.
  For tools with closed items it gives that everything in accepted arguments is declared
  (`refusesUndeclared_of_items`), and for those with open items that the part of the arguments that
  is declared (`declaredPart`) makes the same request as the whole (`someItems_declaredPart`).
-/
import GraphKeeper.Proofs.JsonSchemas
import GraphKeeper.Proofs.PortableJson
import GraphKeeper.Tool.GraphTool
import Mathlib.Data.List.Perm.Subperm

namespace GraphKeeper

open Json

namespace Json

/-! ## What a schema describes -/

/-- The properties that a schema describes. -/
def propertiesOf (schema : Json) : Members :=
  match schema.member? "properties" with
  | some (.obj described) => described
  | _ => []

/-- The schema for the items of the array under a key. -/
def itemSchema? (schema : Json) (key : String) : Option Json :=
  (Members.get? schema.propertiesOf key).bind (member? · "items")

/-- An object without the members that the schema does not describe. -/
def describedPart (schema : Json) : Json → Json
  | .obj ms => .obj (ms.filter fun m => m.1 ∈ schema.propertiesOf.keys)
  | v => v

/-- The items of the array under a key without the members that the schema does not describe. -/
def describedItems (schema : Json) (key : String) : Json → Json
  | .arr vs =>
    match schema.itemSchema? key with
    | some rule => .arr (vs.map rule.describedPart)
    | none => .arr vs
  | v => v

variable {rule v : Json}

/-- Nothing is left out of an object whose members are all described. -/
theorem describedPart_eq_self
    (h : ∀ fields : Members, v = .obj fields → ∀ key ∈ fields.keys, key ∈ rule.propertiesOf.keys) :
    rule.describedPart v = v := by
  cases v with
  | obj fields =>
    have hall : ∀ m ∈ fields, m.1 ∈ rule.propertiesOf.keys :=
      fun m hm => h fields rfl m.1 (List.mem_map_of_mem hm)
    rw [describedPart, List.filter_eq_self.mpr fun m hm => decide_eq_true (hall m hm)]
  | _ => rfl

/-! ## Decoders of items -/

namespace Decoder

variable {α : Type} {item : Decoder α}

/-- The decoder refuses an object with a member that the schema does not describe. -/
def Refuses (item : Decoder α) (rule : Json) : Prop :=
  ∀ (fields : Members) a, item .value (.ofJson (.obj fields)) = .ok a →
    ∀ key ∈ fields.keys, key ∈ rule.propertiesOf.keys

/-- The decoder does not notice when members that the schema does not describe are left out. -/
def Skips (item : Decoder α) (rule : Json) : Prop :=
  ∀ v, item .value (.ofJson (rule.describedPart v)) = item .value (.ofJson v)

section Shape

variable {make : FieldValues → Except DecodeError α}

/-- **A closed record refuses what is no field**, so its decoder refuses what the schema does not
describe. -/
theorem Refuses.ofShape (shape : Shape) (hitem : ∀ o, item .value o = shape.read .value o >>= make)
    (hclosed : shape.closed = true)
    (hfields : shape.fields.map Field.name ⊆ rule.propertiesOf.keys) : Refuses item rule := by
  intro fields a h key hkey
  rw [hitem] at h
  obtain ⟨values, hvalues, _⟩ := bind_eq_ok_iff.mp h
  exact hfields (Shape.keys_subset_of_readEntries hclosed hvalues hkey)

/-- **An open record passes over what is no field**, so its decoder does not notice that it is left
out. -/
theorem Skips.ofShape (shape : Shape) (hitem : ∀ o, item .value o = shape.read .value o >>= make)
    (hopen : shape.closed = false)
    (hfields : shape.fields.map Field.name ⊆ rule.propertiesOf.keys) : Skips item rule := by
  intro v
  rw [hitem, hitem]
  cases v with
  | obj fields =>
    have hread : shape.read .value (.ofJson (rule.describedPart (.obj fields))) =
        shape.read .value (.ofJson (.obj fields)) := Shape.readEntries_filter hopen hfields
    rw [hread]
  | _ => rfl

end Shape

/-- A text is no object. -/
theorem refuses_string (rule : Json) : Refuses string rule := fun _ _ h => nomatch h

/-- What is refused in each item is in no item of a list that was read. -/
theorem keys_of_items (h : Refuses item rule) {vs : List Json} {as : List α}
    (hitems : items item .value (.ofJsons vs) = .ok as) {fields : Members} (hv : .obj fields ∈ vs) :
    ∀ key ∈ fields.keys, key ∈ rule.propertiesOf.keys := by
  induction vs generalizing as with
  | nil => exact absurd hv List.not_mem_nil
  | cons v vs ih =>
    obtain ⟨a, ha, hitems⟩ := bind_eq_ok_iff.mp hitems
    obtain ⟨as, has, _⟩ := bind_eq_ok_iff.mp hitems
    rcases List.mem_cons.mp hv with rfl | hv
    · exact h fields a ha
    · exact ih has hv

/-- What is passed over in each item is passed over in a list. -/
theorem items_map_describedPart (h : Skips item rule) (vs : List Json) :
    items item .value (.ofJsons (vs.map rule.describedPart)) = items item .value (.ofJsons vs) := by
  induction vs with
  | nil => rfl
  | cons v vs ih => rw [List.map_cons, Items.ofJsons, Items.ofJsons, items, items, h v, ih]

end Decoder

end Json

namespace Tool

variable {α : Type} {name : String} {args : Json}

/-! ## The only argument -/

/-- Arguments are read off members that are fields, each once; `null` has no members. -/
theorem of_readArguments {fields : List Field} {values : FieldValues}
    (h : readArguments fields args = .ok values) :
    ∃ ms : Members, (args = .null ∧ ms = [] ∨ args = .obj ms) ∧ values = Shape.valuesOf ms ∧
      ms.keys.Nodup ∧ ms.keys ⊆ fields.map Field.name := by
  obtain ⟨ms, hms, hread⟩ := bind_eq_ok_iff.mp h
  have hread := mapError_eq_ok_iff.mp hread
  obtain ⟨hvalues, hnodup, _⟩ := Shape.of_readEntries rfl hread
  refine ⟨ms, ?_, hvalues, hnodup, Shape.keys_subset_of_readEntries rfl hread⟩
  cases args with
  | null => cases hms; exact Or.inl ⟨rfl, rfl⟩
  | obj _ => cases hms; exact Or.inr rfl
  | _ => nomatch hms

/-- Where no argument is declared, none may be given. -/
theorem eq_of_readArguments_nil {values : FieldValues} (h : readArguments [] args = .ok values) :
    args = .null ∨ args = .obj [] := by
  obtain ⟨ms, hargs, _, _, hkeys⟩ := of_readArguments h
  obtain rfl : ms = [] := List.map_eq_nil_iff.mp (List.subset_nil.mp hkeys)
  exact hargs.imp_left And.left

section Sole

variable {value : Decoder α} {a : α}

theorem required_singleton (o : Outline) :
    FieldValues.required [(name, o)] name .value value = value .value o := by
  rw [FieldValues.required, List.lookup_cons_self]

/-- An only member with the right name is read. -/
theorem soleArgument_obj {v : Json} (h : value .value (.ofJson v) = .ok a) :
    soleArgument name value (.obj [(name, v)]) = .ok a := by
  have hfind : [Field.fixed name value].find? (·.name == name) = some (.fixed name value) :=
    List.find?_cons_of_pos (beq_self_eq_true name)
  have hread : Shape.readEntries ⟨"arguments", [.fixed name value], true⟩ .value []
      (.ofMembers [(name, v)]) = .ok [(name, .ofJson v)] := by
    refine Shape.readEntries_ofMembers (List.nodup_singleton name) fun m hm => ?_
    cases List.mem_singleton.mp hm
    exact ⟨_, hfind, Field.check_fixed name h⟩
  refine bind_eq_ok_iff.mpr ⟨_, bind_eq_ok_iff.mpr ⟨_, rfl, mapError_eq_ok_iff.mpr hread⟩, ?_⟩
  exact mapError_eq_ok_iff.mpr ((required_singleton _).trans h)

/-- **The only argument** is the value of the only member. -/
theorem soleArgument_eq_ok_iff :
    soleArgument name value args = .ok a ↔
      ∃ v, args = .obj [(name, v)] ∧ value .value (.ofJson v) = .ok a := by
  constructor
  · intro h
    obtain ⟨values, hvalues, h⟩ := bind_eq_ok_iff.mp h
    obtain ⟨ms, hargs, rfl, hnodup, hkeys⟩ := of_readArguments hvalues
    have hvalue := mapError_eq_ok_iff.mp h
    -- The keys are distinct and all of them the name of the argument, so there is one at most.
    have hlength : ms.length ≤ 1 := by
      rw [← List.length_map Prod.fst]
      exact (List.subperm_of_subset hnodup hkeys).length_le
    match ms with
    | [] => nomatch hvalue
    | [(key, v)] =>
      obtain rfl : key = name := List.mem_singleton.mp (hkeys List.mem_cons_self)
      exact ⟨v, hargs.resolve_left fun hnull => (nomatch hnull.2),
        (required_singleton _).symm.trans hvalue⟩
    | _ :: _ :: _ => exact absurd hlength (by simp)
  · rintro ⟨v, rfl, hv⟩
    exact soleArgument_obj hv

end Sole

/-- **The items of the only argument** are some and stand in an array. -/
theorem someItems_eq_ok_iff {item : Decoder α} {as : List α} :
    someItems name item args = .ok as ↔
      ∃ vs, args = .obj [(name, .arr vs)] ∧ Decoder.items item .value (.ofJsons vs) = .ok as ∧
        as ≠ [] := by
  rw [someItems, bind_eq_ok_iff]
  constructor
  · rintro ⟨items, hitems, h⟩
    obtain ⟨v, rfl, hlist⟩ := soleArgument_eq_ok_iff.mp hitems
    cases v with
    | arr vs =>
      cases items with
      | nil => nomatch h
      | cons a as =>
        cases h
        exact ⟨vs, rfl, hlist, List.cons_ne_nil a as⟩
    | _ => nomatch hlist
  · rintro ⟨vs, rfl, hitems, hne⟩
    refine ⟨as, soleArgument_eq_ok_iff.mpr ⟨_, rfl, hitems⟩, ?_⟩
    cases as with
    | nil => exact absurd rfl hne
    | cons a as => rfl

namespace GraphTool

/-! ## Declared keys -/

/-- Every key of the arguments is declared by the input schema. -/
def KeysDeclared (t : GraphTool) (args : Json) : Prop :=
  ∀ ms : Members, args = .obj ms → ∀ key ∈ ms.keys, key ∈ t.inputSchema.propertiesOf.keys

/-- Every key of an object in an array among the arguments is declared by the schema for the items
of the array. -/
def ItemKeysDeclared (t : GraphTool) (args : Json) : Prop :=
  ∀ ms : Members, args = .obj ms → ∀ name rule vs, t.inputSchema.itemSchema? name = some rule →
    (name, .arr vs) ∈ ms → ∀ fields : Members, .obj fields ∈ vs →
      ∀ key ∈ fields.keys, key ∈ rule.propertiesOf.keys

/-- The arguments without the members that are not declared, be they their own or those of items. -/
def declaredPart (t : GraphTool) : Json → Json
  | .obj ms => .obj ((ms.filter fun m => m.1 ∈ t.inputSchema.propertiesOf.keys).map fun m =>
      (m.1, t.inputSchema.describedItems m.1 m.2))
  | v => v

/-- Whether an item may hold members that nobody asks for. -/
def hasOpenItems : GraphTool → Bool
  | .updateNodes | .updateEdges | .addMetadata | .deleteMetadata => true
  | _ => false

/-- Nothing in the arguments is passed over. -/
def RefusesUndeclared (t : GraphTool) : Prop :=
  ∀ args r, t.validate args = .ok r → t.KeysDeclared args ∧ t.ItemKeysDeclared args

variable {t : GraphTool} {item : Decoder α} {rule : Json}

theorem keysDeclared_of_sole {v : Json} (hname : name ∈ t.inputSchema.propertiesOf.keys) :
    t.KeysDeclared (.obj [(name, v)]) := by
  rintro ms ⟨⟩ key hkey
  cases List.mem_singleton.mp hkey
  exact hname

theorem declaredPart_obj {ms : Members} (h : t.KeysDeclared (.obj ms)) :
    t.declaredPart (.obj ms) =
      .obj (ms.map fun m => (m.1, t.inputSchema.describedItems m.1 m.2)) := by
  have hall : ∀ m ∈ ms, m.1 ∈ t.inputSchema.propertiesOf.keys :=
    fun m hm => h ms rfl m.1 (List.mem_map_of_mem hm)
  rw [declaredPart, List.filter_eq_self.mpr fun m hm => decide_eq_true (hall m hm)]

/-- Where everything is declared, nothing is left out. -/
theorem declaredPart_eq_self (hkeys : t.KeysDeclared args) (hitems : t.ItemKeysDeclared args) :
    t.declaredPart args = args := by
  cases args with
  | obj ms =>
    -- An array whose items are described is looked at item by item; every other member stays
    -- anyway.
    have hsame : ∀ m ∈ ms, (m.1, t.inputSchema.describedItems m.1 m.2) = id m := by
      rintro ⟨name, v⟩ hm
      refine congrArg (Prod.mk name) ?_
      cases v with
      | arr vs =>
        cases hrule : t.inputSchema.itemSchema? name with
        | none => rw [describedItems, hrule]
        | some rule =>
          have hvs : vs.map rule.describedPart = vs.map id := List.map_congr_left fun v hv =>
            describedPart_eq_self fun fields hfields =>
              hitems ms rfl name rule vs hrule hm fields (hfields ▸ hv)
          rw [describedItems, hrule]
          simp only [hvs, List.map_id]
      | _ => rfl
    rw [declaredPart_obj hkeys, List.map_congr_left hsame, List.map_id]
  | _ => rfl

/-! ## Closed items -/

variable {request : List α → Request}

/-- **A tool with closed items passes nothing over.** -/
theorem refusesUndeclared_of_items
    (hvalidate : ∀ args, t.validate args = someItems name item args >>= fun as => .ok (request as))
    (hname : name ∈ t.inputSchema.propertiesOf.keys)
    (hrule : t.inputSchema.itemSchema? name = some rule) (hitem : item.Refuses rule) :
    t.RefusesUndeclared := by
  intro args r hr
  rw [hvalidate] at hr
  obtain ⟨as, has, _⟩ := bind_eq_ok_iff.mp hr
  obtain ⟨vs, rfl, hitems, _⟩ := someItems_eq_ok_iff.mp has
  refine ⟨keysDeclared_of_sole hname, ?_⟩
  rintro ms ⟨⟩ name' rule' vs' hrule' hmem
  cases List.mem_singleton.mp hmem
  cases hrule.symm.trans hrule'
  exact fun fields hv => Decoder.keys_of_items hitem hitems hv

/-- **The tools with closed items**, one by one: those that read records, those that read names, and
the two that read no array. -/
theorem refusesUndeclared_of_closed (h : t.hasOpenItems = false) : t.RefusesUndeclared := by
  cases t with
  | addNodes =>
    exact refusesUndeclared_of_items (fun _ => rfl) (by decide) rfl
      (.ofShape Node.shape (fun _ => rfl) rfl (List.Subset.refl _))
  | addEdges =>
    exact refusesUndeclared_of_items (fun _ => rfl) (by decide) rfl
      (.ofShape Edge.shape (fun _ => rfl) rfl (List.Subset.refl _))
  | deleteEdges =>
    exact refusesUndeclared_of_items (fun _ => rfl) (by decide) rfl
      (.ofShape Edge.shape (fun _ => rfl) rfl (List.Subset.refl _))
  | deleteNodes =>
    exact refusesUndeclared_of_items (fun _ => rfl) (by decide) rfl (Decoder.refuses_string _)
  | openNodes =>
    exact refusesUndeclared_of_items (fun _ => rfl) (by decide) rfl (Decoder.refuses_string _)
  | readGraph =>
    intro args r hr
    obtain ⟨_, hread, _⟩ := bind_eq_ok_iff.mp hr
    rcases eq_of_readArguments_nil hread with rfl | rfl
    · exact ⟨nofun, nofun⟩
    · constructor
      · rintro ms ⟨⟩ key hkey
        nomatch hkey
      · rintro ms ⟨⟩ name rule vs _ hmem
        nomatch hmem
  | searchNodes =>
    intro args r hr
    obtain ⟨_, hquery, _⟩ := bind_eq_ok_iff.mp hr
    obtain ⟨v, rfl, hv⟩ := soleArgument_eq_ok_iff.mp hquery
    refine ⟨keysDeclared_of_sole (by decide), ?_⟩
    -- The query is a text and no array.
    rintro ms ⟨⟩ name rule vs _ hmem
    cases List.mem_singleton.mp hmem
    nomatch hv
  | _ => nomatch h

/-! ## Open items -/

/-- **Open items do not tell** whether members of theirs that are not declared are left out. -/
theorem someItems_declaredPart (hname : name ∈ t.inputSchema.propertiesOf.keys)
    (hrule : t.inputSchema.itemSchema? name = some rule) (hitem : item.Skips rule)
    (hkeys : t.KeysDeclared args) {as : List α} :
    someItems name item (t.declaredPart args) = .ok as ↔ someItems name item args = .ok as := by
  have harr : ∀ vs, t.inputSchema.describedItems name (.arr vs) =
      .arr (vs.map rule.describedPart) := by
    intro vs
    rw [describedItems, hrule]
  rw [someItems_eq_ok_iff, someItems_eq_ok_iff]
  constructor
  · -- The part has one member, which is an array, so the arguments have one, which is an array with
    -- as many items.
    rintro ⟨ws, hargs, hitems, hne⟩
    cases args with
    | obj ms =>
      rw [declaredPart_obj hkeys] at hargs
      obtain ⟨⟨name', v⟩, rfl, hm⟩ := List.map_eq_singleton_iff.mp (Json.obj.inj hargs)
      obtain ⟨rfl, hv⟩ := Prod.mk.inj hm
      cases v with
      | arr vs =>
        obtain rfl := Json.arr.inj ((harr vs).symm.trans hv)
        exact ⟨vs, rfl, (Decoder.items_map_describedPart hitem vs).symm.trans hitems, hne⟩
      | _ => nomatch hv
    | _ => nomatch hargs
  · rintro ⟨vs, rfl, hitems, hne⟩
    refine ⟨vs.map rule.describedPart, ?_, (Decoder.items_map_describedPart hitem vs).trans hitems,
      hne⟩
    rw [declaredPart_obj hkeys, ← harr vs]
    rfl

/-- A tool that reads an array with open items asks for the same if what is not declared is left
out. -/
theorem validate_declaredPart_of_items
    (hvalidate : ∀ args, t.validate args = someItems name item args >>= fun as => .ok (request as))
    (hname : name ∈ t.inputSchema.propertiesOf.keys)
    (hrule : t.inputSchema.itemSchema? name = some rule) (hitem : item.Skips rule) (r : Request) :
    t.validate args = .ok r ↔ t.KeysDeclared args ∧ t.validate (t.declaredPart args) = .ok r := by
  have hsame (hkeys : t.KeysDeclared args) :
      t.validate (t.declaredPart args) = .ok r ↔ t.validate args = .ok r := by
    rw [hvalidate, hvalidate, bind_eq_ok_iff, bind_eq_ok_iff]
    simp only [someItems_declaredPart hname hrule hitem hkeys]
  constructor
  · intro h
    have hkeys : t.KeysDeclared args := by
      rw [hvalidate] at h
      obtain ⟨_, has, _⟩ := bind_eq_ok_iff.mp h
      obtain ⟨_, rfl, _⟩ := someItems_eq_ok_iff.mp has
      exact keysDeclared_of_sole hname
    exact ⟨hkeys, (hsame hkeys).mpr h⟩
  · rintro ⟨hkeys, h⟩
    exact (hsame hkeys).mp h

/-- **A tool with open items** asks for the same if undeclared members of items are left out. -/
theorem validate_declaredPart_of_open (h : t.hasOpenItems = true) (args : Json) (r : Request) :
    t.validate args = .ok r ↔ t.KeysDeclared args ∧ t.validate (t.declaredPart args) = .ok r := by
  cases t with
  | updateNodes =>
    exact validate_declaredPart_of_items (fun _ => rfl) (by decide) rfl
      (.ofShape NodeUpdate.shape (fun _ => rfl) rfl (List.Subset.refl _)) r
  | updateEdges =>
    exact validate_declaredPart_of_items (fun _ => rfl) (by decide) rfl
      (.ofShape EdgeUpdate.shape (fun _ => rfl) rfl (List.Subset.refl _)) r
  | addMetadata =>
    exact validate_declaredPart_of_items (fun _ => rfl) (by decide) rfl
      (.ofShape (NodeLines.shape NodeLines.addition) (fun _ => rfl) rfl (List.Subset.refl _)) r
  | deleteMetadata =>
    exact validate_declaredPart_of_items (fun _ => rfl) (by decide) rfl
      (.ofShape (NodeLines.shape NodeLines.deletion) (fun _ => rfl) rfl (List.Subset.refl _)) r
  | _ => nomatch h

/-! ## Which keys are refused -/

/-- **Which undeclared keys are refused, and which are passed over.**  A tool accepts arguments
exactly if all their keys are declared, all keys of their items are unless the items are open, and
what is declared of the arguments is accepted.  It makes the same request of this part. -/
theorem validate_eq_ok_iff_declared (t : GraphTool) (args : Json) (r : Request) :
    t.validate args = .ok r ↔
      t.KeysDeclared args ∧ (t.hasOpenItems = false → t.ItemKeysDeclared args) ∧
        t.validate (t.declaredPart args) = .ok r := by
  cases hopen : t.hasOpenItems with
  | true =>
    rw [validate_declaredPart_of_open hopen, forall_prop_of_false Bool.noConfusion, true_and]
  | false =>
    rw [forall_prop_of_true rfl]
    constructor
    · intro h
      obtain ⟨hkeys, hitems⟩ := refusesUndeclared_of_closed hopen args r h
      rw [declaredPart_eq_self hkeys hitems]
      exact ⟨hkeys, hitems, h⟩
    · rintro ⟨hkeys, hitems, h⟩
      rwa [declaredPart_eq_self hkeys hitems] at h

/-- The new end of an edge stands under a key that is not declared. -/
def misspelt : Json :=
  .obj [("edges", .arr [.obj [("from", .str "Ann"), ("to", .str "Bob"), ("edgeType", .str "knows"),
    ("new_to", .str "Eve")]])]

/-- **There are tools that pass keys over.**  The arguments are accepted, and nothing new is asked
for. -/
theorem not_refusesUndeclared_misspelt :
    updateEdges.validate misspelt =
        .ok (.change (.updateEdges [⟨⟨"Ann", "Bob", "knows"⟩, none, none, none⟩])) ∧
      ¬ ∀ t : GraphTool, t.RefusesUndeclared := by
  have h : updateEdges.validate misspelt =
      .ok (.change (.updateEdges [⟨⟨"Ann", "Bob", "knows"⟩, none, none, none⟩])) := by rfl
  refine ⟨h, fun hrefuses => ?_⟩
  have hkey := (hrefuses updateEdges misspelt _ h).2 _ rfl "edges" _ _ rfl List.mem_cons_self _
    List.mem_cons_self "new_to" (by decide)
  exact absurd hkey (by decide)

end GraphTool

end Tool

end GraphKeeper

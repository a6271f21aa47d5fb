/-
  Values that a text carries: what is written comes back as it was.

  The text of a value is read as its outline if its numbers read back and it is not nested too
  deeply (`JsonText`).  For the outline to stand for the value again no object may name a key twice,
  since the second one would take the place of the first.  A value is portable if all three hold
  (`Json.Portable`); arrays and objects are portable if their parts are, and strings always.

  Of numbers only counts are needed.  The reader asks two things of their digits: that they do not
  begin with a zero, unless there is no other digit (`head?_toDigits`), and that what they stand for
  fits a 64-bit word, else the number is taken for a double (`takeDigits_eq`).  Counts of what is in
  memory fit a word (`readsBack_ofNat`).

  A record is read off a portable object field by field.  What the reader of a record finds are the
  members themselves when all of them are fields (`Shape.readEntries_ofMembers`), and nothing when
  none of them is (`Shape.readEntries_ofMembers_of_unknown`).  The other way round, a closed record
  is read off nothing but its fields (`Shape.of_readEntries`), while an open one is read as if the
  members that are not its own were left out (`Shape.readEntries_filter`).
-/
import GraphKeeper.Proofs.GraphFile
import GraphKeeper.Proofs.TextsInPlace

namespace GraphKeeper.Json

/-! ## Digits in front -/

/-- Only nought is written as a zero. -/
theorem digitChar_ne_zero : ∀ n < 10, 0 < n → Nat.digitChar n ≠ '0' := by decide

/-- The digits of a number begin with a zero only if there are no others. -/
theorem head?_toDigits (n : Nat) (hn : 0 < n) : (Nat.toDigits 10 n).head? ≠ some '0' := by
  induction n using Nat.strongRecOn with
  | ind n ih =>
    rw [Nat.toDigits_eq_if (by decide)]
    split
    · rename_i hlt
      intro h
      exact digitChar_ne_zero n hlt hn (Option.some.inj h)
    · -- The last digit is not the first one.
      have htenth : 0 < n / 10 := by omega
      rw [List.head?_append_of_ne_nil _ Nat.toDigits_ne_nil]
      exact ih (n / 10) (by omega) htenth

/-- All digits of a number are read as its whole part. -/
theorem readWhole_toDigits (n : Nat) {rest : List Char} (hrest : EndsDigits rest) :
    readWhole (Nat.toDigits 10 n ++ rest) = .ok (Nat.toDigits 10 n, rest) := by
  have hdigits : ∀ c ∈ Nat.toDigits 10 n, c.isDigit = true := fun c hc =>
    Nat.isDigit_of_mem_toDigits (by decide) (by decide) hc
  obtain ⟨htake, hdrop⟩ := takeWhile_isDigit_append hdigits hrest
  simp only [readWhole, htake, hdrop]
  split
  · rename_i hnil
    exact absurd hnil Nat.toDigits_ne_nil
  -- A zero with a digit behind it is refused, and does not occur.
  · rename_i d ds hzero
    rcases Nat.eq_zero_or_pos n with rfl | hpos
    · cases hzero
    · exact absurd (by rw [hzero]; rfl) (head?_toDigits n hpos)
  · rfl

/-! ## What digits stand for -/

/-- Further digits do not make a number smaller. -/
theorem le_ofDigitChars (ds : List Char) (n : Nat) : n ≤ Nat.ofDigitChars 10 ds n := by
  induction ds generalizing n with
  | nil => exact Nat.le_refl n
  | cons d ds ih =>
    have hstep : n ≤ 10 * n + (d.toNat - '0'.toNat) := by omega
    exact Nat.le_trans hstep (ih _)

/-- All digits are taken if the number that they make up fits a word, for then every part of it
does. -/
theorem takeDigits_eq (ds : List Char) (n taken : Nat) (h : Nat.ofDigitChars 10 ds n ≤ wordMax) :
    takeDigits n taken ds = (Nat.ofDigitChars 10 ds n, taken + ds.length) := by
  induction ds generalizing n taken with
  | nil => rfl
  | cons d ds ih =>
    have hstep : Nat.ofDigitChars 10 (d :: ds) n =
        Nat.ofDigitChars 10 ds (n * 10 + (d.toNat - '0'.toNat)) := by
      rw [Nat.mul_comm]
      rfl
    rw [hstep] at h ⊢
    rw [takeDigits, if_pos (Nat.le_trans (le_ofDigitChars ds _) h), ih _ _ h, List.length_cons,
      Nat.add_right_comm, Nat.add_assoc]

/-- Digits stand for the number that they were written for, if it fits a word. -/
theorem value_toDigits {n : Nat} (h : n ≤ wordMax) :
    Numeral.value ⟨false, Nat.toDigits 10 n, none, none⟩ = .ok (.int n) := by
  have hvalue : Nat.ofDigitChars 10 (Nat.toDigits 10 n) 0 = n := Nat.ofDigitChars_ten_toDigits
  have htaken := takeDigits_eq (Nat.toDigits 10 n) 0 0 (by rw [hvalue]; exact h)
  rw [hvalue, Nat.zero_add] at htaken
  simp only [Numeral.value, Option.isNone_none, and_self, if_true, htaken, Nat.lt_irrefl, if_false,
    Bool.false_eq_true, not_false_eq_true]

/-! ## Whole numbers -/

/-- The digits of a number are read as a number without fraction and exponent. -/
theorem readNumeral_toDigits (n : Nat) {rest : List Char} (hrest : EndsNumber rest) :
    readNumeral false (Nat.toDigits 10 n ++ rest) =
      .ok (⟨false, Nat.toDigits 10 n, none, none⟩, rest) := by
  have hwhole : readWhole (Nat.toDigits 10 n ++ rest) = .ok (Nat.toDigits 10 n, rest) :=
    readWhole_toDigits n fun c hc => (hrest c hc).1
  have hfraction : readFraction rest = .ok (none, rest) := by
    unfold readFraction
    split
    · exact absurd rfl (hrest '.' rfl).2.1
    · rfl
  refine bind_eq_ok_iff.mpr ⟨_, hwhole, ?_⟩
  refine bind_eq_ok_iff.mpr ⟨_, hfraction, ?_⟩
  exact bind_eq_ok_iff.mpr ⟨_, readExponent_of_endsNumber hrest, rfl⟩

/-- **A natural number that fits a word is read back from its text.** -/
theorem readsBack_ofNat {n : Nat} (h : n ≤ wordMax) : ReadsBack (.int n) := by
  have hchars : numberChars (.int n) = Nat.toDigits 10 n := by
    rw [numberChars, intChars, if_neg (by omega), Int.natAbs_natCast]
  obtain ⟨c, cs, hcs⟩ := List.exists_cons_of_ne_nil (Nat.toDigits_ne_nil (n := n) (b := 10))
  have hc : c.isDigit = true :=
    Nat.isDigit_of_mem_toDigits (by decide) (by decide) (hcs ▸ List.mem_cons_self)
  refine ⟨⟨c, cs, hchars.trans hcs, Or.inr hc⟩, fun {fuel depth rest} hrest => ?_⟩
  have hnumeral := readNumeral_toDigits n hrest
  have hvalue := value_toDigits h
  rw [hcs] at hnumeral hvalue
  rw [List.cons_append] at hnumeral
  rw [hchars, hcs, List.cons_append, readValue_digit hc, hnumeral]
  simp only [leaf, numberOutline, hvalue]

/-! ## Values -/

/-- A value that its text carries, with arrays and objects in it up to `depth` deep. -/
structure Portable (depth : Nat) (v : Json) : Prop where
  legible : v.Legible
  height_le : v.height ≤ depth
  toJson_ofJson : (Outline.ofJson v).toJson = .ok v

namespace Portable

variable {depth : Nat} {v : Json} {vs : List Json} {ms : Members}

/-- A value that is portable is so with more room. -/
theorem mono {depth' : Nat} (h : v.Portable depth) (hle : depth ≤ depth') : v.Portable depth' :=
  ⟨h.legible, Nat.le_trans h.height_le hle, h.toJson_ofJson⟩

/-- Truth values are portable. -/
theorem bool (b : Bool) : Portable depth (.bool b) := ⟨trivial, Nat.zero_le _, rfl⟩

/-- **Texts are portable, whatever is in them.** -/
theorem str (s : String) : Portable depth (.str s) := ⟨trivial, Nat.zero_le _, rfl⟩

/-- A count is, if it fits a word. -/
theorem ofNat {n : Nat} (h : n ≤ wordMax) : Portable depth (.ofNat n) :=
  ⟨readsBack_ofNat h, Nat.zero_le _, rfl⟩

/-- An array is if its items are, and is one level deeper. -/
theorem arr (h : ∀ v ∈ vs, v.Portable depth) : Portable (depth + 1) (.arr vs) := by
  have hitems : LegibleItems vs ∧ heightItems vs ≤ depth ∧
      (Items.ofJsons vs).toJsons = .ok vs := by
    induction vs with
    | nil => exact ⟨trivial, Nat.zero_le _, rfl⟩
    | cons v vs ih =>
      obtain ⟨hv, hvs⟩ := List.forall_mem_cons.mp h
      obtain ⟨hlegible, hheight, htoJson⟩ := ih hvs
      refine ⟨⟨hv.legible, hlegible⟩, Nat.max_le.mpr ⟨hv.height_le, hheight⟩, ?_⟩
      simp only [Items.ofJsons, Items.toJsons, hv.toJson_ofJson, htoJson]
      rfl
  obtain ⟨hlegible, hheight, htoJson⟩ := hitems
  refine ⟨hlegible, Nat.succ_le_succ hheight, ?_⟩
  simp only [Outline.ofJson, Outline.toJson, htoJson]
  rfl

/-- A list of texts is. -/
theorem ofStrings (ss : List String) : Portable (depth + 1) (.ofStrings ss) := by
  refine arr fun v hv => ?_
  obtain ⟨s, _, rfl⟩ := List.mem_map.mp hv
  exact str s

/-- A key that is new comes behind the others. -/
theorem set_of_not_mem {key : String} (h : key ∉ ms.keys) : ms.set key v = ms ++ [(key, v)] := by
  induction ms with
  | nil => rfl
  | cons m ms ih =>
    obtain ⟨hm, hms⟩ := not_or.mp (List.mem_cons.not.mp h)
    rw [Members.set, if_neg (Ne.symm hm), ih hms]
    rfl

/-- **An object is portable if its members are and its keys are distinct.** -/
theorem obj (hkeys : ms.keys.Nodup) (h : ∀ m ∈ ms, m.2.Portable depth) :
    Portable (depth + 1) (.obj ms) := by
  -- The reader puts each member behind those that it has read.
  have hmembers : ∀ acc : Members, (acc ++ ms).keys.Nodup → LegibleMembers ms ∧
      heightMembers ms ≤ depth ∧ (Entries.ofMembers ms).toMembers acc = .ok (acc ++ ms) := by
    -- The induction is on the members still to be read; those in front are in `acc`.
    clear hkeys
    induction ms with
    | nil =>
      intro acc _
      exact ⟨trivial, Nat.zero_le _, by rw [List.append_nil]; rfl⟩
    | cons m ms ih =>
      obtain ⟨key, v⟩ := m
      intro acc hacc
      obtain ⟨hv, hms⟩ := List.forall_mem_cons.mp h
      -- The key is not among those in front, so it does not take the place of another member.
      have hnew : key ∉ acc.keys := by
        intro hmem
        rw [Members.keys, List.map_append] at hacc
        exact List.disjoint_of_nodup_append hacc hmem List.mem_cons_self
      have happend : acc ++ (key, v) :: ms = acc ++ [(key, v)] ++ ms := by
        rw [List.append_assoc, List.singleton_append]
      obtain ⟨hlegible, hheight, htoMembers⟩ := ih hms (acc ++ [(key, v)]) (happend ▸ hacc)
      refine ⟨⟨hv.legible, hlegible⟩, Nat.max_le.mpr ⟨hv.height_le, hheight⟩, ?_⟩
      rw [happend, ← htoMembers]
      simp only [Entries.ofMembers, Entries.toMembers, hv.toJson_ofJson, ← set_of_not_mem hnew]
      rfl
  obtain ⟨hlegible, hheight, htoMembers⟩ := hmembers [] hkeys
  refine ⟨hlegible, Nat.succ_le_succ hheight, ?_⟩
  simp only [Outline.ofJson, Outline.toJson, htoMembers]
  rfl

end Portable

/-! ## Records -/

mutual

/-- There is nothing at fault in a value at hand, so it can be skipped. -/
theorem skip_ofJson : ∀ v : Json, (Outline.ofJson v).skip = .ok ()
  | .null => rfl
  | .bool _ => rfl
  | .num _ => rfl
  | .str _ => rfl
  | .arr vs => skip_ofJsons vs
  | .obj ms => skip_ofMembers ms

/-- Nor is there in the items of an array. -/
theorem skip_ofJsons : ∀ vs : List Json, (Items.ofJsons vs).skip = .ok ()
  | [] => rfl
  | v :: vs => by
    rw [Items.ofJsons, Items.skip, skip_ofJson v]
    exact skip_ofJsons vs

/-- Nor in members. -/
theorem skip_ofMembers : ∀ ms : Members, (Entries.ofMembers ms).skip = .ok ()
  | [] => rfl
  | (_, v) :: ms => by
    rw [Entries.ofMembers, Entries.skip, skip_ofJson v]
    exact skip_ofMembers ms

end

/-- A required field is in order if its value can be read. -/
theorem Field.check_fixed {α : Type} (name : String) {value : Decoder α} {src : Source}
    {o : Outline} {a : α} (h : value src o = .ok a) :
    (Field.fixed name value).check src o = .ok () := by
  simp only [Field.fixed, h]
  rfl

namespace Shape

variable {shape : Shape} {src : Source} {ms : Members} {seen values : FieldValues}

/-- The members of an object, as the values of fields. -/
def valuesOf (ms : Members) : FieldValues := ms.map fun m => (m.1, .ofJson m.2)

/-- The value of a field is that of the member with its name. -/
theorem lookup_valuesOf (ms : Members) (key : String) :
    (valuesOf ms).lookup key = (ms.get? key).map .ofJson := by
  rw [valuesOf, Members.get?]
  induction ms with
  | nil => rfl
  | cons m ms ih =>
    rw [List.map_cons, List.lookup_cons, List.lookup_cons, ih]
    cases key == m.1 <;> rfl

/-- **Members that are fields, each once and each of its type, are the values of the record.** -/
theorem readEntries_ofMembers (hkeys : (seen.map Prod.fst ++ ms.keys).Nodup)
    (h : ∀ m ∈ ms, ∃ field, shape.fields.find? (·.name == m.1) = some field ∧
      field.check src (.ofJson m.2) = .ok ()) :
    shape.readEntries src seen (.ofMembers ms) = .ok (seen ++ valuesOf ms) := by
  -- Each member is a field that has not been seen, so it is put behind those seen.
  induction ms generalizing seen with
  | nil =>
    rw [valuesOf, List.map_nil, List.append_nil]
    rfl
  | cons m ms ih =>
    obtain ⟨key, v⟩ := m
    obtain ⟨⟨field, hfield, hcheck⟩, hms⟩ := List.forall_mem_cons.mp h
    have hnew : seen.lookup key = none := by
      refine List.lookup_eq_none_iff.mpr fun p hp => bne_iff_ne.mpr ?_
      rintro rfl
      exact List.disjoint_of_nodup_append hkeys (List.mem_map_of_mem hp) List.mem_cons_self
    have hkeys' : ((seen ++ [(key, Outline.ofJson v)]).map Prod.fst ++ Members.keys ms).Nodup := by
      simpa [Members.keys, List.append_assoc] using hkeys
    have hrest := ih hkeys' hms
    rw [List.append_assoc, List.singleton_append] at hrest
    rw [Entries.ofMembers, readEntries]
    refine bind_eq_ok_iff.mpr ⟨key, rfl, ?_⟩
    simp only [hfield, hnew, hcheck]
    exact hrest

/-- A closed record takes a member if it is a field that is new, and of its type. -/
theorem of_readEntries_cons {key : String} {v : Json} (hclosed : shape.closed = true)
    (h : shape.readEntries src seen (.ofMembers ((key, v) :: ms)) = .ok values) :
    seen.lookup key = none ∧
      (∃ field ∈ shape.fields, field.name = key ∧ field.check src (.ofJson v) = .ok ()) ∧
      shape.readEntries src (seen ++ [(key, .ofJson v)]) (.ofMembers ms) = .ok values := by
  simp only [Entries.ofMembers, readEntries] at h
  obtain ⟨_, hkey, h⟩ := bind_eq_ok_iff.mp h
  cases hkey
  split at h
  · rename_i field hfield
    have hname : field.name = key := by simpa using List.find?_some hfield
    split at h
    · nomatch h
    · rename_i hnew
      obtain ⟨_, hcheck, h⟩ := bind_eq_ok_iff.mp h
      exact ⟨Option.not_isSome_iff_eq_none.mp hnew,
        ⟨field, List.mem_of_find?_eq_some hfield, hname, hcheck⟩, h⟩
  · rw [hclosed] at h
    nomatch h

/-- **What a closed record is read off**: members that are fields, each once and of its type. -/
theorem of_readEntries (hclosed : shape.closed = true)
    (h : shape.readEntries src seen (.ofMembers ms) = .ok values) :
    values = seen ++ valuesOf ms ∧ ms.keys.Nodup ∧
      ∀ m ∈ ms, seen.lookup m.1 = none ∧
        ∃ field ∈ shape.fields, field.name = m.1 ∧ field.check src (.ofJson m.2) = .ok () := by
  induction ms generalizing seen with
  | nil =>
    cases h
    exact ⟨(List.append_nil _).symm, List.nodup_nil, fun _ h => absurd h List.not_mem_nil⟩
  | cons m ms ih =>
    obtain ⟨key, v⟩ := m
    obtain ⟨hnew, hfield, hrest⟩ := of_readEntries_cons hclosed h
    obtain ⟨hvalues, hnodup, hms⟩ := ih hrest
    -- A member behind has another key, since the key has been seen by then.
    have hbehind : ∀ m ∈ ms, seen.lookup m.1 = none ∧ m.1 ≠ key := by
      intro m hm
      have hlookup := (hms m hm).1
      rw [List.lookup_append, Option.or_eq_none_iff] at hlookup
      refine ⟨hlookup.1, ?_⟩
      rintro heq
      rw [heq, List.lookup_cons_self] at hlookup
      nomatch hlookup.2
    refine ⟨?_, List.nodup_cons.mpr ⟨fun hmem => ?_, hnodup⟩, fun m hm => ?_⟩
    · rw [hvalues, List.append_assoc]
      rfl
    · obtain ⟨m, hm, heq⟩ := List.mem_map.mp hmem
      exact (hbehind m hm).2 heq
    · rcases List.mem_cons.mp hm with rfl | hm
      · exact ⟨hnew, hfield⟩
      · exact ⟨(hbehind m hm).1, (hms m hm).2⟩

/-- A closed record has no keys but the names of its fields. -/
theorem keys_subset_of_readEntries (hclosed : shape.closed = true)
    (h : shape.readEntries src seen (.ofMembers ms) = .ok values) :
    ms.keys ⊆ shape.fields.map Field.name := by
  intro key hkey
  obtain ⟨m, hm, rfl⟩ := List.mem_map.mp hkey
  obtain ⟨_, _, hmembers⟩ := of_readEntries hclosed h
  obtain ⟨_, field, hfield, hname, _⟩ := hmembers m hm
  exact hname ▸ List.mem_map_of_mem hfield

/-- An open record skips a member that is not its own. -/
theorem readEntries_cons_of_unknown {m : String × Json} (hopen : shape.closed = false)
    (h : shape.fields.find? (·.name == m.1) = none) (ms : Members) :
    shape.readEntries src seen (.ofMembers (m :: ms)) =
      shape.readEntries src seen (.ofMembers ms) := by
  obtain ⟨key, v⟩ := m
  have hskip : liftFlaw (Outline.ofJson v).skip = .ok () := by
    rw [skip_ofJson]
    rfl
  -- The key of a value at hand has no flaw.
  have hkey : ∀ f : String → Except DecodeError FieldValues, liftFlaw (.ok key) >>= f = f key :=
    fun f => rfl
  rw [Entries.ofMembers, readEntries, hkey]
  simp only [h, hopen, hskip]
  rfl

/-- An open record skips members that are not its own. -/
theorem readEntries_ofMembers_of_unknown (hopen : shape.closed = false)
    (h : ∀ m ∈ ms, shape.fields.find? (·.name == m.1) = none) :
    shape.readEntries src seen (.ofMembers ms) = .ok seen := by
  induction ms with
  | nil => rfl
  | cons m ms ih =>
    obtain ⟨hm, hms⟩ := List.forall_mem_cons.mp h
    rw [readEntries_cons_of_unknown hopen hm]
    exact ih hms

/-- An open record does not notice when members that are not its own are left out. -/
theorem readEntries_filter {known : List String} (hopen : shape.closed = false)
    (hknown : shape.fields.map Field.name ⊆ known) :
    shape.readEntries src seen (.ofMembers (ms.filter fun m => m.1 ∈ known)) =
      shape.readEntries src seen (.ofMembers ms) := by
  induction ms generalizing seen with
  | nil => rfl
  | cons m ms ih =>
    -- A member is left out only if it is no field, and then the reader skips it.
    by_cases hkey : m.1 ∈ known
    · rw [List.filter_cons_of_pos (by simpa using hkey), Entries.ofMembers, Entries.ofMembers,
        readEntries, readEntries]
      simp only [ih]
    · have hnone : shape.fields.find? (·.name == m.1) = none := by
        refine List.find?_eq_none.mpr fun field hfield heq => hkey (hknown ?_)
        exact eq_of_beq heq ▸ List.mem_map_of_mem hfield
      rw [List.filter_cons_of_neg (by simpa using hkey), readEntries_cons_of_unknown hopen hnone]
      exact ih

end Shape

end GraphKeeper.Json

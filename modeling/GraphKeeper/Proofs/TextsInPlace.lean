/-
  A text that is a JSON value is read as the same value inside of another text.

  Reading goes from left to right and never back, so what it makes of a text depends on the
  characters that it takes and on hardly anything else.  Whoever puts the text somewhere else has to
  see to three things:
    * there is as much fuel as before, which longer texts have;
    * arrays and objects that are open around it leave room for those in it (`Outline.height`);
    * no number is at its end that could go on behind it (`EndsNumber`).

  All this holds of readings that come to a value (`Outline.Whole`); where a text breaks off, the
  reader looks at what is left of it.  The proof follows the reader: one step of each of its four
  functions reads elsewhere what it reads if the steps with less fuel do (`valueElsewhere_succ`,
  `itemsElsewhere_succ`, `entriesElsewhere_succ`, `entryElsewhere_succ`), and one induction on the
  fuel puts the four together (`elsewhere`).
-/
import GraphKeeper.Proofs.TokensInPlace

namespace GraphKeeper.Json

/-! ## Readings that come to a value -/

mutual

/-- Whether the text neither breaks off nor goes too deep, and all tokens stand for something. -/
def Outline.Whole : Outline → Prop
  | .unusable _ | .broken _ => False
  | .arr tooDeep items => tooDeep = false ∧ items.Whole
  | .obj tooDeep entries => tooDeep = false ∧ entries.Whole
  | _ => True

def Items.Whole : Items → Prop
  | .done => True
  | .broken _ => False
  | .item head tail => head.Whole ∧ tail.Whole

def Entries.Whole : Entries → Prop
  | .done => True
  | .broken _ => False
  | .entry key value tail => (∃ k, key = .ok k) ∧ value.Whole ∧ tail.Whole

end

mutual

/-- How many arrays and objects lie within each other. -/
def Outline.height : Outline → Nat
  | .arr _ items => items.height + 1
  | .obj _ entries => entries.height + 1
  | _ => 0

def Items.height : Items → Nat
  | .item head tail => max head.height tail.height
  | _ => 0

def Entries.height : Entries → Nat
  | .entry _ value tail => max value.height tail.height
  | _ => 0

end

mutual

/-- **What stands for a value is whole.**  The cases are those of the outline; each part that has a
flaw would have ended the value. -/
theorem Outline.whole_of_toJson : ∀ {o : Outline} {v : Json}, o.toJson = .ok v → o.Whole
  | .null, _, _ | .bool _, _, _ | .num _, _, _ | .str _, _, _ => trivial
  | .unusable _, _, h | .broken _, _, h => nomatch h
  | .arr tooDeep items, _, h => by
    cases tooDeep with
    | true => nomatch h
    | false =>
      obtain ⟨_, hitems, _⟩ := bind_eq_ok_iff.mp h
      exact ⟨rfl, Items.whole_of_toJsons hitems⟩
  | .obj tooDeep entries, _, h => by
    cases tooDeep with
    | true => nomatch h
    | false =>
      obtain ⟨_, hentries, _⟩ := bind_eq_ok_iff.mp h
      exact ⟨rfl, Entries.whole_of_toMembers hentries⟩

/-- Items that stand for values are whole. -/
theorem Items.whole_of_toJsons : ∀ {items : Items} {vs : List Json},
    items.toJsons = .ok vs → items.Whole
  | .done, _, _ => trivial
  | .broken _, _, h => nomatch h
  | .item head tail, _, h => by
    obtain ⟨_, hhead, h⟩ := bind_eq_ok_iff.mp h
    obtain ⟨_, htail, _⟩ := bind_eq_ok_iff.mp h
    exact ⟨Outline.whole_of_toJson hhead, Items.whole_of_toJsons htail⟩

/-- So are members, whatever members stand in front of them. -/
theorem Entries.whole_of_toMembers : ∀ {entries : Entries} {acc ms : Members},
    entries.toMembers acc = .ok ms → entries.Whole
  | .done, _, _, _ => trivial
  | .broken _, _, _, h => nomatch h
  | .entry key value tail, _, _, h => by
    obtain ⟨k, hkey, h⟩ := bind_eq_ok_iff.mp h
    obtain ⟨_, hvalue, h⟩ := bind_eq_ok_iff.mp h
    exact ⟨⟨k, hkey⟩, Outline.whole_of_toJson hvalue, Entries.whole_of_toMembers h⟩

end

/-! ## The same characters elsewhere -/

/-- A value that is read at the front of `cs` is read from the same characters elsewhere. -/
def ValueElsewhere (fuel : Nat) (cs : List Char) : Prop :=
  ∀ depth o rest, readValue fuel depth cs = (o, rest) → o.Whole →
    ∃ used, cs = used ++ rest ∧ used ≠ [] ∧
      ∀ fuel' depth' more, fuel ≤ fuel' → depth' + o.height ≤ depthLimit → EndsNumber more →
        readValue fuel' depth' (onOneLine used ++ more) = (o, more)

/-- The same for what stands behind a value or an opening bracket.  Behind a value it begins with a
comma or a bracket, perhaps after blanks, where a number ends. -/
def TailElsewhere {α : Type} (read : Nat → Nat → Bool → List Char → α × List Char)
    (Whole : α → Prop) (height : α → Nat) (fuel : Nat) (first : Bool) (cs : List Char) : Prop :=
  ∀ depth a rest, read fuel depth first cs = (a, rest) → Whole a →
    ∃ used, cs = used ++ rest ∧ (first = false → ∀ more, EndsNumber (onOneLine used ++ more)) ∧
      ∀ fuel' depth' more, fuel ≤ fuel' → depth' + height a ≤ depthLimit →
        read fuel' depth' first (onOneLine used ++ more) = (a, more)

abbrev ItemsElsewhere := TailElsewhere readItems Items.Whole Items.height

abbrev EntriesElsewhere := TailElsewhere readEntries Entries.Whole Entries.height

/-- The same for a member from behind the opening quote of its key on, and those after it. -/
def EntryElsewhere (fuel : Nat) (cs : List Char) : Prop :=
  ∀ depth entries rest, readEntry fuel depth '"' cs = (entries, rest) → entries.Whole →
    ∃ used, cs = used ++ rest ∧
      ∀ fuel' depth' more, fuel ≤ fuel' → depth' + entries.height ≤ depthLimit →
        readEntry fuel' depth' '"' (onOneLine used ++ more) = (entries, more)

/-! ### Blanks in front -/

section Blanks

variable {fuel depth : Nat} {first : Bool} {front cs : List Char}

/-- Blanks in front of a value make no difference, not even in the fuel. -/
theorem readValue_blanks (h : ∀ c ∈ front, isSpace c = true) :
    readValue fuel depth (front ++ cs) = readValue fuel depth cs := by
  cases fuel with
  | zero => rw [readValue, readValue]
  | succ fuel => rw [readValue, readValue, skipSpaces_append h]

/-- Nor do they in front of items. -/
theorem readItems_blanks (h : ∀ c ∈ front, isSpace c = true) :
    readItems fuel depth first (front ++ cs) = readItems fuel depth first cs := by
  cases fuel with
  | zero => rw [readItems, readItems]
  | succ fuel => rw [readItems, readItems, skipSpaces_append h]

/-- Nor do they in front of members. -/
theorem readEntries_blanks (h : ∀ c ∈ front, isSpace c = true) :
    readEntries fuel depth first (front ++ cs) = readEntries fuel depth first cs := by
  cases fuel with
  | zero => rw [readEntries, readEntries]
  | succ fuel => rw [readEntries, readEntries, skipSpaces_append h]

/-- A number ends in front of a blank. -/
theorem endsNumber_of_isSpace {c : Char} (h : isSpace c = true) : EndsNumber (c :: cs) := by
  refine endsNumber_cons ?_
  simp only [isSpace, Bool.or_eq_true, decide_eq_true_eq] at h
  rcases h with ((rfl | rfl) | rfl) | rfl <;> decide

/-- A number that ends in front of a text ends in front of blanks before it. -/
theorem endsNumber_blanks (hfront : ∀ c ∈ front, isSpace c = true) (h : EndsNumber cs) :
    EndsNumber (front ++ cs) := by
  cases front with
  | nil => exact h
  | cons c front => exact endsNumber_of_isSpace (hfront c List.mem_cons_self)

/-- What holds of a value holds of it with blanks in front. -/
theorem ValueElsewhere.blanks (h : ValueElsewhere fuel cs)
    (hfront : ∀ c ∈ front, isSpace c = true) : ValueElsewhere fuel (front ++ cs) := by
  intro depth o rest hread ho
  rw [readValue_blanks hfront] at hread
  obtain ⟨used, rfl, hused, hmore⟩ := h depth o rest hread ho
  refine ⟨front ++ used, (List.append_assoc ..).symm,
    List.append_ne_nil_of_right_ne_nil _ hused, ?_⟩
  intro fuel' depth' more hfuel hdepth hend
  -- A line break among the blanks has become another blank elsewhere.
  rw [onOneLine_append, List.append_assoc, readValue_blanks (isSpace_of_mem_onOneLine hfront)]
  exact hmore fuel' depth' more hfuel hdepth hend

/-- The same for items and for members, since both readers skip blanks first. -/
theorem TailElsewhere.blanks {α : Type} {read : Nat → Nat → Bool → List Char → α × List Char}
    {Whole : α → Prop} {height : α → Nat}
    (hread : ∀ {fuel depth : Nat} {first : Bool} {front cs : List Char},
      (∀ c ∈ front, isSpace c = true) →
        read fuel depth first (front ++ cs) = read fuel depth first cs)
    (h : TailElsewhere read Whole height fuel first cs)
    (hfront : ∀ c ∈ front, isSpace c = true) :
    TailElsewhere read Whole height fuel first (front ++ cs) := by
  intro depth a rest hcs ha
  rw [hread hfront] at hcs
  obtain ⟨used, rfl, hend, hmore⟩ := h depth a rest hcs ha
  refine ⟨front ++ used, (List.append_assoc ..).symm, fun hfirst more => ?_, ?_⟩
  · rw [onOneLine_append, List.append_assoc]
    exact endsNumber_blanks (isSpace_of_mem_onOneLine hfront) (hend hfirst more)
  · intro fuel' depth' more hfuel hdepth
    rw [onOneLine_append, List.append_assoc, hread (isSpace_of_mem_onOneLine hfront)]
    exact hmore fuel' depth' more hfuel hdepth

end Blanks

/-! ### One step of the reader -/

section Steps

variable {fuel depth : Nat} {cs rest last : List Char} {c : Char} {o : Outline}

/-- A quote begins a string. -/
theorem readValue_quote :
    readValue (fuel + 1) depth ('"' :: cs) = leaf (readString cs) stringOutline := by
  rw [readValue, skipSpaces_cons rfl]
  simp only [if_true]

/-- A sign begins a number. -/
theorem readValue_minus :
    readValue (fuel + 1) depth ('-' :: cs) = leaf (readNumeral true cs) numberOutline := by
  rw [readValue, skipSpaces_cons rfl]
  simp only [Char.reduceEq, if_false, if_true]

/-- A digit begins a number, and is a part of it. -/
theorem readValue_digit (hc : c.isDigit = true) :
    readValue (fuel + 1) depth (c :: cs) = leaf (readNumeral false (c :: cs)) numberOutline := by
  have hne : ∀ d : Char, d.isDigit = false → c ≠ d := by
    rintro d hd rfl
    cases hd.symm.trans hc
  rw [readValue, skipSpaces_cons (begins_of_number (Or.inr hc)).1]
  simp only [hne '"' rfl, hne '[' rfl, hne '\x7b' rfl, hne 'n' rfl, hne 't' rfl, hne 'f' rfl,
    hne '-' rfl, hc, if_false, if_true]

/-- A leaf that is whole was found, and nothing behind it was touched. -/
theorem leaf_whole {α : Type} {found : Except Break (α × List Char)} {f : α → Outline}
    (h : leaf found f = (o, rest)) (ho : o.Whole) : ∃ a, found = .ok (a, rest) ∧ o = f a := by
  cases found with
  | error why =>
    cases h
    cases ho
  | ok r =>
    obtain ⟨a, rest'⟩ := r
    cases h
    exact ⟨a, rfl, rfl⟩

/-- A string that is whole has no flaw in its escapes. -/
theorem whole_stringOutline {s : Except Flaw String} (h : (stringOutline s).Whole) :
    ∃ t, s = .ok t := by
  cases s with
  | error flaw => cases h
  | ok t => exact ⟨t, rfl⟩

/-- A string elsewhere. -/
theorem valueElsewhere_quote : ValueElsewhere (fuel + 1) ('"' :: cs) := by
  intro depth o rest hread ho
  rw [readValue_quote] at hread
  obtain ⟨s, hs, rfl⟩ := leaf_whole hread ho
  obtain ⟨t, rfl⟩ := whole_stringOutline ho
  obtain ⟨used, rfl, hline, hmore⟩ := readString_elsewhere hs
  refine ⟨'"' :: used, rfl, List.cons_ne_nil _ _, fun fuel' depth' more hfuel _ _ => ?_⟩
  obtain ⟨k, rfl⟩ := Nat.exists_eq_add_of_le' (show 1 ≤ fuel' by omega)
  rw [onOneLine_eq_self (List.not_mem_cons_of_ne_of_not_mem (by decide) hline), List.cons_append,
    readValue_quote, hmore]
  rfl

/-- A number below zero elsewhere. -/
theorem valueElsewhere_minus : ValueElsewhere (fuel + 1) ('-' :: cs) := by
  intro depth o rest hread ho
  rw [readValue_minus] at hread
  obtain ⟨x, hx, rfl⟩ := leaf_whole hread ho
  obtain ⟨used, rfl, hline, hmore⟩ := readNumeral_elsewhere hx
  refine ⟨'-' :: used, rfl, List.cons_ne_nil _ _, fun fuel' depth' more hfuel _ hend => ?_⟩
  obtain ⟨k, rfl⟩ := Nat.exists_eq_add_of_le' (show 1 ≤ fuel' by omega)
  rw [onOneLine_eq_self (List.not_mem_cons_of_ne_of_not_mem (by decide) hline), List.cons_append,
    readValue_minus, hmore more hend]
  rfl

/-- Any other number elsewhere. -/
theorem valueElsewhere_digit (hc : c.isDigit = true) : ValueElsewhere (fuel + 1) (c :: cs) := by
  intro depth o rest hread ho
  rw [readValue_digit hc] at hread
  obtain ⟨x, hx, rfl⟩ := leaf_whole hread ho
  obtain ⟨used, hcs, hline, hmore⟩ := readNumeral_elsewhere hx
  -- A number has a digit, so what it takes is not empty.
  cases used with
  | nil => cases hmore [] endsNumber_nil
  | cons d used =>
    cases hcs
    refine ⟨c :: used, rfl, List.cons_ne_nil _ _, fun fuel' depth' more hfuel _ hend => ?_⟩
    obtain ⟨k, rfl⟩ := Nat.exists_eq_add_of_le' (show 1 ≤ fuel' by omega)
    rw [onOneLine_eq_self hline, List.cons_append, readValue_digit hc, ← List.cons_append,
      hmore more hend]
    rfl

/-- A word is read off nothing but its own letters. -/
theorem eq_of_readWord {word cs rest : List Char} (h : readWord word cs = .ok rest) :
    cs = word ++ rest := by
  induction word generalizing cs with
  | nil =>
    cases h
    rfl
  | cons w word ih =>
    cases cs with
    | nil => cases h
    | cons c cs =>
      rw [readWord] at h
      split at h
      · rename_i hc
        rw [hc, ih h, List.cons_append]
      · cases h

/-- A word elsewhere, from its first character on. -/
theorem valueElsewhere_word (word : String) (o : Outline) (hline : '\n' ∉ c :: word.toList)
    (hword : ∀ fuel depth cs, readValue (fuel + 1) depth (c :: cs) = wordOutline word cs o) :
    ValueElsewhere (fuel + 1) (c :: cs) := by
  intro depth o' rest hread ho
  rw [hword] at hread
  obtain ⟨u, hu, rfl⟩ := leaf_whole hread ho
  cases hrest : readWord word.toList cs with
  | error why =>
    rw [hrest] at hu
    cases hu
  | ok rest' =>
    rw [hrest] at hu
    cases hu
    refine ⟨c :: word.toList, by rw [eq_of_readWord hrest, List.cons_append],
      List.cons_ne_nil _ _, ?_⟩
    intro fuel' depth' more hfuel _ _
    obtain ⟨k, rfl⟩ := Nat.exists_eq_add_of_le' (show 1 ≤ fuel' by omega)
    rw [onOneLine_eq_self hline, List.cons_append, hword, wordOutline_append]

/-- An array elsewhere, if its items are. -/
theorem valueElsewhere_array (hitems : ItemsElsewhere fuel true cs) :
    ValueElsewhere (fuel + 1) ('[' :: cs) := by
  intro depth o rest hread ho
  rw [readValue, skipSpaces_cons rfl] at hread
  simp only [Char.reduceEq, if_false, if_true] at hread
  cases hread
  obtain ⟨used, hcs, _, hmore⟩ := hitems (depth + 1) _ _ rfl ho.2
  refine ⟨'[' :: used, by rw [List.cons_append, ← hcs], List.cons_ne_nil _ _, ?_⟩
  intro fuel' depth' more hfuel hdepth _
  -- The bracket costs one step and one level, elsewhere as well as here.
  obtain ⟨k, rfl⟩ := Nat.exists_eq_add_of_le' (show 1 ≤ fuel' by omega)
  rw [Outline.height] at hdepth
  rw [ho.1]
  exact readValue_array (by omega) (hmore k (depth' + 1) more (by omega) (by omega))

/-- An object elsewhere, if its members are. -/
theorem valueElsewhere_object (hentries : EntriesElsewhere fuel true cs) :
    ValueElsewhere (fuel + 1) ('\x7b' :: cs) := by
  intro depth o rest hread ho
  rw [readValue, skipSpaces_cons rfl] at hread
  simp only [Char.reduceEq, if_false, if_true] at hread
  cases hread
  obtain ⟨used, hcs, _, hmore⟩ := hentries (depth + 1) _ _ rfl ho.2
  refine ⟨'\x7b' :: used, by rw [List.cons_append, ← hcs], List.cons_ne_nil _ _, ?_⟩
  intro fuel' depth' more hfuel hdepth _
  obtain ⟨k, rfl⟩ := Nat.exists_eq_add_of_le' (show 1 ≤ fuel' by omega)
  rw [Outline.height] at hdepth
  rw [ho.1]
  exact readValue_object (by omega) (hmore k (depth' + 1) more (by omega) (by omega))

/-- One step of reading a value. -/
theorem valueElsewhere_succ (hitems : ∀ cs, ItemsElsewhere fuel true cs)
    (hentries : ∀ cs, EntriesElsewhere fuel true cs) (cs : List Char) :
    ValueElsewhere (fuel + 1) cs := by
  -- Behind the blanks the reader looks at one character, and the cases are those it looks for.
  cases hskip : skipSpaces cs with
  | nil =>
    intro depth o rest hread ho
    rw [readValue, hskip] at hread
    cases hread
    cases ho
  | cons c ds =>
    obtain ⟨front, rfl, hfront, hc⟩ := skipSpaces_eq_cons hskip
    refine ValueElsewhere.blanks ?_ hfront
    by_cases hquote : c = '"'
    · exact hquote ▸ valueElsewhere_quote
    by_cases harray : c = '['
    · exact harray ▸ valueElsewhere_array (hitems ds)
    by_cases hobject : c = '\x7b'
    · exact hobject ▸ valueElsewhere_object (hentries ds)
    by_cases hnull : c = 'n'
    · refine hnull ▸ valueElsewhere_word "ull" .null (by decide) fun _ _ _ => ?_
      rw [readValue, skipSpaces_cons rfl]
      simp only [Char.reduceEq, if_false, if_true]
    by_cases htrue : c = 't'
    · refine htrue ▸ valueElsewhere_word "rue" (.bool true) (by decide) fun _ _ _ => ?_
      rw [readValue, skipSpaces_cons rfl]
      simp only [Char.reduceEq, if_false, if_true]
    by_cases hfalse : c = 'f'
    · refine hfalse ▸ valueElsewhere_word "alse" (.bool false) (by decide) fun _ _ _ => ?_
      rw [readValue, skipSpaces_cons rfl]
      simp only [Char.reduceEq, if_false, if_true]
    by_cases hminus : c = '-'
    · exact hminus ▸ valueElsewhere_minus
    by_cases hdigit : c.isDigit = true
    · exact valueElsewhere_digit hdigit
    -- No value begins with any other character, so the text breaks off.
    intro depth o rest hread ho
    rw [readValue, skipSpaces_cons hc] at hread
    simp only [hquote, harray, hobject, hnull, htrue, hfalse, hminus, hdigit, if_false] at hread
    cases hread
    cases ho

/-- A value that begins with a character that is no blank takes at least this character. -/
theorem ValueElsewhere.cons (h : ValueElsewhere fuel (c :: cs)) (hc : isSpace c = false)
    (hread : readValue fuel depth (c :: cs) = (o, rest)) (ho : o.Whole) :
    ∃ used, cs = used ++ rest ∧
      ∀ fuel' depth' more, fuel ≤ fuel' → depth' + o.height ≤ depthLimit → EndsNumber more →
        readValue fuel' depth' (c :: (onOneLine used ++ more)) = (o, more) := by
  obtain ⟨used, hcs, hused, hmore⟩ := h depth o rest hread ho
  obtain ⟨d, used, rfl⟩ := List.exists_cons_of_ne_nil hused
  cases hcs
  refine ⟨used, rfl, fun fuel' depth' more hfuel hdepth hend => ?_⟩
  rw [← List.cons_append, ← onOneLine_cons_of_isSpace hc]
  exact hmore fuel' depth' more hfuel hdepth hend

/-- A bracket that closes what is not begun or behind an item. -/
theorem itemsElsewhere_close {first : Bool} : ItemsElsewhere (fuel + 1) first (']' :: cs) := by
  intro depth items rest hread _
  rw [readItems_close] at hread
  cases hread
  refine ⟨[']'], rfl, fun _ more => endsNumber_cons (by decide), ?_⟩
  intro fuel' depth' more hfuel _
  obtain ⟨k, rfl⟩ := Nat.exists_eq_add_of_le' (show 1 ≤ fuel' by omega)
  exact readItems_close first

/-- The same for the brace that closes an object. -/
theorem entriesElsewhere_close {first : Bool} :
    EntriesElsewhere (fuel + 1) first ('\x7d' :: cs) := by
  intro depth entries rest hread _
  rw [readEntries_close] at hread
  cases hread
  refine ⟨['\x7d'], rfl, fun _ more => endsNumber_cons (by decide), ?_⟩
  intro fuel' depth' more hfuel _
  obtain ⟨k, rfl⟩ := Nat.exists_eq_add_of_le' (show 1 ≤ fuel' by omega)
  exact readEntries_close first

/-- An item and those after it, if each of both can be read elsewhere. -/
theorem item_elsewhere (hvalue : ValueElsewhere fuel (c :: cs)) (hc : isSpace c = false)
    (htail : ∀ cs, ItemsElsewhere fuel false cs) {mid : List Char} {tail : Items}
    (hread : readValue fuel depth (c :: cs) = (o, mid)) (ho : o.Whole)
    (hreadTail : readItems fuel depth false mid = (tail, rest)) (hwhole : tail.Whole) :
    ∃ used, cs = used ++ rest ∧
      ∀ fuel' depth' more, fuel ≤ fuel' → depth' + max o.height tail.height ≤ depthLimit →
        ∃ mid', readValue fuel' depth' (c :: (onOneLine used ++ more)) = (o, mid') ∧
          readItems fuel' depth' false mid' = (tail, more) := by
  -- The item is cut off first; what is behind it begins with something that ends a number.
  obtain ⟨head, rfl, hmore⟩ := hvalue.cons hc hread ho
  obtain ⟨behind, rfl, hend, hmoreTail⟩ := htail mid depth tail rest hreadTail hwhole
  refine ⟨head ++ behind, (List.append_assoc ..).symm, fun fuel' depth' more hfuel hdepth => ?_⟩
  refine ⟨onOneLine behind ++ more, ?_, hmoreTail fuel' depth' more hfuel (by omega)⟩
  rw [onOneLine_append, List.append_assoc]
  exact hmore fuel' depth' _ hfuel (by omega) (hend rfl more)

/-- An item behind a comma, with blanks between them. -/
theorem readItems_comma {blanks : List Char} {tail : Items} (hc : Begins c)
    (hblanks : ∀ x ∈ blanks, isSpace x = true)
    (hvalue : readValue fuel depth (c :: cs) = (o, rest))
    (htail : readItems fuel depth false rest = (tail, last)) :
    readItems (fuel + 1) depth false (',' :: (blanks ++ c :: cs)) = (.item o tail, last) := by
  rw [readItems, skipSpaces_cons rfl]
  simp only [Char.reduceEq, if_false, if_true, Bool.false_eq_true, skipSpaces_append hblanks,
    skipSpaces_cons hc.1, if_neg hc.2, hvalue, htail]

/-- Items from the first one on. -/
theorem itemsElsewhere_first (hc : Begins c) (hvalue : ValueElsewhere fuel (c :: cs))
    (htail : ∀ cs, ItemsElsewhere fuel false cs) : ItemsElsewhere (fuel + 1) true (c :: cs) := by
  intro depth items rest hread hitems
  rw [readItems_first hc rfl rfl] at hread
  cases hread
  obtain ⟨used, hcs, hmore⟩ := item_elsewhere hvalue hc.1 htail rfl hitems.1 rfl hitems.2
  refine ⟨c :: used, congrArg (c :: ·) hcs, (absurd ·.symm Bool.false_ne_true), ?_⟩
  intro fuel' depth' more hfuel hdepth
  obtain ⟨k, rfl⟩ := Nat.exists_eq_add_of_le' (show 1 ≤ fuel' by omega)
  obtain ⟨mid, hhead, hrest⟩ := hmore k depth' more (by omega) hdepth
  rw [onOneLine_cons_of_isSpace hc.1, List.cons_append]
  exact readItems_first hc hhead hrest

/-- Items from the comma behind an item on. -/
theorem itemsElsewhere_comma {blanks : List Char} (hblanks : ∀ x ∈ blanks, isSpace x = true)
    (hc : Begins c) (hvalue : ValueElsewhere fuel (c :: cs))
    (htail : ∀ cs, ItemsElsewhere fuel false cs) :
    ItemsElsewhere (fuel + 1) false (',' :: (blanks ++ c :: cs)) := by
  intro depth items rest hread hitems
  rw [readItems_comma hc hblanks rfl rfl] at hread
  cases hread
  obtain ⟨used, hcs, hmore⟩ := item_elsewhere hvalue hc.1 htail rfl hitems.1 rfl hitems.2
  refine ⟨',' :: (blanks ++ c :: used), ?_, fun _ _ => endsNumber_cons (by decide), ?_⟩
  · rw [List.cons_append, List.append_assoc, List.cons_append, ← hcs]
  · intro fuel' depth' more hfuel hdepth
    obtain ⟨k, rfl⟩ := Nat.exists_eq_add_of_le' (show 1 ≤ fuel' by omega)
    obtain ⟨mid, hhead, hrest⟩ := hmore k depth' more (by omega) hdepth
    rw [onOneLine_cons_of_isSpace rfl, onOneLine_append, onOneLine_cons_of_isSpace hc.1,
      List.cons_append, List.append_assoc, List.cons_append]
    exact readItems_comma hc (isSpace_of_mem_onOneLine hblanks) hhead hrest

/-- One step of reading items. -/
theorem itemsElsewhere_succ (hvalue : ∀ cs, ValueElsewhere fuel cs)
    (htail : ∀ cs, ItemsElsewhere fuel false cs) (first : Bool) (cs : List Char) :
    ItemsElsewhere (fuel + 1) first cs := by
  cases hskip : skipSpaces cs with
  | nil =>
    intro depth items rest hread hitems
    rw [readItems, hskip] at hread
    cases hread
    cases hitems
  | cons c ds =>
    obtain ⟨front, rfl, hfront, hc⟩ := skipSpaces_eq_cons hskip
    refine TailElsewhere.blanks readItems_blanks ?_ hfront
    by_cases hclose : c = ']'
    · exact hclose ▸ itemsElsewhere_close
    -- What may stand here differs: in front an item, behind an item a comma.
    cases first with
    | true => exact itemsElsewhere_first ⟨hc, hclose⟩ (hvalue _) htail
    | false =>
      intro depth items rest hread hitems
      by_cases hcomma : c = ','
      · subst hcomma
        cases hnext : skipSpaces ds with
        | nil =>
          simp only [readItems, skipSpaces_cons hc, hnext, Char.reduceEq, Bool.false_eq_true,
            if_false, if_true] at hread
          cases hread
          cases hitems
        | cons d es =>
          obtain ⟨blanks, rfl, hblanks, hd⟩ := skipSpaces_eq_cons hnext
          by_cases hbracket : d = ']'
          -- A comma with no item behind it breaks off.
          · subst hbracket
            simp only [readItems, skipSpaces_cons hc, hnext, Char.reduceEq, Bool.false_eq_true,
              if_false, if_true] at hread
            cases hread
            cases hitems
          · exact itemsElsewhere_comma hblanks ⟨hd, hbracket⟩ (hvalue _) htail depth items rest
              hread hitems
      · simp only [readItems, skipSpaces_cons hc, hclose, hcomma, Bool.false_eq_true, if_false]
          at hread
        cases hread
        cases hitems

/-! ### Members -/

/-- A member from behind the opening quote of its key on, with blanks in front of the colon. -/
theorem readEntry_colon {keyChars blanks : List Char} {key : String} {tail : Entries}
    (hkey : ∀ more, readString (keyChars ++ more) = .ok (.ok key, more))
    (hblanks : ∀ x ∈ blanks, isSpace x = true)
    (hvalue : readValue fuel depth cs = (o, rest))
    (htail : readEntries fuel depth false rest = (tail, last)) :
    readEntry (fuel + 1) depth '"' (keyChars ++ (blanks ++ ':' :: cs)) =
      (.entry (.ok key) o tail, last) := by
  rw [readEntry]
  simp only [if_true, hkey, skipSpaces_append hblanks,
    skipSpaces_cons (show isSpace ':' = false from rfl), hvalue, htail]

/-- One step of reading a member. -/
theorem entryElsewhere_succ (hvalue : ∀ cs, ValueElsewhere fuel cs)
    (htail : ∀ cs, EntriesElsewhere fuel false cs) (cs : List Char) :
    EntryElsewhere (fuel + 1) cs := by
  intro depth entries rest hread hentries
  -- A member is cut into its key, blanks with a colon, its value and the members behind it.
  cases hkey : readString cs with
  | error why =>
    simp only [readEntry, if_true, hkey] at hread
    cases hread
    cases hentries
  | ok r =>
    obtain ⟨key, behind⟩ := r
    simp only [readEntry, if_true, hkey] at hread
    cases hskip : skipSpaces behind with
    | nil =>
      rw [hskip] at hread
      cases hread
      cases hentries.2.1
    | cons d ds =>
      rw [hskip] at hread
      by_cases hcolon : d = ':'
      · simp only [hcolon, if_true] at hread
        cases hread
        obtain ⟨⟨k, rfl⟩, ho, hwhole⟩ := hentries
        obtain ⟨keyChars, rfl, hline, hmoreKey⟩ := readString_elsewhere hkey
        obtain ⟨blanks, rfl, hblanks, _⟩ := skipSpaces_eq_cons hskip
        obtain ⟨head, hds, _, hmoreHead⟩ := hvalue ds depth _ _ rfl ho
        obtain ⟨tail, hmid, hend, hmoreTail⟩ := htail _ depth _ _ rfl hwhole
        refine ⟨keyChars ++ (blanks ++ ':' :: (head ++ tail)), ?_, ?_⟩
        · rw [hcolon, List.append_assoc, List.append_assoc, List.cons_append, List.append_assoc,
            ← hmid, ← hds]
        · intro fuel' depth' more hfuel hdepth
          obtain ⟨j, rfl⟩ := Nat.exists_eq_add_of_le' (show 1 ≤ fuel' by omega)
          simp only [Entries.height] at hdepth
          have hreadHead := hmoreHead j depth' (onOneLine tail ++ more) (by omega) (by omega)
            (hend rfl more)
          have hreadTail := hmoreTail j depth' more (by omega) (by omega)
          rw [onOneLine_append, onOneLine_eq_self hline, onOneLine_append,
            onOneLine_cons_of_isSpace rfl, onOneLine_append, List.append_assoc, List.append_assoc,
            List.cons_append, List.append_assoc]
          exact readEntry_colon hmoreKey (isSpace_of_mem_onOneLine hblanks) hreadHead hreadTail
      · simp only [if_neg hcolon] at hread
        cases hread
        cases hentries.2.1

/-- Where members are whole, a key begins with its quote. -/
theorem eq_quote_of_whole {entries : Entries} (h : readEntry fuel depth c cs = (entries, rest))
    (hentries : entries.Whole) : c = '"' := by
  by_contra hc
  cases fuel with
  | zero =>
    rw [readEntry] at h
    cases h
    cases hentries
  | succ fuel =>
    rw [readEntry, if_neg hc] at h
    cases h
    cases hentries

/-- A member behind a comma, with blanks between them. -/
theorem readEntries_comma {blanks : List Char} (hblanks : ∀ x ∈ blanks, isSpace x = true) :
    readEntries (fuel + 1) depth false (',' :: (blanks ++ '"' :: cs)) =
      readEntry fuel depth '"' cs := by
  rw [readEntries, skipSpaces_cons rfl]
  simp only [Char.reduceEq, if_false, if_true, Bool.false_eq_true, skipSpaces_append hblanks,
    skipSpaces_cons (show isSpace '"' = false from rfl)]

/-- Members from the first one on. -/
theorem entriesElsewhere_first (h : EntryElsewhere fuel cs) :
    EntriesElsewhere (fuel + 1) true ('"' :: cs) := by
  intro depth entries rest hread hentries
  rw [readEntries_first] at hread
  obtain ⟨used, rfl, hmore⟩ := h depth entries rest hread hentries
  refine ⟨'"' :: used, rfl, (absurd ·.symm Bool.false_ne_true),
    fun fuel' depth' more hfuel hdepth => ?_⟩
  obtain ⟨k, rfl⟩ := Nat.exists_eq_add_of_le' (show 1 ≤ fuel' by omega)
  rw [onOneLine_cons_of_isSpace rfl, List.cons_append, readEntries_first]
  exact hmore k depth' more (by omega) hdepth

/-- Members from the comma behind a member on. -/
theorem entriesElsewhere_comma {blanks : List Char} (hblanks : ∀ x ∈ blanks, isSpace x = true)
    (h : EntryElsewhere fuel cs) :
    EntriesElsewhere (fuel + 1) false (',' :: (blanks ++ '"' :: cs)) := by
  intro depth entries rest hread hentries
  rw [readEntries_comma hblanks] at hread
  obtain ⟨used, rfl, hmore⟩ := h depth entries rest hread hentries
  refine ⟨',' :: (blanks ++ '"' :: used), ?_, fun _ _ => endsNumber_cons (by decide), ?_⟩
  · rw [List.cons_append, List.append_assoc, List.cons_append]
  · intro fuel' depth' more hfuel hdepth
    obtain ⟨k, rfl⟩ := Nat.exists_eq_add_of_le' (show 1 ≤ fuel' by omega)
    rw [onOneLine_cons_of_isSpace rfl, onOneLine_append, onOneLine_cons_of_isSpace rfl,
      List.cons_append, List.append_assoc, List.cons_append,
      readEntries_comma (isSpace_of_mem_onOneLine hblanks)]
    exact hmore k depth' more (by omega) hdepth

/-- One step of reading members. -/
theorem entriesElsewhere_succ (hentry : ∀ cs, EntryElsewhere fuel cs) (first : Bool)
    (cs : List Char) : EntriesElsewhere (fuel + 1) first cs := by
  cases hskip : skipSpaces cs with
  | nil =>
    intro depth entries rest hread hentries
    rw [readEntries, hskip] at hread
    cases hread
    cases hentries
  | cons c ds =>
    obtain ⟨front, rfl, hfront, hc⟩ := skipSpaces_eq_cons hskip
    refine TailElsewhere.blanks readEntries_blanks ?_ hfront
    by_cases hclose : c = '\x7d'
    · exact hclose ▸ entriesElsewhere_close
    intro depth entries rest hread hentries
    cases first with
    | true =>
      -- A first member must begin with a quote, since other keys break off.
      have hread' := hread
      simp only [readEntries, skipSpaces_cons hc, hclose, if_false, if_true] at hread'
      cases eq_quote_of_whole hread' hentries
      exact entriesElsewhere_first (hentry ds) depth entries rest hread hentries
    | false =>
      by_cases hcomma : c = ','
      · subst hcomma
        cases hnext : skipSpaces ds with
        | nil =>
          simp only [readEntries, skipSpaces_cons hc, hnext, Char.reduceEq, Bool.false_eq_true,
            if_false, if_true] at hread
          cases hread
          cases hentries
        | cons d es =>
          obtain ⟨blanks, rfl, hblanks, hd⟩ := skipSpaces_eq_cons hnext
          by_cases hbrace : d = '\x7d'
          -- A comma with no member behind it breaks off.
          · subst hbrace
            simp only [readEntries, skipSpaces_cons hc, hnext, Char.reduceEq, Bool.false_eq_true,
              if_false, if_true] at hread
            cases hread
            cases hentries
          · have hread' := hread
            simp only [readEntries, skipSpaces_cons hc, hnext, hbrace, Char.reduceEq,
              Bool.false_eq_true, if_false, if_true] at hread'
            cases eq_quote_of_whole hread' hentries
            exact entriesElsewhere_comma hblanks (hentry es) depth entries rest hread hentries
      · simp only [readEntries, skipSpaces_cons hc, hclose, hcomma, Bool.false_eq_true, if_false]
          at hread
        cases hread
        cases hentries

end Steps

/-! ### Any number of steps -/

/-- Without fuel nothing is read, and every step reads what one step less of fuel reads. -/
theorem elsewhere (fuel : Nat) :
    (∀ cs, ValueElsewhere fuel cs) ∧ (∀ first cs, ItemsElsewhere fuel first cs) ∧
      (∀ first cs, EntriesElsewhere fuel first cs) ∧ ∀ cs, EntryElsewhere fuel cs := by
  induction fuel with
  | zero =>
    refine ⟨fun cs depth o rest h ho => ?_, fun first cs depth items rest h hitems => ?_,
      fun first cs depth entries rest h hentries => ?_, fun cs depth entries rest h hentries => ?_⟩
    · rw [readValue] at h
      cases h
      cases ho
    · rw [readItems] at h
      cases h
      cases hitems
    · rw [readEntries] at h
      cases h
      cases hentries
    · rw [readEntry] at h
      cases h
      cases hentries
  | succ fuel ih =>
    -- Members hand over to the reader of one member, which hands back to both; each call has less
    -- fuel.
    obtain ⟨hvalue, hitems, hentries, hentry⟩ := ih
    exact ⟨valueElsewhere_succ (hitems true) (hentries true),
      itemsElsewhere_succ hvalue (hitems false), entriesElsewhere_succ hentry,
      entryElsewhere_succ hvalue (hentries false)⟩

/-- **A text that is a value is read as the same value inside of another text.** -/
theorem readValue_elsewhere {fuel depth : Nat} {cs rest : List Char} {o : Outline}
    (h : readValue fuel depth cs = (o, rest)) (ho : o.Whole) :
    ∃ used, cs = used ++ rest ∧
      ∀ fuel' depth' more, fuel ≤ fuel' → depth' + o.height ≤ depthLimit → EndsNumber more →
        readValue fuel' depth' (onOneLine used ++ more) = (o, more) := by
  obtain ⟨used, hcs, _, hmore⟩ := (elsewhere fuel).1 cs depth o rest h ho
  exact ⟨used, hcs, hmore⟩

end GraphKeeper.Json

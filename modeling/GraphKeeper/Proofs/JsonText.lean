/-
  A JSON value is read back from its compact text.

  Reading gives an outline, so the law is `readValue_chars`: the text of `v`, whatever stands behind
  it, is read as the outline of `v` and leaves what stands behind it.  Three things have to be
  said about `v` and the reader:
    * there is fuel for two steps a character, which is less than a text brings along;
    * arrays and objects are not nested deeper than the reader goes (`Json.height`);
    * the numbers in `v` read back (`Json.Legible`); text and constants always do.

  Strings are the leaf with an argument in it: a character that is escaped is read as one piece, and
  no other character is taken for an escape or for the end (`readStringBody_escapeChar`).  Since
  what is escaped includes all control characters, the text of a value is one line, whatever its
  numbers (`newline_not_mem_chars`).
-/
import GraphKeeper.Json.Decoder

namespace GraphKeeper.Json

/-! ## Strings -/

/-- A digit of an escape is read as the number it stands for. -/
theorem hexValue?_hexDigit : ∀ n < 16, hexValue? (hexDigit n) = some n := by decide

/-- The four digits of an escaped control character are read as its code. -/
theorem hexValue4?_hexDigit {n : Nat} (h : n < 0x20) :
    hexValue4? '0' '0' (hexDigit (n / 16)) (hexDigit (n % 16)) = some n := by
  -- Codes below 32 take two digits, so the first two are zeros.
  have h0 : hexValue? '0' = some 0 := rfl
  have h1 := hexValue?_hexDigit (n / 16) (by omega)
  have h2 := hexValue?_hexDigit (n % 16) (by omega)
  have hn : (0 * 16 + 0) * 256 + (n / 16 * 16 + n % 16) = n := by omega
  simp only [hexValue4?, h0, h1, h2, Option.bind_eq_bind, Option.bind_some, hn]
  rfl

/-- An escape of two characters, for a character with a known code. -/
theorem readStringBody_simple {e : Char} {c : Char} {n : Nat} (hc : c.toNat = n) (he : e ≠ 'u')
    (hsimple : simpleEscape? e = some (Char.ofNat n)) (cs : List Char) :
    readStringBody ('\\' :: e :: cs) = (readStringBody cs).push (.ok c) := by
  have hchar : Char.ofNat n = c := by rw [← hc, Char.ofNat_toNat]
  rw [readStringBody.eq_def]
  simp only [if_neg (show '\\' ≠ '"' by decide), if_true, if_neg he, hsimple, hchar]

/-- **An escaped character is read as that character.** -/
theorem readStringBody_escapeChar (c : Char) (cs : List Char) :
    readStringBody (escapeChar c ++ cs) = (readStringBody cs).push (.ok c) := by
  -- The cases are those of the printer: quote, backslash, control characters with and without a
  -- short escape, and all others.
  unfold escapeChar
  by_cases hquote : c = '"'
  · rw [if_pos hquote]
    exact readStringBody_simple (congrArg Char.toNat hquote) (by decide) rfl cs
  rw [if_neg hquote]
  by_cases hslash : c = '\\'
  · rw [if_pos hslash]
    exact readStringBody_simple (congrArg Char.toNat hslash) (by decide) rfl cs
  rw [if_neg hslash]
  by_cases hcontrol : c.toNat < 0x20
  · rw [if_pos hcontrol]
    -- The five short escapes, each with the letter that the reader knows it by.
    split
    · exact readStringBody_simple ‹_› (by decide) rfl cs
    split
    · exact readStringBody_simple ‹_› (by decide) rfl cs
    split
    · exact readStringBody_simple ‹_› (by decide) rfl cs
    split
    · exact readStringBody_simple ‹_› (by decide) rfl cs
    split
    · exact readStringBody_simple ‹_› (by decide) rfl cs
    · -- No short escape: four digits, and the code is too small for a surrogate.
      have htrail : isTrailSurrogate c.toNat = false := by
        rw [isTrailSurrogate, decide_eq_false (by omega), Bool.false_and]
      have hlead : isLeadSurrogate c.toNat = false := by
        rw [isLeadSurrogate, decide_eq_false (by omega), Bool.false_and]
      simp only [List.cons_append, List.nil_append]
      rw [readStringBody.eq_def]
      simp only [if_neg (show '\\' ≠ '"' by decide), if_true, hexValue4?_hexDigit hcontrol, htrail,
        hlead, Bool.false_eq_true, if_false, Char.ofNat_toNat]
  -- Any other character stands for itself, and the reader takes it as it is.
  · rw [if_neg hcontrol, List.singleton_append, readStringBody.eq_def]
    simp only [if_neg hquote, if_neg hslash, if_neg hcontrol]

/-- Escaped characters are read one by one up to the closing quote. -/
theorem readStringBody_flatMap (cs rest : List Char) :
    readStringBody (cs.flatMap escapeChar ++ '"' :: rest) = ⟨cs.map .ok, .ok rest⟩ := by
  -- The quote that ends the text is no part of an escape, since escapes are read whole.
  induction cs with
  | nil =>
    rw [List.flatMap_nil, List.nil_append, List.map_nil, readStringBody.eq_def]
    simp only [if_true]
  | cons c cs ih =>
    rw [List.flatMap_cons, List.append_assoc, readStringBody_escapeChar, ih]
    rfl

/-- Pieces that are characters join to these characters. -/
theorem joinPieces_map_ok (cs : List Char) : joinPieces (cs.map .ok) = .ok cs := by
  induction cs with
  | nil => rfl
  | cons c cs ih =>
    rw [List.map_cons, joinPieces, ih]
    rfl

/-- The text of a string, from behind its opening quote on. -/
theorem readString_flatMap (s : String) (rest : List Char) :
    readString (s.toList.flatMap escapeChar ++ '"' :: rest) = .ok (.ok s, rest) := by
  simp only [readString, readStringBody_flatMap, joinPieces_map_ok]
  show Except.ok (Except.ok (String.ofList s.toList), rest) = _
  rw [String.ofList_toList]

/-! ## What is asked of a value -/

mutual

/-- How many arrays and objects lie within each other. -/
def height : Json → Nat
  | .arr items => heightItems items + 1
  | .obj members => heightMembers members + 1
  | _ => 0

def heightItems : List Json → Nat
  | [] => 0
  | v :: vs => max (height v) (heightItems vs)

def heightMembers : List (String × Json) → Nat
  | [] => 0
  | (_, v) :: ms => max (height v) (heightMembers ms)

end

/-- A text that does not go on with a number. -/
def EndsNumber (rest : List Char) : Prop :=
  ∀ c ∈ rest.head?, c.isDigit = false ∧ c ≠ '.' ∧ c ≠ 'e' ∧ c ≠ 'E'

/-- A number may end where the text does. -/
theorem endsNumber_nil : EndsNumber [] := fun _ h => nomatch h

/-- A number ends in front of a character that cannot belong to it. -/
theorem endsNumber_cons {c : Char} {cs : List Char}
    (h : c.isDigit = false ∧ c ≠ '.' ∧ c ≠ 'e' ∧ c ≠ 'E') : EndsNumber (c :: cs) := by
  intro d hd
  cases hd
  exact h

/-- The text of the number is that of a number, and is read as this number. -/
structure ReadsBack (n : Number) : Prop where
  head : ∃ c cs, numberChars n = c :: cs ∧ (c = '-' ∨ c.isDigit = true)
  value : ∀ {fuel depth : Nat} {rest : List Char}, EndsNumber rest →
    readValue (fuel + 1) depth (numberChars n ++ rest) = (.num n, rest)

mutual

/-- All numbers of the value read back. -/
def Legible : Json → Prop
  | .num n => ReadsBack n
  | .arr items => LegibleItems items
  | .obj members => LegibleMembers members
  | _ => True

def LegibleItems : List Json → Prop
  | [] => True
  | v :: vs => Legible v ∧ LegibleItems vs

def LegibleMembers : List (String × Json) → Prop
  | [] => True
  | (_, v) :: ms => Legible v ∧ LegibleMembers ms

end

/-! ## Values -/

/-- No spaces are skipped where there are none. -/
theorem skipSpaces_cons {c : Char} (h : isSpace c = false) (cs : List Char) :
    skipSpaces (c :: cs) = c :: cs :=
  List.dropWhile_cons_of_neg (by rw [h]; exact Bool.false_ne_true)

/-- A character that begins the text of a value is no space and closes no array. -/
def Begins (c : Char) : Prop := isSpace c = false ∧ c ≠ ']'

/-- A sign or a digit may begin a value. -/
theorem begins_of_number {c : Char} (h : c = '-' ∨ c.isDigit = true) : Begins c := by
  rcases h with rfl | h
  · exact ⟨rfl, by decide⟩
  · constructor
    · rw [isSpace]
      simp only [Bool.or_eq_false_iff, decide_eq_false_iff_not]
      refine ⟨⟨⟨?_, ?_⟩, ?_⟩, ?_⟩ <;> (rintro rfl; revert h; decide)
    · rintro rfl
      revert h
      decide

/-- **The text of a value begins with a character that shows it.**  So the reader skips nothing in
front of it, and does not take it for the end of a list. -/
theorem chars_head {v : Json} (hv : v.Legible) : ∃ c cs, v.chars = c :: cs ∧ Begins c := by
  cases v with
  | null => exact ⟨_, _, rfl, rfl, by decide⟩
  | bool b => cases b <;> exact ⟨_, _, rfl, rfl, by decide⟩
  | num n =>
    obtain ⟨c, cs, hc, hhead⟩ := ReadsBack.head hv
    exact ⟨c, cs, hc, begins_of_number hhead⟩
  | str s => exact ⟨_, _, rfl, rfl, by decide⟩
  | arr items => cases items <;> exact ⟨_, _, rfl, rfl, by decide⟩
  | obj members => cases members <;> exact ⟨_, _, rfl, rfl, by decide⟩

/-! ## One step of the reader -/

section Steps

variable {fuel depth : Nat} {cs rest last : List Char} {o : Outline}

/-- A word is read off its own letters. -/
theorem readWord_append (word rest : List Char) : readWord word (word ++ rest) = .ok rest := by
  induction word with
  | nil => rfl
  | cons w ws ih => rw [List.cons_append, readWord, if_pos rfl, ih]

/-- A constant is read behind its first letter. -/
theorem wordOutline_append (word : String) :
    wordOutline word (word.toList ++ rest) o = (o, rest) := by
  rw [wordOutline, readWord_append]
  rfl

/-- `null` is read in one step. -/
theorem readValue_null : readValue (fuel + 1) depth (chars .null ++ rest) = (.null, rest) := by
  have htext : chars .null ++ rest = 'n' :: ("ull".toList ++ rest) := rfl
  rw [htext, readValue, skipSpaces_cons rfl]
  simp only [Char.reduceEq, if_false, if_true, wordOutline_append]

/-- So are the two truth values. -/
theorem readValue_bool (b : Bool) :
    readValue (fuel + 1) depth (chars (.bool b) ++ rest) = (.bool b, rest) := by
  cases b with
  | true =>
    have htext : chars (.bool true) ++ rest = 't' :: ("rue".toList ++ rest) := rfl
    rw [htext, readValue, skipSpaces_cons rfl]
    simp only [Char.reduceEq, if_false, if_true, wordOutline_append]
  | false =>
    have htext : chars (.bool false) ++ rest = 'f' :: ("alse".toList ++ rest) := rfl
    rw [htext, readValue, skipSpaces_cons rfl]
    simp only [Char.reduceEq, if_false, if_true, wordOutline_append]

/-- A string is read in one step, up to its closing quote. -/
theorem readValue_string (s : String) :
    readValue (fuel + 1) depth (stringChars s ++ rest) = (.str s, rest) := by
  have hs : stringChars s ++ rest = '"' :: (s.toList.flatMap escapeChar ++ '"' :: rest) := by
    simp only [stringChars, List.cons_append, List.append_assoc, List.nil_append]
  rw [hs, readValue, skipSpaces_cons rfl]
  simp only [if_true, readString_flatMap]
  rfl

/-- An array is a bracket and its items, one level deeper. -/
theorem readValue_array {items : Items} (hdepth : depth < depthLimit)
    (h : readItems fuel (depth + 1) true cs = (items, rest)) :
    readValue (fuel + 1) depth ('[' :: cs) = (.arr false items, rest) := by
  rw [readValue, skipSpaces_cons rfl]
  simp only [Char.reduceEq, if_false, if_true, h, decide_eq_false (Nat.not_le.mpr hdepth)]

/-- An object is a brace and its members, one level deeper. -/
theorem readValue_object {entries : Entries} (hdepth : depth < depthLimit)
    (h : readEntries fuel (depth + 1) true cs = (entries, rest)) :
    readValue (fuel + 1) depth ('\x7b' :: cs) = (.obj false entries, rest) := by
  rw [readValue, skipSpaces_cons rfl]
  simp only [Char.reduceEq, if_false, if_true, h, decide_eq_false (Nat.not_le.mpr hdepth)]

/-- The closing bracket ends the items, in front as well as behind one. -/
theorem readItems_close (first : Bool) :
    readItems (fuel + 1) depth first (']' :: cs) = (.done, cs) := by
  rw [readItems, skipSpaces_cons rfl]
  simp only [if_true]

/-- The first item stands without a comma. -/
theorem readItems_first {c : Char} {tail : Items} (hc : Begins c)
    (hvalue : readValue fuel depth (c :: cs) = (o, rest))
    (htail : readItems fuel depth false rest = (tail, last)) :
    readItems (fuel + 1) depth true (c :: cs) = (.item o tail, last) := by
  rw [readItems, skipSpaces_cons hc.1]
  simp only [if_neg hc.2, if_true, hvalue, htail]

/-- Any other item has a comma in front. -/
theorem readItems_next {c : Char} {tail : Items} (hc : Begins c)
    (hvalue : readValue fuel depth (c :: cs) = (o, rest))
    (htail : readItems fuel depth false rest = (tail, last)) :
    readItems (fuel + 1) depth false (',' :: c :: cs) = (.item o tail, last) := by
  rw [readItems, skipSpaces_cons rfl]
  simp only [Char.reduceEq, if_false, if_true, Bool.false_eq_true, skipSpaces_cons hc.1,
    if_neg hc.2, hvalue, htail]

/-- The closing brace ends the members. -/
theorem readEntries_close (first : Bool) :
    readEntries (fuel + 1) depth first ('\x7d' :: cs) = (.done, cs) := by
  rw [readEntries, skipSpaces_cons rfl]
  simp only [if_true]

/-- A member from behind the opening quote of its key on. -/
theorem readEntry_member {key : String} {tail : Entries}
    (hvalue : readValue fuel depth cs = (o, rest))
    (htail : readEntries fuel depth false rest = (tail, last)) :
    readEntry (fuel + 1) depth '"' (key.toList.flatMap escapeChar ++ '"' :: ':' :: cs) =
      (.entry (.ok key) o tail, last) := by
  rw [readEntry]
  simp only [if_true, readString_flatMap, skipSpaces_cons (show isSpace ':' = false from rfl),
    hvalue, htail]

/-- The first member begins with the quote of its key. -/
theorem readEntries_first :
    readEntries (fuel + 1) depth true ('"' :: cs) = readEntry fuel depth '"' cs := by
  rw [readEntries, skipSpaces_cons rfl]
  simp only [Char.reduceEq, if_false, if_true]

/-- Any other one has a comma in front of the quote. -/
theorem readEntries_next :
    readEntries (fuel + 1) depth false (',' :: '"' :: cs) = readEntry fuel depth '"' cs := by
  rw [readEntries, skipSpaces_cons rfl]
  simp only [Char.reduceEq, if_false, if_true, Bool.false_eq_true,
    skipSpaces_cons (show isSpace '"' = false from rfl)]

end Steps

/-! ## Whole values -/

/-- A number may end in front of the further items of an array: there is a comma or the bracket. -/
theorem endsNumber_itemChars (vs : List Json) (rest : List Char) :
    EndsNumber (itemChars vs ++ ']' :: rest) := by
  cases vs <;> exact endsNumber_cons (by decide)

/-- The same holds in front of the further members of an object. -/
theorem endsNumber_memberChars (ms : Members) (rest : List Char) :
    EndsNumber (memberChars ms ++ '\x7d' :: rest) := by
  cases ms with
  | nil => exact endsNumber_cons (by decide)
  | cons m ms => exact endsNumber_cons (by decide)

/-- No value has an empty text. -/
theorem length_chars_pos {v : Json} (hv : v.Legible) : 0 < v.chars.length := by
  obtain ⟨c, cs, hc, -⟩ := chars_head hv
  rw [hc, List.length_cons]
  omega

mutual

/-- **The text of a value is read as its outline**, with what stands behind it left over. -/
theorem readValue_chars : ∀ (v : Json) (fuel depth : Nat) (rest : List Char), v.Legible →
    2 * v.chars.length ≤ fuel → depth + v.height ≤ depthLimit → EndsNumber rest →
    readValue fuel depth (v.chars ++ rest) = (.ofJson v, rest)
  | .null, fuel, depth, rest, hv, hfuel, hdepth, hrest => by
    -- A constant takes one step of fuel, and there is some since its text is not empty.
    have hpos := length_chars_pos hv
    obtain ⟨k, rfl⟩ := Nat.exists_eq_add_of_le' (show 1 ≤ fuel by omega)
    exact readValue_null
  | .bool b, fuel, depth, rest, hv, hfuel, hdepth, hrest => by
    have hpos := length_chars_pos hv
    obtain ⟨k, rfl⟩ := Nat.exists_eq_add_of_le' (show 1 ≤ fuel by omega)
    exact readValue_bool b
  | .num n, fuel, depth, rest, hv, hfuel, hdepth, hrest => by
    have hpos := length_chars_pos hv
    obtain ⟨k, rfl⟩ := Nat.exists_eq_add_of_le' (show 1 ≤ fuel by omega)
    exact ReadsBack.value hv hrest
  | .str s, fuel, depth, rest, hv, hfuel, hdepth, hrest => by
    have hpos := length_chars_pos hv
    obtain ⟨k, rfl⟩ := Nat.exists_eq_add_of_le' (show 1 ≤ fuel by omega)
    exact readValue_string s
  -- An empty array takes two steps, one for each of its brackets.
  | .arr [], fuel, depth, rest, hv, hfuel, hdepth, hrest => by
    have hpos := length_chars_pos hv
    obtain ⟨k, rfl⟩ := Nat.exists_eq_add_of_le' (show 2 ≤ fuel by omega)
    simp only [height, heightItems] at hdepth
    exact readValue_array (by omega) (readItems_close true)
  | .arr (x :: xs), fuel, depth, rest, hv, hfuel, hdepth, hrest => by
    obtain ⟨hx, hxs⟩ := hv
    simp only [chars, List.length_append, List.length_cons, List.length_nil] at hfuel
    simp only [height, heightItems] at hdepth
    -- One step for the bracket and one for the list of items; the first item has no comma.
    obtain ⟨k, rfl⟩ := Nat.exists_eq_add_of_le' (show 2 ≤ fuel by omega)
    obtain ⟨c, cs, hchars, hbegins⟩ := chars_head hx
    -- What stands behind the item is a comma or the bracket, where a number ends.
    have hvalue := readValue_chars x k (depth + 1) (itemChars xs ++ ']' :: rest) hx (by omega)
      (by omega) (endsNumber_itemChars xs rest)
    -- The items behind it have what fuel is left: they are shorter than the whole by the first item
    -- and a bracket.
    have htail := readItems_chars xs k (depth + 1) rest hxs (by omega) (by omega)
    have htext : chars (.arr (x :: xs)) ++ rest =
        '[' :: (x.chars ++ (itemChars xs ++ ']' :: rest)) := by
      simp only [chars, List.cons_append, List.append_assoc, List.nil_append]
    rw [hchars] at hvalue htext
    rw [htext]
    exact readValue_array (by omega) (readItems_first hbegins hvalue htail)
  | .obj [], fuel, depth, rest, hv, hfuel, hdepth, hrest => by
    have hpos := length_chars_pos hv
    obtain ⟨k, rfl⟩ := Nat.exists_eq_add_of_le' (show 2 ≤ fuel by omega)
    simp only [height, heightMembers] at hdepth
    exact readValue_object (by omega) (readEntries_close true)
  | .obj ((key, v) :: ms), fuel, depth, rest, hv, hfuel, hdepth, hrest => by
    obtain ⟨hv, hms⟩ := hv
    simp only [chars, stringChars, List.length_append, List.length_cons, List.length_nil] at hfuel
    simp only [height, heightMembers] at hdepth
    -- One step for the brace, one for the list of members and one for the first member.
    obtain ⟨k, rfl⟩ := Nat.exists_eq_add_of_le' (show 3 ≤ fuel by omega)
    have hvalue := readValue_chars v k (depth + 1) (memberChars ms ++ '\x7d' :: rest) hv (by omega)
      (by omega) (endsNumber_memberChars ms rest)
    have htail := readEntries_chars ms k (depth + 1) rest hms (by omega) (by omega)
    have htext : chars (.obj ((key, v) :: ms)) ++ rest =
        '\x7b' :: '"' :: (key.toList.flatMap escapeChar ++
          '"' :: ':' :: (v.chars ++ (memberChars ms ++ '\x7d' :: rest))) := by
      simp only [chars, stringChars, List.cons_append, List.append_assoc, List.nil_append]
    rw [htext]
    exact readValue_object (by omega) (readEntries_first.trans (readEntry_member hvalue htail))

/-- The further items of an array, up to its closing bracket. -/
theorem readItems_chars : ∀ (vs : List Json) (fuel depth : Nat) (rest : List Char),
    LegibleItems vs → 2 * (itemChars vs).length + 2 ≤ fuel →
    depth + heightItems vs ≤ depthLimit →
    readItems fuel depth false (itemChars vs ++ ']' :: rest) = (.ofJsons vs, rest)
  | [], fuel, depth, rest, _, hfuel, _ => by
    obtain ⟨k, rfl⟩ := Nat.exists_eq_add_of_le' (show 1 ≤ fuel by omega)
    exact readItems_close false
  | x :: xs, fuel, depth, rest, hvs, hfuel, hdepth => by
    obtain ⟨hx, hxs⟩ := hvs
    simp only [itemChars, List.length_append, List.length_cons] at hfuel
    simp only [heightItems] at hdepth
    obtain ⟨k, rfl⟩ := Nat.exists_eq_add_of_le' (show 1 ≤ fuel by omega)
    have hpos := length_chars_pos hx
    obtain ⟨c, cs, hchars, hbegins⟩ := chars_head hx
    have hvalue := readValue_chars x k depth (itemChars xs ++ ']' :: rest) hx (by omega)
      (by omega) (endsNumber_itemChars xs rest)
    have htail := readItems_chars xs k depth rest hxs (by omega) (by omega)
    have htext : itemChars (x :: xs) ++ ']' :: rest =
        ',' :: (x.chars ++ (itemChars xs ++ ']' :: rest)) := by
      simp only [itemChars, List.cons_append, List.append_assoc]
    rw [hchars] at hvalue htext
    rw [htext]
    exact readItems_next hbegins hvalue htail

/-- The further members of an object, up to its closing brace. -/
theorem readEntries_chars : ∀ (ms : Members) (fuel depth : Nat) (rest : List Char),
    LegibleMembers ms → 2 * (memberChars ms).length + 2 ≤ fuel →
    depth + heightMembers ms ≤ depthLimit →
    readEntries fuel depth false (memberChars ms ++ '\x7d' :: rest) = (.ofMembers ms, rest)
  | [], fuel, depth, rest, _, hfuel, _ => by
    obtain ⟨k, rfl⟩ := Nat.exists_eq_add_of_le' (show 1 ≤ fuel by omega)
    exact readEntries_close false
  | (key, v) :: ms, fuel, depth, rest, hms, hfuel, hdepth => by
    obtain ⟨hv, hms⟩ := hms
    simp only [memberChars, List.length_append, List.length_cons] at hfuel
    simp only [heightMembers] at hdepth
    -- One step for the comma and one for the member behind it.
    obtain ⟨k, rfl⟩ := Nat.exists_eq_add_of_le' (show 2 ≤ fuel by omega)
    have hvalue := readValue_chars v k depth (memberChars ms ++ '\x7d' :: rest) hv (by omega)
      (by omega) (endsNumber_memberChars ms rest)
    have htail := readEntries_chars ms k depth rest hms (by omega) (by omega)
    have htext : memberChars ((key, v) :: ms) ++ '\x7d' :: rest =
        ',' :: '"' :: (key.toList.flatMap escapeChar ++
          '"' :: ':' :: (v.chars ++ (memberChars ms ++ '\x7d' :: rest))) := by
      simp only [memberChars, stringChars, List.cons_append, List.append_assoc, List.nil_append]
    rw [htext]
    exact readEntries_next.trans (readEntry_member hvalue htail)

end

/-- A text brings along three steps of fuel for each of its characters. -/
theorem readOutline_render {v : Json} (hv : v.Legible) (hdepth : v.height ≤ depthLimit) :
    readOutline v.render = (.ofJson v, []) := by
  have hfuel : 2 * v.chars.length ≤ fuelFor v.chars := by
    rw [fuelFor]
    omega
  have h := readValue_chars v _ 0 [] hv hfuel (by omega) endsNumber_nil
  rw [List.append_nil] at h
  simp only [readOutline, render, String.toList_ofList, h]
  rfl

/-- **Decoding the text of a value is decoding the value**, with messages for a text. -/
theorem decodeText_render {α : Type} {decoder : Decoder α} {v : Json} (hv : v.Legible)
    (hdepth : v.height ≤ depthLimit) :
    decodeText decoder v.render = decoder .text (.ofJson v) := by
  simp only [decodeText, readOutline_render hv hdepth]
  cases decoder .text (.ofJson v) <;> rfl

/-! ## One line -/

/-- A digit of an escape is no line break. -/
theorem newline_ne_hexDigit : ∀ n < 16, '\n' ≠ hexDigit n := by decide

/-- **A line break is escaped**, and no escape has one in it. -/
theorem newline_not_mem_escapeChar (c : Char) : '\n' ∉ escapeChar c := by
  rw [escapeChar]
  split
  · decide
  split
  · decide
  split
  · split
    · decide
    split
    · decide
    split
    · decide
    split
    · decide
    split
    · decide
    · have h1 := newline_ne_hexDigit (c.toNat / 16) (by omega)
      have h2 := newline_ne_hexDigit (c.toNat % 16) (by omega)
      simp only [List.mem_cons, Char.reduceEq, h1, h2, List.not_mem_nil, or_self, not_false_iff]
  -- A character that is written as it is would have to be the newline, which is escaped.
  · rename_i hcontrol
    intro h
    rw [← List.mem_singleton.mp h] at hcontrol
    exact hcontrol (by decide)

/-- So the text of a string is one line, whatever the string holds. -/
theorem newline_not_mem_stringChars (s : String) : '\n' ∉ stringChars s := by
  intro h
  simp only [stringChars, List.mem_cons, List.mem_append, List.mem_flatMap, Char.reduceEq,
    List.not_mem_nil, or_false, false_or] at h
  obtain ⟨c, _, hc⟩ := h
  exact newline_not_mem_escapeChar c hc

/-- Digits are no line breaks. -/
theorem newline_not_mem_toDigits (n : Nat) : '\n' ∉ Nat.toDigits 10 n := fun h =>
  absurd (Nat.isDigit_of_mem_toDigits (by decide) (by decide) h) (by decide)

/-- A number with its point in place has digits, zeros and a point. -/
theorem newline_not_mem_positional (x : Decimal) : '\n' ∉ x.positional := by
  have hdigits : '\n' ∉ x.digitChars := newline_not_mem_toDigits x.digits
  have htake : ∀ n, '\n' ∉ x.digitChars.take n := fun n h => hdigits (List.mem_of_mem_take h)
  have hdrop : ∀ n, '\n' ∉ x.digitChars.drop n := fun n h => hdigits (List.mem_of_mem_drop h)
  simp only [Decimal.positional]
  -- The point stands behind all digits, among them, or in front of all of them.
  split
  · simp [hdigits]
  split
  · simp [htake, hdrop]
  · simp [hdigits]

/-- A number with an exponent has digits, a point, a letter and a sign. -/
theorem newline_not_mem_scientific (x : Decimal) : '\n' ∉ x.scientific := by
  have hdigits : '\n' ∉ x.digitChars := newline_not_mem_toDigits x.digits
  have hexponent : '\n' ∉ (if 0 ≤ x.order then "e+" else "e-").toList ++
      Nat.toDigits 10 x.order.natAbs := by
    refine List.not_mem_append ?_ (newline_not_mem_toDigits _)
    split <;> decide
  simp only [Decimal.scientific]
  split
  · exact hexponent
  · rename_i d hd
    rw [hd] at hdigits
    exact List.not_mem_append hdigits hexponent
  · rename_i d ds _ hd
    rw [hd] at hdigits
    have hd := List.ne_of_not_mem_cons hdigits
    have hds := List.not_mem_of_not_mem_cons hdigits
    have hpoint := List.not_mem_cons_of_ne_of_not_mem (by decide : '\n' ≠ '.')
      (List.not_mem_append hds hexponent)
    exact List.not_mem_cons_of_ne_of_not_mem hd hpoint

/-- No form of a number has a line break in it. -/
theorem newline_not_mem_numberChars (n : Number) : '\n' ∉ numberChars n := by
  cases n with
  | int n =>
    have hdigits := newline_not_mem_toDigits n.natAbs
    rw [numberChars, intChars]
    split
    · exact List.not_mem_cons_of_ne_of_not_mem (by decide) hdigits
    · exact hdigits
  | double x =>
    have hpositional := newline_not_mem_positional x.magnitude.shortest
    have hscientific := newline_not_mem_scientific x.magnitude.shortest
    have hsign : '\n' ∉ x.signChars := by
      rw [Double.signChars]
      split <;> decide
    refine List.not_mem_append hsign ?_
    split
    · split
      · exact List.not_mem_append hpositional (by decide)
      · exact hpositional
    · exact hscientific

mutual

/-- **The compact text of a value has no line break in it.** -/
theorem newline_not_mem_chars : ∀ v : Json, '\n' ∉ v.chars
  | .null => by decide
  | .bool true => by decide
  | .bool false => by decide
  | .num n => newline_not_mem_numberChars n
  | .str s => newline_not_mem_stringChars s
  | .arr [] => by decide
  | .arr (v :: vs) => by
    simp only [chars, List.mem_append, List.mem_cons, Char.reduceEq, List.not_mem_nil, or_false,
      false_or, not_or]
    exact ⟨newline_not_mem_chars v, newline_not_mem_itemChars vs⟩
  | .obj [] => by decide
  | .obj ((key, v) :: ms) => by
    simp only [chars, List.mem_append, List.mem_cons, Char.reduceEq, List.not_mem_nil, or_false,
      false_or, not_or]
    exact ⟨⟨newline_not_mem_stringChars key, newline_not_mem_chars v⟩,
      newline_not_mem_memberChars ms⟩

/-- Nor have the further items of an array, with their commas. -/
theorem newline_not_mem_itemChars : ∀ vs : List Json, '\n' ∉ itemChars vs
  | [] => by decide
  | v :: vs => by
    simp only [itemChars, List.mem_append, List.mem_cons, Char.reduceEq, false_or, not_or]
    exact ⟨newline_not_mem_chars v, newline_not_mem_itemChars vs⟩

/-- Nor have the further members of an object. -/
theorem newline_not_mem_memberChars : ∀ ms : Members, '\n' ∉ memberChars ms
  | [] => by decide
  | (key, v) :: ms => by
    simp only [memberChars, List.mem_append, List.mem_cons, Char.reduceEq, false_or, not_or]
    exact ⟨⟨newline_not_mem_stringChars key, newline_not_mem_chars v⟩,
      newline_not_mem_memberChars ms⟩

end

end GraphKeeper.Json

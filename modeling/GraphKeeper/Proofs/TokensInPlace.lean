/-
  The tokens of a JSON text are read without a look at what stands behind them.

  A reader of a token takes characters from the front of a text.  For each kind of token the law
  here says which characters it takes, and that from these characters it reads the same token
  whatever stands behind them (`readString_elsewhere`, `readNumeral_elsewhere`).  A number needs a
  text behind it that does not go on with the number (`EndsNumber`); a string ends in its closing
  quote.  An escaped surrogate is the one place where a reader looks ahead, and it does so for what
  turns out to stand for no text (`StringElsewhere.of_flaw`).

  Newlines are found between tokens only.  Since there they do what blanks do, they may be written
  as blanks, and the text then fits on a line (`onOneLine`).
-/
import GraphKeeper.Proofs.JsonText
import GraphKeeper.Proofs.Sequences

namespace GraphKeeper.Json

/-! ## Newlines as blanks -/

/-- The characters with blanks in place of newlines. -/
def onOneLine (cs : List Char) : List Char := cs.map fun c => if c = '\n' then ' ' else c

/-- Parts of a text are written on a line one by one. -/
theorem onOneLine_append (cs ds : List Char) :
    onOneLine (cs ++ ds) = onOneLine cs ++ onOneLine ds := List.map_append

/-- A character that is no blank stays. -/
theorem onOneLine_cons_of_isSpace {c : Char} (hc : isSpace c = false) (cs : List Char) :
    onOneLine (c :: cs) = c :: onOneLine cs := by
  refine congrArg (· :: _) (if_neg ?_)
  rintro rfl
  cases hc

/-- A text without newlines stays as it is. -/
theorem onOneLine_eq_self {cs : List Char} (h : '\n' ∉ cs) : onOneLine cs = cs := by
  refine (List.map_congr_left fun c hc => ?_).trans (List.map_id cs)
  exact if_neg fun (hnewline : c = '\n') => h (hnewline ▸ hc)

/-- **What is written on a line has no newline.** -/
theorem newline_not_mem_onOneLine (cs : List Char) : '\n' ∉ onOneLine cs := by
  intro h
  obtain ⟨c, _, hc⟩ := List.mem_map.mp h
  split at hc
  · exact absurd hc (by decide)
  · exact absurd hc ‹_›

/-- Blanks stay blanks. -/
theorem isSpace_of_mem_onOneLine {cs : List Char} (h : ∀ c ∈ cs, isSpace c = true) :
    ∀ c ∈ onOneLine cs, isSpace c = true := by
  intro c hc
  obtain ⟨d, hd, rfl⟩ := List.mem_map.mp hc
  split
  · rfl
  · exact h d hd

/-! ## Blanks -/

/-- What is left behind blanks begins with something else. -/
theorem skipSpaces_eq_cons {cs ds : List Char} {c : Char} (h : skipSpaces cs = c :: ds) :
    ∃ blanks, cs = blanks ++ c :: ds ∧ (∀ x ∈ blanks, isSpace x = true) ∧ isSpace c = false := by
  refine ⟨cs.takeWhile isSpace, ?_, List.all_eq_true.mp List.all_takeWhile, ?_⟩
  · rw [← h, skipSpaces, List.takeWhile_append_dropWhile]
  · have hhead := List.head?_dropWhile_not isSpace cs
    rw [← skipSpaces, h] at hhead
    simpa using hhead

/-- Blanks in front are skipped. -/
theorem skipSpaces_append {blanks : List Char} (h : ∀ c ∈ blanks, isSpace c = true)
    (cs : List Char) : skipSpaces (blanks ++ cs) = skipSpaces cs :=
  List.dropWhile_append_of_pos h

/-! ## Strings -/

/-- There is no newline among four digits. -/
theorem newline_not_mem_of_hexValue4? {a b c d : Char} {n : Nat}
    (h : hexValue4? a b c d = some n) : '\n' ∉ [a, b, c, d] := by
  have hnone : hexValue? '\n' = none := rfl
  intro hmem
  simp only [List.mem_cons, List.not_mem_nil, or_false] at hmem
  simp only [hexValue4?, Option.bind_eq_bind, Option.bind_eq_some_iff] at h
  obtain ⟨_, ha, _, hb, _, hc, _, hd, _⟩ := h
  rcases hmem with rfl | rfl | rfl | rfl
  · cases hnone.symm.trans ha
  · cases hnone.symm.trans hb
  · cases hnone.symm.trans hc
  · cases hnone.symm.trans hd

/-- A newline is not the letter of an escape. -/
theorem newline_ne_of_simpleEscape? {e c : Char} (h : simpleEscape? e = some c) : e ≠ '\n' := by
  rintro rfl
  nomatch (show simpleEscape? '\n' = none from rfl).symm.trans h

/-- The string at the front of a text is read up to its closing quote, whatever stands behind
it. -/
def StringElsewhere (cs : List Char) : Prop :=
  ∀ s rest : List Char, joinPieces (readStringBody cs).pieces = .ok s →
    (readStringBody cs).rest = .ok rest →
    ∃ used, cs = used ++ rest ∧ '\n' ∉ used ∧
      ∀ more, readStringBody (used ++ more) = ⟨(readStringBody cs).pieces, .ok more⟩

/-- One more character in front of a string, which may be written as an escape. -/
theorem StringElsewhere.push {cs : List Char} (h : StringElsewhere cs) (front : List Char)
    (c : Char) (hfront : '\n' ∉ front)
    (hread : ∀ ds, readStringBody (front ++ ds) = (readStringBody ds).push (.ok c)) :
    StringElsewhere (front ++ cs) := by
  intro s rest hs hrest
  rw [hread cs] at hs hrest ⊢
  obtain ⟨_, _, hs⟩ := bind_eq_ok_iff.mp hs
  obtain ⟨t, ht, _⟩ := bind_eq_ok_iff.mp hs
  obtain ⟨used, rfl, hused, hmore⟩ := h t rest ht hrest
  refine ⟨front ++ used, (List.append_assoc ..).symm, List.not_mem_append hfront hused, ?_⟩
  intro more
  rw [List.append_assoc, hread, hmore]
  rfl

/-- A string with a lone surrogate in it stands for no text. -/
theorem StringElsewhere.of_flaw {cs : List Char} (flaw : Flaw) (body : StringBody)
    (h : readStringBody cs = body.push (.error flaw)) : StringElsewhere cs := by
  intro _ _ hs
  rw [h] at hs
  cases hs

/-- A string that is not closed does not end. -/
theorem StringElsewhere.of_error {cs : List Char} (flaw : Flaw)
    (h : (readStringBody cs).rest = .error flaw) : StringElsewhere cs := by
  intro _ _ _ hrest
  cases h.symm.trans hrest

/-- **The law of strings.**  The cases are those of the reader: in each of them the string goes on,
or it has a flaw, or it does not end. -/
theorem stringElsewhere (cs : List Char) : StringElsewhere cs := by
  induction cs using readStringBody.induct with
  | case1 => exact .of_error _ rfl
  -- The closing quote.
  | case2 es =>
    intro s rest hs hrest
    rw [readStringBody.eq_def] at hs hrest ⊢
    simp only [if_true] at hs hrest ⊢
    cases hrest
    refine ⟨['"'], rfl, by decide, fun more => ?_⟩
    rw [List.singleton_append, readStringBody.eq_def]
    simp only [if_true]
  | case3 => exact .of_error _ rfl
  | case4 h1 h2 h3 h4 rest hcode hne =>
    refine .of_error .badEscape ?_
    rw [readStringBody.eq_def]
    simp only [if_neg hne, if_true, hcode]
  | case5 h1 h2 h3 h4 rest n hcode htrail hne ih =>
    refine .of_flaw .loneSurrogate (readStringBody rest) ?_
    rw [readStringBody.eq_def]
    simp only [if_neg hne, if_true, hcode, htrail]
  -- A pair of surrogates that make up one character.
  | case7 h1 h2 h3 h4 n hcode htrail hlead g1 g2 g3 g4 rest m hcode' htrail' hne ih =>
    have hfront : '\n' ∉ ['\\', 'u'] ++ [h1, h2, h3, h4] ++ (['\\', 'u'] ++ [g1, g2, g3, g4]) :=
      List.not_mem_append
        (List.not_mem_append (by decide) (newline_not_mem_of_hexValue4? hcode))
        (List.not_mem_append (by decide) (newline_not_mem_of_hexValue4? hcode'))
    refine ih.push _ (joinSurrogates n m) hfront fun ds => ?_
    simp only [List.cons_append, List.nil_append]
    rw [readStringBody.eq_def]
    simp only [if_neg hne, if_true, hcode, if_neg htrail, hlead, hcode', htrail']
  | case6 h1 h2 h3 h4 n hcode htrail hlead g1 g2 g3 g4 rest hcode' hne =>
    refine .of_error .badEscape ?_
    rw [readStringBody.eq_def]
    simp only [if_neg hne, if_true, hcode, if_neg htrail, hlead, hcode']
  | case8 h1 h2 h3 h4 n hcode htrail hlead g1 g2 g3 g4 rest m hcode' htrail' hne ih =>
    refine .of_flaw .loneSurrogate ((readStringBody rest).push (.error .loneSurrogate)) ?_
    rw [readStringBody.eq_def]
    simp only [if_neg hne, if_true, hcode, if_neg htrail, hlead, hcode', if_neg htrail']
  | case9 h1 h2 h3 h4 n hcode htrail hlead short hshort hne =>
    refine .of_error (shortCodeFlaw short) ?_
    rw [readStringBody.eq_def]
    simp only [if_neg hne, if_true, hcode, if_neg htrail, hlead]
  -- A lead with something else behind it, where the reader looks ahead.
  | case10 h1 h2 h3 h4 n hcode htrail hlead rest hpair hshort hne ih =>
    refine .of_flaw (afterLeadFlaw rest) (readStringBody rest) ?_
    rw [readStringBody.eq_def]
    simp only [if_neg hne, if_true, hcode, if_neg htrail, hlead]
  -- A code that is no surrogate.
  | case11 h1 h2 h3 h4 rest n hcode htrail hlead hne ih =>
    have hfront : '\n' ∉ ['\\', 'u'] ++ [h1, h2, h3, h4] :=
      List.not_mem_append (by decide) (newline_not_mem_of_hexValue4? hcode)
    refine ih.push _ (Char.ofNat n) hfront fun ds => ?_
    simp only [List.cons_append, List.nil_append]
    rw [readStringBody.eq_def]
    simp only [if_neg hne, if_true, hcode, if_neg htrail, if_neg hlead]
  | case12 short hshort hne =>
    refine .of_error (shortCodeFlaw short) ?_
    rw [readStringBody.eq_def]
    simp only [if_neg hne, if_true]
  -- An escape of one letter.
  | case13 e es hu d hescape hne ih =>
    have hfront : '\n' ∉ ['\\', e] :=
      List.not_mem_cons_of_ne_of_not_mem (by decide)
        (mt List.mem_singleton.mp (Ne.symm (newline_ne_of_simpleEscape? hescape)))
    refine ih.push _ d hfront fun ds => ?_
    simp only [List.cons_append, List.nil_append]
    rw [readStringBody.eq_def]
    simp only [if_neg hne, if_true, if_neg hu, hescape]
  | case14 e es hu hescape hne =>
    refine .of_error .badEscape ?_
    rw [readStringBody.eq_def]
    simp only [if_neg hne, if_true, if_neg hu, hescape]
  | case15 c cs hquote hslash hcontrol =>
    refine .of_error .controlCharacter ?_
    rw [readStringBody.eq_def]
    simp only [if_neg hquote, if_neg hslash, if_pos hcontrol]
  -- A character that stands for itself.
  | case16 c cs hquote hslash hcontrol ih =>
    have hfront : '\n' ∉ [c] := by
      rintro (_ | ⟨_, h⟩)
      · exact hcontrol (by decide)
      · cases h
    refine ih.push [c] c hfront fun ds => ?_
    rw [List.singleton_append, readStringBody.eq_def]
    simp only [if_neg hquote, if_neg hslash, if_neg hcontrol]

/-- A string is read up to its closing quote, whatever stands behind it. -/
theorem readString_elsewhere {cs rest : List Char} {s : String}
    (h : readString cs = .ok (.ok s, rest)) :
    ∃ used, cs = used ++ rest ∧ '\n' ∉ used ∧
      ∀ more, readString (used ++ more) = .ok (.ok s, more) := by
  cases hrest : (readStringBody cs).rest with
  | error flaw =>
    simp only [readString, hrest] at h
    split at h <;> cases h
  | ok rest' =>
    simp only [readString, hrest] at h
    cases hpieces : joinPieces (readStringBody cs).pieces with
    | error flaw =>
      rw [hpieces] at h
      cases h
    | ok t =>
      rw [hpieces] at h
      cases h
      obtain ⟨used, hcs, hused, hmore⟩ := stringElsewhere cs t rest hpieces hrest
      refine ⟨used, hcs, hused, fun more => ?_⟩
      simp only [readString, hmore more, hpieces]
      rfl

/-! ## Numbers -/

/-- A text that does not go on with a digit. -/
def EndsDigits (rest : List Char) : Prop := ∀ c ∈ rest.head?, c.isDigit = false

/-- What is taken off as digits is digits. -/
theorem isDigit_of_mem_takeWhile (cs : List Char) : ∀ c ∈ cs.takeWhile Char.isDigit,
    c.isDigit = true := List.all_eq_true.mp List.all_takeWhile

/-- A newline is no digit. -/
theorem newline_not_mem_digits {ds : List Char} (h : ∀ c ∈ ds, c.isDigit = true) : '\n' ∉ ds :=
  fun hmem => absurd (h _ hmem) (by decide)

/-- Digits are taken up to where they end. -/
theorem takeWhile_isDigit_append {ds more : List Char} (hds : ∀ c ∈ ds, c.isDigit = true)
    (hmore : EndsDigits more) :
    (ds ++ more).takeWhile Char.isDigit = ds ∧ (ds ++ more).dropWhile Char.isDigit = more := by
  rw [List.takeWhile_append_of_pos hds, List.dropWhile_append_of_pos hds]
  cases more with
  | nil => exact ⟨List.append_nil ds, rfl⟩
  | cons c more =>
    have hc : ¬ c.isDigit = true := by
      rw [hmore c rfl]
      exact Bool.false_ne_true
    rw [List.takeWhile_cons_of_neg hc, List.dropWhile_cons_of_neg hc]
    exact ⟨List.append_nil ds, rfl⟩

/-- The whole part is the digits in front. -/
theorem readWhole_elsewhere {cs rest : List Char} {ds : List Char}
    (h : readWhole cs = .ok (ds, rest)) :
    cs = ds ++ rest ∧ '\n' ∉ ds ∧
      ∀ more, EndsDigits more → readWhole (ds ++ more) = .ok (ds, more) := by
  have hdigits := isDigit_of_mem_takeWhile cs
  have hcs := List.takeWhile_append_dropWhile (p := Char.isDigit) (l := cs)
  simp only [readWhole] at h
  split at h
  · cases h
  · cases h
  · rename_i hnil hzero
    cases h
    refine ⟨hcs.symm, newline_not_mem_digits hdigits, fun more hmore => ?_⟩
    obtain ⟨htake, hdrop⟩ := takeWhile_isDigit_append hdigits hmore
    simp only [readWhole, htake, hdrop]

/-- The fraction is a point with digits behind it, or nothing where there is no point. -/
theorem readFraction_elsewhere {cs rest : List Char} {ds : Option (List Char)}
    (h : readFraction cs = .ok (ds, rest)) :
    ∃ used, cs = used ++ rest ∧ '\n' ∉ used ∧ (∀ c ∈ used.head?, c = '.') ∧
      ∀ more, EndsDigits more → (∀ c ∈ more.head?, c ≠ '.') →
        readFraction (used ++ more) = .ok (ds, more) := by
  unfold readFraction at h
  split at h
  · rename_i fs
    have hdigits := isDigit_of_mem_takeWhile fs
    have hfs := List.takeWhile_append_dropWhile (p := Char.isDigit) (l := fs)
    dsimp only at h
    split at h
    · cases h
    · rename_i hne
      cases h
      refine ⟨'.' :: fs.takeWhile Char.isDigit, by rw [List.cons_append, hfs],
        List.not_mem_cons_of_ne_of_not_mem (by decide) (newline_not_mem_digits hdigits),
        fun c hc => (Option.some.inj hc).symm, fun more hmore _ => ?_⟩
      obtain ⟨htake, hdrop⟩ := takeWhile_isDigit_append hdigits hmore
      simp only [List.cons_append, readFraction, htake, hdrop, hne, Bool.false_eq_true, if_false]
  · cases h
    refine ⟨[], rfl, List.not_mem_nil, (fun _ hc => nomatch hc), fun more _ hpoint => ?_⟩
    rw [List.nil_append]
    unfold readFraction
    split
    · exact absurd rfl (hpoint '.' rfl)
    · rfl

/-- The digits of an exponent, behind its sign. -/
theorem readExponent_digits {e : Char} {sign ds : List Char} {negative : Bool}
    (he : e = 'e' ∨ e = 'E') (hds : ∀ c ∈ ds, c.isDigit = true) (hne : ds ≠ [])
    (hsign : sign = ['-'] ∧ negative = true ∨ (sign = ['+'] ∨ sign = []) ∧ negative = false)
    {more : List Char} (hmore : EndsDigits more) :
    readExponent (e :: (sign ++ (ds ++ more))) =
      .ok (some (if negative then -(digitsValue ds : Int) else digitsValue ds), more) := by
  obtain ⟨htake, hdrop⟩ := takeWhile_isDigit_append hds hmore
  obtain ⟨d, ds, rfl⟩ := List.exists_cons_of_ne_nil hne
  have hd := hds d List.mem_cons_self
  have hplus : d ≠ '+' := fun h => absurd (h ▸ hd) (by decide)
  have hminus : d ≠ '-' := fun h => absurd (h ▸ hd) (by decide)
  rcases hsign with ⟨rfl, rfl⟩ | ⟨rfl | rfl, rfl⟩
  · simp only [readExponent, if_pos he, List.singleton_append, htake, hdrop]
    rfl
  · simp only [readExponent, if_pos he, List.singleton_append, htake, hdrop]
    rfl
  · simp only [readExponent, if_pos he, List.nil_append]
    split
    · rename_i heq
      exact absurd (List.cons.inj heq).1 hplus
    · rename_i heq
      exact absurd (List.cons.inj heq).1 hminus
    · simp only [htake, hdrop]
      rfl

/-- Where a number ends there is no exponent. -/
theorem readExponent_of_endsNumber {more : List Char} (h : EndsNumber more) :
    readExponent more = .ok (none, more) := by
  cases more with
  | nil => rfl
  | cons c more =>
    obtain ⟨_, _, he, hE⟩ := h c rfl
    simp only [readExponent, he, hE, or_self, if_false]

/-- The exponent is a letter, perhaps a sign, and digits, or nothing. -/
theorem readExponent_elsewhere {cs rest : List Char} {n : Option Int}
    (h : readExponent cs = .ok (n, rest)) :
    ∃ used, cs = used ++ rest ∧ '\n' ∉ used ∧ (∀ c ∈ used.head?, c = 'e' ∨ c = 'E') ∧
      ∀ more, EndsNumber more → readExponent (used ++ more) = .ok (n, more) := by
  cases cs with
  | nil =>
    cases h
    exact ⟨[], rfl, List.not_mem_nil, (fun _ hc => nomatch hc), fun _ => readExponent_of_endsNumber⟩
  | cons e es =>
    by_cases he : e = 'e' ∨ e = 'E'
    · -- The sign is told apart from the digits behind it, which are never empty.
      obtain ⟨sign, ds, negative, hes, hsign, hread⟩ : ∃ (sign ds : List Char) (negative : Bool),
          es = sign ++ ds ∧
          (sign = ['-'] ∧ negative = true ∨ (sign = ['+'] ∨ sign = []) ∧ negative = false) ∧
          (if (ds.takeWhile Char.isDigit).isEmpty then .error (noDigit (ds.dropWhile Char.isDigit))
            else .ok (some (if negative then -(digitsValue (ds.takeWhile Char.isDigit) : Int)
              else digitsValue (ds.takeWhile Char.isDigit)), ds.dropWhile Char.isDigit)) =
            (Except.ok (n, rest) : Except Break (Option Int × List Char)) := by
        simp only [readExponent, if_pos he] at h
        split at h
        · exact ⟨['+'], _, false, rfl, Or.inr ⟨Or.inl rfl, rfl⟩, h⟩
        · exact ⟨['-'], _, true, rfl, Or.inl ⟨rfl, rfl⟩, h⟩
        · exact ⟨[], _, false, rfl, Or.inr ⟨Or.inr rfl, rfl⟩, h⟩
      have hdigits := isDigit_of_mem_takeWhile ds
      have hds := List.takeWhile_append_dropWhile (p := Char.isDigit) (l := ds)
      split at hread
      · cases hread
      · rename_i hne
        cases hread
        refine ⟨e :: (sign ++ ds.takeWhile Char.isDigit), ?_, ?_, ?_, fun more hmore => ?_⟩
        · rw [List.cons_append, List.append_assoc, hds, hes]
        · have hnewline : '\n' ∉ sign := by
            rcases hsign with ⟨rfl, _⟩ | ⟨rfl | rfl, _⟩ <;> decide
          refine List.not_mem_cons_of_ne_of_not_mem ?_
            (List.not_mem_append hnewline (newline_not_mem_digits hdigits))
          rcases he with rfl | rfl <;> decide
        · intro c hc
          cases hc
          exact he
        · rw [List.cons_append, List.append_assoc]
          exact readExponent_digits he hdigits (by simpa using hne) hsign
            fun c hc => (hmore c hc).1
    · simp only [readExponent, if_neg he] at h
      cases h
      exact ⟨[], rfl, List.not_mem_nil, (fun _ hc => nomatch hc),
        fun _ => readExponent_of_endsNumber⟩

/-- What holds of the first character of each part holds of the first one of the whole. -/
theorem head?_append_of {p : Char → Prop} {cs more : List Char} (hcs : ∀ c ∈ cs.head?, p c)
    (hmore : ∀ c ∈ more.head?, p c) : ∀ c ∈ (cs ++ more).head?, p c := by
  cases cs with
  | nil => exact hmore
  | cons c cs => exact hcs

/-- A number is read up to where it ends, if it does not go on behind that. -/
theorem readNumeral_elsewhere {negative : Bool} {cs rest : List Char} {x : Numeral}
    (h : readNumeral negative cs = .ok (x, rest)) :
    ∃ used, cs = used ++ rest ∧ '\n' ∉ used ∧
      ∀ more, EndsNumber more → readNumeral negative (used ++ more) = .ok (x, more) := by
  obtain ⟨⟨whole, cs₁⟩, hwhole, h⟩ := bind_eq_ok_iff.mp h
  obtain ⟨⟨fraction, cs₂⟩, hfraction, h⟩ := bind_eq_ok_iff.mp h
  obtain ⟨⟨exponent, cs₃⟩, hexponent, h⟩ := bind_eq_ok_iff.mp h
  cases h
  obtain ⟨rfl, hline₁, hmore₁⟩ := readWhole_elsewhere hwhole
  obtain ⟨behind, rfl, hline₂, hpoint, hmore₂⟩ := readFraction_elsewhere hfraction
  obtain ⟨last, rfl, hline₃, he, hmore₃⟩ := readExponent_elsewhere hexponent
  refine ⟨whole ++ (behind ++ last), by simp only [List.append_assoc],
    List.not_mem_append hline₁ (List.not_mem_append hline₂ hline₃), fun more hmore => ?_⟩
  -- No part goes on with what stands behind it: a point, the letter of an exponent, or the end.
  have hlast : EndsDigits (last ++ more) := head?_append_of
    (fun c hc => by rcases he c hc with rfl | rfl <;> rfl) fun c hc => (hmore c hc).1
  have hlastPoint : ∀ c ∈ (last ++ more).head?, c ≠ '.' := head?_append_of
    (fun c hc => by rcases he c hc with rfl | rfl <;> decide) fun c hc => (hmore c hc).2.1
  have hbehind : EndsDigits (behind ++ (last ++ more)) := head?_append_of
    (fun c hc => by rw [hpoint c hc]; rfl) hlast
  rw [List.append_assoc, List.append_assoc]
  exact bind_eq_ok_iff.mpr ⟨_, hmore₁ _ hbehind, bind_eq_ok_iff.mpr ⟨_, hmore₂ _ hlast hlastPoint,
    bind_eq_ok_iff.mpr ⟨_, hmore₃ _ hmore, rfl⟩⟩⟩

end GraphKeeper.Json

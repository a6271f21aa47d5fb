/-
  UTF-8 is read back as it was written.

  Writing gives a character one to four bytes, depending on its code.  Reading goes byte by byte and
  keeps, after a first byte, bounds for the next one.  The laws here follow the bytes of one
  character: the first byte begins a sequence with the right code and bounds (`begin_two`,
  `begin_three`, `begin_four`), each byte in between shifts the code (`decodeFrom_next`), and the
  last one gives the character (`decodeFrom_last`).  The bounds after `E0`, `ED`, `F0` and `F4` are
  met because the code is neither too small for its length nor a surrogate nor past the last
  character; that is the only place where it matters that it belongs to a character.

  Bytes of longer sequences are 128 or more, so a newline byte stands for a newline and for nothing
  else (`newline_mem_encodeChar_iff`): a text can be cut into lines before it is decoded
  (`splitOn_flatMap_encodeChar`), with or without the newline byte that ends a line
  (`toOption_decodeFrom_newline`).
-/
import GraphKeeper.Text.Utf8
import GraphKeeper.Proofs.Sequences

namespace GraphKeeper.Text.Utf8

/-! ## One byte at a time -/

theorem toNat_ofNat {n : Nat} (h : n < 256) : (UInt8.ofNat n).toNat = n :=
  UInt8.toNat_ofNat_of_lt' h

/-- After the first byte of a sequence the reader waits for the next one. -/
theorem decodeFrom_begin {b : UInt8} {p : Pending} (h : begin b = .sequence p) (index : Nat)
    (bs : List UInt8) : decodeFrom index none (b :: bs) = decodeFrom (index + 1) (some p) bs := by
  simp only [decodeFrom, h]

/-- A byte behind the first one, which holds six bits of the code. -/
theorem toNat_tail (n : Nat) : (UInt8.ofNat (0x80 + n % 64)).toNat = 0x80 + n % 64 :=
  toNat_ofNat (by omega)

/-- Such a byte is accepted if it keeps the bounds. -/
theorem accepts_tail {p : Pending} {n : Nat} (hlow : p.low ≤ 0x80 + n % 64)
    (hhigh : 0x80 + n % 64 ≤ p.high) : p.accepts (UInt8.ofNat (0x80 + n % 64)) = true := by
  simp only [Pending.accepts, toNat_tail, hlow, hhigh, decide_true, Bool.and_self]

/-- Such a byte shifts the code by its six bits. -/
theorem extend_tail (p : Pending) (n : Nat) :
    p.extend (UInt8.ofNat (0x80 + n % 64)) = p.code * 64 + n % 64 := by
  have h : 0x80 + n % 64 - 0x80 = n % 64 := by omega
  unfold Pending.extend
  rw [toNat_tail, h]

/-- A byte in between shifts the code, and the bounds of the first byte are gone after it. -/
theorem decodeFrom_next {seen missing code low high n : Nat} (hlow : low ≤ 0x80 + n % 64)
    (hhigh : 0x80 + n % 64 ≤ high) (hm : 1 < missing) (index : Nat) (bs : List UInt8) :
    decodeFrom index (some ⟨seen, missing, code, low, high⟩)
        (UInt8.ofNat (0x80 + n % 64) :: bs) =
      decodeFrom (index + 1) (some ⟨seen + 1, missing - 1, code * 64 + n % 64, 0x80, 0xBF⟩) bs := by
  have ha := accepts_tail (p := ⟨seen, missing, code, low, high⟩) hlow hhigh
  simp only [decodeFrom, ha, if_true, if_neg (Nat.not_le.mpr hm), Pending.next, extend_tail]

/-- The last byte gives the character, and the reader begins anew behind it. -/
theorem decodeFrom_last {seen code low high n : Nat} (hlow : low ≤ 0x80 + n % 64)
    (hhigh : 0x80 + n % 64 ≤ high) (index : Nat) (bs : List UInt8) :
    decodeFrom index (some ⟨seen, 1, code, low, high⟩) (UInt8.ofNat (0x80 + n % 64) :: bs) =
      (decodeFrom (index + 1) none bs).map (Char.ofNat (code * 64 + n % 64) :: ·) := by
  have ha := accepts_tail (p := ⟨seen, 1, code, low, high⟩) hlow hhigh
  simp only [decodeFrom, ha, if_true, Nat.le_refl, extend_tail]

/-! ## First bytes -/

theorem begin_one {n : Nat} (h : n < 0x80) : begin (UInt8.ofNat n) = .char (Char.ofNat n) := by
  have hb : (UInt8.ofNat n).toNat = n := toNat_ofNat (by omega)
  simp only [begin, hb, if_pos h]

theorem begin_two {n : Nat} (hlow : 0x80 ≤ n) (hhigh : n < 0x800) :
    begin (UInt8.ofNat (0xC0 + n / 64)) = .sequence ⟨1, 1, n / 64, 0x80, 0xBF⟩ := by
  have hb : (UInt8.ofNat (0xC0 + n / 64)).toNat = 0xC0 + n / 64 := toNat_ofNat (by omega)
  have hcode : 0xC0 + n / 64 - 0xC0 = n / 64 := by omega
  simp only [begin, hb, hcode]
  rw [if_neg (by omega), if_neg (by omega), if_pos (by omega)]

/-- The bounds for the second byte depend on the first; the code of a character keeps them. -/
theorem begin_three {n : Nat} (hlow : 0x800 ≤ n) (hhigh : n < 0x10000)
    (hvalid : n < 0xD800 ∨ 0xDFFF < n) :
    ∃ low high, begin (UInt8.ofNat (0xE0 + n / 4096)) = .sequence ⟨1, 2, n / 4096, low, high⟩ ∧
      low ≤ 0x80 + n / 64 % 64 ∧ 0x80 + n / 64 % 64 ≤ high := by
  have hb : (UInt8.ofNat (0xE0 + n / 4096)).toNat = 0xE0 + n / 4096 := toNat_ofNat (by omega)
  have hcode : 0xE0 + n / 4096 - 0xE0 = n / 4096 := by omega
  simp only [begin, hb, hcode]
  rw [if_neg (by omega), if_neg (by omega), if_neg (by omega)]
  -- After `E0` a smaller byte would give a code that fits in two bytes, and after `ED` a greater
  -- one would give a surrogate.
  by_cases h0 : n / 4096 = 0
  · refine ⟨0xA0, 0xBF, ?_, by omega, by omega⟩
    rw [if_pos (by omega), h0]
  · rw [if_neg (by omega)]
    by_cases hD : n / 4096 = 0xD
    · refine ⟨0x80, 0x9F, ?_, by omega, by omega⟩
      rw [if_pos (by omega), hD]
    · refine ⟨0x80, 0xBF, ?_, by omega, by omega⟩
      rw [if_neg (by omega), if_pos (by omega)]

/-- So do they for four bytes, where the code is below the limit of all characters. -/
theorem begin_four {n : Nat} (hlow : 0x10000 ≤ n) (hhigh : n < 0x110000) :
    ∃ low high, begin (UInt8.ofNat (0xF0 + n / 262144)) = .sequence ⟨1, 3, n / 262144, low, high⟩ ∧
      low ≤ 0x80 + n / 4096 % 64 ∧ 0x80 + n / 4096 % 64 ≤ high := by
  have hb : (UInt8.ofNat (0xF0 + n / 262144)).toNat = 0xF0 + n / 262144 := toNat_ofNat (by omega)
  have hcode : 0xF0 + n / 262144 - 0xF0 = n / 262144 := by omega
  simp only [begin, hb, hcode]
  rw [if_neg (by omega), if_neg (by omega), if_neg (by omega), if_neg (by omega),
    if_neg (by omega), if_neg (by omega)]
  -- After `F0` a smaller byte would give a code that fits in three bytes, and after `F4` a greater
  -- one would lie past the last character.
  by_cases h0 : n / 262144 = 0
  · refine ⟨0x90, 0xBF, ?_, by omega, by omega⟩
    rw [if_pos (by omega), h0]
  · rw [if_neg (by omega)]
    by_cases h4 : n / 262144 = 4
    · refine ⟨0x80, 0x8F, ?_, by omega, by omega⟩
      rw [if_neg (by omega), if_pos (by omega), h4]
    · refine ⟨0x80, 0xBF, ?_, by omega, by omega⟩
      rw [if_pos (by omega)]

/-! ## Whole characters and texts -/

theorem toNat_valid (c : Char) :
    c.toNat < 0xD800 ∨ (0xDFFF < c.toNat ∧ c.toNat < 0x110000) := c.valid

/-- **The bytes of a character are read as that character**, whatever stands behind them. -/
theorem decodeFrom_encodeChar (c : Char) (index : Nat) (bs : List UInt8) :
    ∃ index', decodeFrom index none (encodeChar c ++ bs) =
      (decodeFrom index' none bs).map (c :: ·) := by
  have hvalid := toNat_valid c
  have hchar : Char.ofNat c.toNat = c := Char.ofNat_toNat c
  generalize hn : c.toNat = n at hvalid hchar
  simp only [encodeChar, hn]
  -- The four ranges of codes are told apart in the order in which the writer does it.
  by_cases h1 : n < 0x80
  · refine ⟨index + 1, ?_⟩
    rw [if_pos h1, List.singleton_append]
    simp only [decodeFrom, begin_one h1, hchar]
  rw [if_neg h1]
  by_cases h2 : n < 0x800
  · have hcode : n / 64 * 64 + n % 64 = n := by omega
    refine ⟨index + 1 + 1, ?_⟩
    rw [if_pos h2, List.cons_append, List.singleton_append,
      decodeFrom_begin (begin_two (by omega) h2), decodeFrom_last (by omega) (by omega),
      hcode, hchar]
  rw [if_neg h2]
  by_cases h3 : n < 0x10000
  · obtain ⟨low, high, hbegin, hlow, hhigh⟩ := begin_three (by omega) h3 (by omega)
    have hcode : (n / 4096 * 64 + n / 64 % 64) * 64 + n % 64 = n := by omega
    refine ⟨index + 1 + 1 + 1, ?_⟩
    rw [if_pos h3, List.cons_append, List.cons_append, List.singleton_append,
      decodeFrom_begin hbegin, decodeFrom_next hlow hhigh (by decide),
      decodeFrom_last (by omega) (by omega), hcode, hchar]
  · obtain ⟨low, high, hbegin, hlow, hhigh⟩ := begin_four (by omega) (show n < 0x110000 by omega)
    have hcode : ((n / 262144 * 64 + n / 4096 % 64) * 64 + n / 64 % 64) * 64 + n % 64 = n := by
      omega
    refine ⟨index + 1 + 1 + 1 + 1, ?_⟩
    rw [if_neg h3, List.cons_append, List.cons_append, List.cons_append, List.singleton_append,
      decodeFrom_begin hbegin, decodeFrom_next hlow hhigh (by decide),
      decodeFrom_next (by omega) (by omega) (by decide),
      decodeFrom_last (by omega) (by omega), hcode, hchar]

theorem decodeFrom_flatMap (cs : List Char) :
    ∀ index, decodeFrom index none (cs.flatMap encodeChar) = .ok cs := by
  induction cs with
  | nil => intro index; rfl
  | cons c cs ih =>
    intro index
    obtain ⟨index', h⟩ := decodeFrom_encodeChar c index (cs.flatMap encodeChar)
    rw [List.flatMap_cons, h, ih index']
    rfl

/-- **A text is read back as it was written.** -/
theorem decode_encode (s : String) : decode (encode s) = .ok s := by
  rw [decode, encode, decodeFrom_flatMap]
  show Except.ok (String.ofList s.toList) = .ok s
  rw [String.ofList_toList]

theorem encode_append (s t : String) : encode (s ++ t) = encode s ++ encode t := by
  rw [encode, String.toList_append, List.flatMap_append]
  rfl

/-! ## Newline bytes -/

/-- The newline byte begins a newline and is part of no other character. -/
theorem newline_mem_encodeChar_iff {c : Char} : 10 ∈ encodeChar c ↔ c = '\n' := by
  constructor
  · intro h
    have hlt := toNat_valid c
    have hbyte : ∀ {n : Nat}, n < 256 → (10 : UInt8) = UInt8.ofNat n → n = 10 := by
      intro n hn he
      have := congrArg UInt8.toNat he
      rw [toNat_ofNat hn] at this
      exact this.symm
    have hc : c.toNat = 10 := by
      simp only [encodeChar] at h
      -- One byte is the code itself; all bytes of longer sequences have their highest bit set.
      generalize c.toNat = n at h hlt
      split at h
      · exact hbyte (by omega) (List.mem_singleton.mp h)
      split at h
      · simp only [List.mem_cons, List.not_mem_nil, or_false] at h
        rcases h with h | h <;> exact absurd (hbyte (by omega) h) (by omega)
      split at h
      · simp only [List.mem_cons, List.not_mem_nil, or_false] at h
        rcases h with h | h | h <;> exact absurd (hbyte (by omega) h) (by omega)
      · simp only [List.mem_cons, List.not_mem_nil, or_false] at h
        rcases h with h | h | h | h <;> exact absurd (hbyte (by omega) h) (by omega)
    rw [← Char.ofNat_toNat c, hc]
  · intro h
    rw [h]
    exact List.mem_singleton.mpr rfl

/-- **Bytes are cut at newline bytes where their text is cut at newlines.** -/
theorem splitOn_flatMap_encodeChar (cs : List Char) :
    (cs.flatMap encodeChar).splitOn 10 = (cs.splitOn '\n').map (·.flatMap encodeChar) := by
  induction cs with
  | nil => rfl
  | cons c cs ih =>
    obtain ⟨l, ls, hl⟩ := List.exists_cons_of_ne_nil (List.splitOn_ne_nil '\n' cs)
    rw [List.flatMap_cons, List.splitOn_cons_eq_if_modifyHead, hl]
    by_cases hc : c = '\n'
    · rw [if_pos (beq_iff_eq.mpr hc), hc]
      show List.splitOn 10 (10 :: cs.flatMap encodeChar) = _
      rw [List.splitOn_cons_eq_if_modifyHead, ih, hl]
      rfl
    · have hbytes : 10 ∉ encodeChar c := mt newline_mem_encodeChar_iff.mp hc
      rw [if_neg (mt beq_iff_eq.mp hc), splitOn_append hbytes, ih, hl]
      rfl

/-- No sequence goes on with a byte as low as a newline. -/
theorem low_of_begin {b : UInt8} {p : Pending} (h : begin b = .sequence p) : 10 < p.low := by
  simp only [begin] at h
  repeat' split at h
  all_goals cases h <;> simp

/-- **A newline byte completes no sequence.** -/
theorem toOption_decodeFrom_newline (bs : List UInt8) :
    ∀ (index : Nat) (pending : Option Pending), (∀ p ∈ pending, 10 < p.low) →
      (decodeFrom index pending (bs ++ [10])).toOption =
        (decodeFrom index pending bs).toOption.map (· ++ ['\n']) := by
  induction bs with
  | nil =>
    intro index pending hlow
    -- At the end a sequence that is begun is cut off, and a newline byte does not go on with it.
    cases pending with
    | none => rfl
    | some p =>
      have hp : p.accepts 10 = false := by
        have hlt : ¬ p.low ≤ (10 : UInt8).toNat := Nat.not_le.mpr (hlow p rfl)
        rw [Pending.accepts, decide_eq_false hlt, Bool.false_and]
      simp only [List.nil_append, decodeFrom, hp]
      rfl
  | cons b bs ih =>
    intro index pending hlow
    have hmap : ∀ (index : Nat) (c : Char),
        ((decodeFrom index none (bs ++ [10])).map (c :: ·)).toOption =
          ((decodeFrom index none bs).map (c :: ·)).toOption.map (· ++ ['\n']) := by
      intro index c
      rw [toOption_map, toOption_map, ih index none (fun _ h => nomatch h), Option.map_map,
        Option.map_map]
      rfl
    rw [List.cons_append]
    -- Each byte leads to the same state with and without the newline, and the bounds for the next
    -- byte stay above it.
    cases pending with
    | none =>
      simp only [decodeFrom]
      split
      · exact hmap _ _
      · rename_i p hp
        exact ih _ _ (fun q hq => by cases hq; exact low_of_begin hp)
      · rfl
    | some p =>
      simp only [decodeFrom]
      split
      · split
        · exact hmap _ _
        · exact ih _ _ (fun q hq => by cases hq; exact (by decide : 10 < 0x80))
      · rfl

/-- A newline byte behind other bytes is a newline behind their text, if they have one. -/
theorem toOption_decode_newline (bs : List UInt8) :
    (decode (bs ++ [10])).toOption = (decode bs).toOption.map (· ++ "\n") := by
  rw [decode, decode, toOption_map, toOption_map,
    toOption_decodeFrom_newline bs 0 none (fun _ h => nomatch h), Option.map_map, Option.map_map]
  refine congrArg (Option.map · _) (funext fun cs => ?_)
  exact String.ofList_append

/-- A newline byte behind the bytes of a text is a newline behind the text. -/
theorem decode_newline_of_ok {bs : List UInt8} {t : String} (h : decode bs = .ok t) :
    decode (bs ++ [10]) = .ok (t ++ "\n") := by
  have hnewline := toOption_decode_newline bs
  rw [h] at hnewline
  cases hd : decode (bs ++ [10]) with
  | ok u => rw [hd] at hnewline; exact congrArg Except.ok (Option.some.inj hnewline)
  | error fault => rw [hd] at hnewline; nomatch hnewline

/-- A newline byte makes no text of bytes that are none. -/
theorem decode_newline_of_error {bs : List UInt8} {fault : Fault} (h : decode bs = .error fault) :
    ∃ fault', decode (bs ++ [10]) = .error fault' := by
  have hnewline := toOption_decode_newline bs
  rw [h] at hnewline
  cases hd : decode (bs ++ [10]) with
  | ok u => rw [hd] at hnewline; nomatch hnewline
  | error fault' => exact ⟨fault', rfl⟩

end GraphKeeper.Text.Utf8

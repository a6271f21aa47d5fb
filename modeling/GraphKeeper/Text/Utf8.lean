/-
  UTF-8: characters as bytes and bytes as characters.

  Decoding walks over the bytes one at a time.  After the first byte of a longer sequence it keeps
  the bounds for the next byte, which exclude overlong forms, surrogates and codes past the last
  character from the second byte on.  A fault names the place of the sequence that is not UTF-8 and
  the number of its bytes that could still begin a character; an input that ends inside a sequence
  gives no number.
-/

namespace GraphKeeper.Text.Utf8

/-- The bytes of one character. -/
def encodeChar (c : Char) : List UInt8 :=
  let n := c.toNat
  if n < 0x80 then [UInt8.ofNat n]
  else if n < 0x800 then [UInt8.ofNat (0xC0 + n / 64), UInt8.ofNat (0x80 + n % 64)]
  else if n < 0x10000 then
    [UInt8.ofNat (0xE0 + n / 4096), UInt8.ofNat (0x80 + n / 64 % 64), UInt8.ofNat (0x80 + n % 64)]
  else
    [UInt8.ofNat (0xF0 + n / 262144), UInt8.ofNat (0x80 + n / 4096 % 64),
      UInt8.ofNat (0x80 + n / 64 % 64), UInt8.ofNat (0x80 + n % 64)]

/-- The bytes of a text. -/
def encode (s : String) : List UInt8 := s.toList.flatMap encodeChar

/-- Where and how bytes fail to be UTF-8. -/
structure Fault where
  /-- The number of bytes before the sequence at fault. -/
  index : Nat
  /-- The bytes of the sequence that could begin a character; none if the input ends inside. -/
  length : Option Nat
deriving DecidableEq, Repr

def Fault.message (f : Fault) : String :=
  match f.length with
  | some n => s!"invalid utf-8 sequence of {n} bytes from index {f.index}"
  | none => s!"incomplete utf-8 byte sequence from index {f.index}"

/-- A sequence of which some bytes have been read. -/
structure Pending where
  /-- The number of bytes read. -/
  seen : Nat
  /-- The bytes still to come. -/
  missing : Nat
  /-- The code so far. -/
  code : Nat
  /-- The least next byte. -/
  low : Nat
  /-- The greatest next byte. -/
  high : Nat

/-- What a byte between two characters begins. -/
inductive Begin where
  | char (c : Char)
  | sequence (p : Pending)
  | nothing

def begin (b : UInt8) : Begin :=
  let n := b.toNat
  if n < 0x80 then .char (Char.ofNat n)
  else if n < 0xC2 then .nothing
  else if n < 0xE0 then .sequence ⟨1, 1, n - 0xC0, 0x80, 0xBF⟩
  else if n = 0xE0 then .sequence ⟨1, 2, 0, 0xA0, 0xBF⟩
  else if n = 0xED then .sequence ⟨1, 2, 0xD, 0x80, 0x9F⟩
  else if n < 0xF0 then .sequence ⟨1, 2, n - 0xE0, 0x80, 0xBF⟩
  else if n = 0xF0 then .sequence ⟨1, 3, 0, 0x90, 0xBF⟩
  else if n < 0xF4 then .sequence ⟨1, 3, n - 0xF0, 0x80, 0xBF⟩
  else if n = 0xF4 then .sequence ⟨1, 3, 4, 0x80, 0x8F⟩
  else .nothing

/-- Whether a pending sequence may go on with this byte. -/
def Pending.accepts (p : Pending) (b : UInt8) : Bool := p.low ≤ b.toNat && b.toNat ≤ p.high

/-- The code after one more byte. -/
def Pending.extend (p : Pending) (b : UInt8) : Nat := p.code * 64 + (b.toNat - 0x80)

/-- The sequence after a byte that is not its last. -/
def Pending.next (p : Pending) (b : UInt8) : Pending :=
  ⟨p.seen + 1, p.missing - 1, p.extend b, 0x80, 0xBF⟩

/-- Decodes from the byte at `index` on, with the sequence that is under way, if any. -/
def decodeFrom (index : Nat) (pending : Option Pending) : List UInt8 → Except Fault (List Char)
  | [] =>
    match pending with
    | none => .ok []
    | some p => .error ⟨index - p.seen, none⟩
  | b :: bs =>
    match pending with
    | none =>
      match begin b with
      | .char c => (decodeFrom (index + 1) none bs).map (c :: ·)
      | .sequence p => decodeFrom (index + 1) (some p) bs
      | .nothing => .error ⟨index, some 1⟩
    | some p =>
      if p.accepts b then
        if p.missing ≤ 1 then
          (decodeFrom (index + 1) none bs).map (Char.ofNat (p.extend b) :: ·)
        else decodeFrom (index + 1) (some (p.next b)) bs
      else .error ⟨index - p.seen, some p.seen⟩

/-- The text that the bytes encode. -/
def decode (bytes : List UInt8) : Except Fault String :=
  (decodeFrom 0 none bytes).map String.ofList

/-- The sign for bytes that are not UTF-8. -/
def replacement : Char := Char.ofNat 0xFFFD

/-- The characters of the bytes, with one replacement for each sequence at fault. -/
def charsLossy (pending : Option Pending) : List UInt8 → List Char
  | [] => if pending.isSome then [replacement] else []
  | b :: bs =>
    let fresh (lead : List Char) : List Char :=
      match begin b with
      | .char c => lead ++ c :: charsLossy none bs
      | .sequence p => lead ++ charsLossy (some p) bs
      | .nothing => lead ++ replacement :: charsLossy none bs
    match pending with
    | none => fresh []
    | some p =>
      if p.accepts b then
        if p.missing ≤ 1 then Char.ofNat (p.extend b) :: charsLossy none bs
        else charsLossy (some (p.next b)) bs
      else fresh [replacement]

/-- The text of the bytes, where each sequence at fault becomes one replacement character. -/
def decodeLossy (bytes : List UInt8) : String := String.ofList (charsLossy none bytes)

end GraphKeeper.Text.Utf8

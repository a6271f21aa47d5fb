/-
  Blank characters, trimming and searching in text.

  A character is blank when the Unicode property White_Space holds of it.  A text is blank when
  nothing is left of it after trimming, which is to say when all of its characters are blank.
-/

namespace GraphKeeper.Text

/-- The property White_Space. -/
def isBlankChar (c : Char) : Bool :=
  let n := c.toNat
  (9 ≤ n && n ≤ 13) || n == 0x20 || n == 0x85 || n == 0xA0 || n == 0x1680 ||
    (0x2000 ≤ n && n ≤ 0x200A) || n == 0x2028 || n == 0x2029 || n == 0x202F || n == 0x205F ||
    n == 0x3000

/-- Whether every character is blank. -/
def isBlank (s : String) : Bool := s.toList.all isBlankChar

/-- Drops the elements that satisfy `p` at the end of a list. -/
def dropTrailing {α : Type} (p : α → Bool) : List α → List α
  | [] => []
  | a :: as =>
    match dropTrailing p as with
    | [] => if p a then [] else [a]
    | bs => a :: bs

/-- The text without blank characters at either end. -/
def trim (s : String) : String :=
  String.ofList (dropTrailing isBlankChar (s.toList.dropWhile isBlankChar))

/-- The rest of a list after the given leading part, if it starts with that part. -/
def afterLead? {α : Type} [DecidableEq α] : List α → List α → Option (List α)
  | [], as => some as
  | _ :: _, [] => none
  | l :: ls, a :: as => if l = a then afterLead? ls as else none

/-- The rest of a text after the given leading part, if it starts with that part. -/
def stripLead? (lead s : String) : Option String :=
  (afterLead? lead.toList s.toList).map String.ofList

/-- Whether the first list stands somewhere in the second, as consecutive elements. -/
def occursIn {α : Type} [DecidableEq α] (needle : List α) : List α → Bool
  | [] => needle.isEmpty
  | a :: as => (afterLead? needle (a :: as)).isSome || occursIn needle as

/-- Whether `s` contains `needle` as a part of consecutive characters. -/
def contains (s needle : String) : Bool := occursIn needle.toList s.toList

/-! ## Small laws -/

theorem dropTrailing_eq_nil_iff {α : Type} (p : α → Bool) (as : List α) :
    dropTrailing p as = [] ↔ as.all p = true := by
  induction as with
  | nil => simp [dropTrailing]
  | cons a as ih =>
    unfold dropTrailing
    cases h : dropTrailing p as with
    | nil =>
      have := ih.mp h
      cases hp : p a <;> simp_all
    | cons b bs =>
      have : ¬ as.all p = true := fun h' => by simp [ih.mpr h'] at h
      simp_all

theorem all_dropWhile_iff {α : Type} (p : α → Bool) (as : List α) :
    (as.dropWhile p).all p = true ↔ as.all p = true := by
  induction as with
  | nil => simp
  | cons a as ih => cases h : p a <;> simp_all

/-- Trimming leaves nothing exactly when the text is blank. -/
theorem trim_eq_empty_iff (s : String) : trim s = "" ↔ isBlank s = true := by
  have : trim s = "" ↔ dropTrailing isBlankChar (s.toList.dropWhile isBlankChar) = [] := by
    unfold trim
    constructor
    · intro h
      have := congrArg String.toList h
      simpa using this
    · intro h; rw [h]
  rw [this, dropTrailing_eq_nil_iff, all_dropWhile_iff]
  rfl

end GraphKeeper.Text

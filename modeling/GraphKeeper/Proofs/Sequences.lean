/-
  Laws of the operations on sequences that graphs are changed with.

  Checks are made one after another and the first that fails decides; `forM_eq_ok_iff` reads a run
  of checks as "all of them pass", and `bind_eq_ok_iff` takes a computation that succeeded apart
  into its steps.  `FailsWith` says which failures a computation may have; it follows the definition
  of the computation step by step.  `modifyFirst` changes one element and keeps what its change
  keeps; `distinct` holds the same elements as before, each of them once.
-/
import GraphKeeper.Graph.Basic
import Mathlib.Data.List.Nodup

namespace GraphKeeper

variable {α β ε : Type}

/-! ## Steps that may fail -/

/-- **Two steps succeed exactly if the first does and the second does on its result.** -/
theorem bind_eq_ok_iff {x : Except ε α} {f : α → Except ε β} {b : β} :
    (x >>= f) = .ok b ↔ ∃ a, x = .ok a ∧ f a = .ok b := by
  cases x with
  | error e =>
    constructor
    · intro h; nomatch h
    · rintro ⟨_, h, _⟩; nomatch h
  | ok a =>
    constructor
    · intro h; exact ⟨a, rfl, h⟩
    · rintro ⟨_, h, hf⟩; cases h; exact hf

/-- The same without naming the last result. -/
theorem exists_bind_eq_ok_iff {x : Except ε α} {f : α → Except ε β} :
    (∃ b, (x >>= f) = .ok b) ↔ ∃ a, x = .ok a ∧ ∃ b, f a = .ok b := by
  constructor
  · rintro ⟨b, h⟩
    obtain ⟨a, ha, hb⟩ := bind_eq_ok_iff.mp h
    exact ⟨a, ha, b, hb⟩
  · rintro ⟨a, ha, b, hb⟩
    exact ⟨b, bind_eq_ok_iff.mpr ⟨a, ha, hb⟩⟩

/-- Two steps fail with the failure of the first, or with that of the second if the
first succeeds. -/
theorem bind_eq_error_iff {x : Except ε α} {f : α → Except ε β} {e : ε} :
    (x >>= f) = .error e ↔ x = .error e ∨ ∃ a, x = .ok a ∧ f a = .error e := by
  cases x with
  | error e' =>
    constructor
    · intro h; cases h; exact Or.inl rfl
    · rintro (h | ⟨_, h, _⟩)
      · cases h; rfl
      · nomatch h
  | ok a =>
    constructor
    · intro h; exact Or.inr ⟨a, rfl, h⟩
    · rintro (h | ⟨_, h, hf⟩)
      · nomatch h
      · cases h; exact hf

/-- A step behind a condition is made when the condition holds. -/
theorem unless_eq_ok_iff {b : Bool} {e : ε} {step : PUnit → Except ε α} {a : α} :
    (if !b then throw e >>= step else step ⟨⟩) = .ok a ↔ b = true ∧ step ⟨⟩ = .ok a := by
  cases b with
  | true => exact (and_iff_right rfl).symm
  | false =>
    constructor
    · intro h; nomatch h
    · rintro ⟨h, _⟩; nomatch h

/-- What is made of a result is there exactly if the result is. -/
theorem map_eq_ok_iff {f : α → β} {x : Except ε α} {b : β} :
    f <$> x = .ok b ↔ ∃ a, x = .ok a ∧ b = f a := by
  cases x with
  | error e => exact ⟨(nomatch ·), fun ⟨_, h, _⟩ => nomatch h⟩
  | ok a =>
    constructor
    · intro h
      cases h
      exact ⟨a, rfl, rfl⟩
    · rintro ⟨_, h, rfl⟩
      cases h
      rfl

/-- Forgetting failures and changing results can change places. -/
theorem toOption_map (x : Except ε α) (f : α → β) :
    (x.map f).toOption = x.toOption.map f := by
  cases x <;> rfl

/-- Other words for failures make no difference to results. -/
theorem mapError_eq_ok_iff {ε' : Type} {f : ε → ε'} {x : Except ε α} {a : α} :
    x.mapError f = .ok a ↔ x = .ok a := by
  cases x with
  | error e => exact ⟨(nomatch ·), (nomatch ·)⟩
  | ok a' => exact ⟨fun h => congrArg _ (Except.ok.inj h), fun h => congrArg _ (Except.ok.inj h)⟩

/-- A computation that succeeds does so with its value, whatever stands in for one. -/
theorem eq_ok_of_isOk {x : Except ε α} {a : α} (h : x.isOk = true) :
    x = .ok (x.toOption.getD a) := by
  cases x with
  | error e => nomatch h
  | ok a' => rfl

/-- What comes with a result that is no error. -/
theorem exists_eq_ok_of_isOk {x : Except ε α × β} (h : x.1.isOk = true) :
    ∃ a, x = (.ok a, x.2) := by
  obtain ⟨_ | a, b⟩ := x
  · nomatch h
  · exact ⟨a, rfl⟩

/-- A run of checks succeeds exactly when each of them does. -/
theorem forM_eq_ok_iff {check : α → Except ε Unit} {as : List α} :
    as.forM check = .ok () ↔ ∀ a ∈ as, check a = .ok () := by
  -- A run is the first check and then the run of the others, so `bind_eq_ok_iff` takes one off.
  induction as with
  | nil => exact ⟨fun _ a ha => absurd ha List.not_mem_nil, fun _ => rfl⟩
  | cons a as ih =>
    rw [List.forall_mem_cons, ← ih]
    show (check a >>= fun _ => as.forM check) = .ok () ↔ _
    rw [bind_eq_ok_iff]
    exact ⟨fun ⟨_, h, hs⟩ => ⟨h, hs⟩, fun ⟨h, hs⟩ => ⟨(), h, hs⟩⟩

/-- Runs of checks are the same if the checks of the elements at hand are. -/
theorem forM_congr {check check' : α → Except ε Unit} {as : List α}
    (h : ∀ a ∈ as, check a = check' a) : as.forM check = as.forM check' := by
  induction as with
  | nil => rfl
  | cons a as ih =>
    obtain ⟨ha, has⟩ := List.forall_mem_cons.mp h
    show (check a >>= fun _ => as.forM check) = (check' a >>= fun _ => as.forM check')
    rw [ha, ih has]

/-- A run of checks fails with the failure of the first element that is bad. -/
theorem forM_eq_error_iff {check : α → Except ε Unit} {bad : α → Bool} {failure : α → ε}
    {as : List α} (hcheck : ∀ a ∈ as, check a = if bad a then .error (failure a) else .ok ())
    {e : ε} : as.forM check = .error e ↔ ∃ a, as.find? bad = some a ∧ e = failure a := by
  induction as with
  | nil => exact ⟨(nomatch ·), fun ⟨_, h, _⟩ => nomatch h⟩
  | cons a as ih =>
    obtain ⟨ha, has⟩ := List.forall_mem_cons.mp hcheck
    show (check a >>= fun _ => as.forM check) = .error e ↔ _
    rw [bind_eq_error_iff, ha]
    -- Either the first element is the bad one, or all that counts is behind it.
    by_cases hbad : bad a = true
    · rw [if_pos hbad, List.find?_cons_of_pos hbad]
      constructor
      · rintro (h | ⟨_, h, _⟩)
        · exact ⟨a, rfl, (Except.error.inj h).symm⟩
        · nomatch h
      · rintro ⟨_, h, rfl⟩
        cases h
        exact Or.inl rfl
    · rw [if_neg hbad, List.find?_cons_of_neg hbad, ← ih has]
      exact ⟨fun h => h.elim (nomatch ·) fun ⟨_, _, h⟩ => h, fun h => Or.inr ⟨(), rfl, h⟩⟩

/-- A run of checks of elements that stand in the order of their keys fails with the failure of the
least element that fails. -/
theorem forM_eq_error_iff_least {check : α → Except ε Unit} {key : α → Nat} {as : List α}
    (h : as.Pairwise fun a b => key a < key b) {e : ε} :
    as.forM check = .error e ↔
      ∃ a ∈ as, check a = .error e ∧ ∀ b ∈ as, (∃ e', check b = .error e') → key a ≤ key b := by
  induction as with
  | nil => exact ⟨(nomatch ·), fun ⟨_, ha, _⟩ => absurd ha List.not_mem_nil⟩
  | cons a as ih =>
    obtain ⟨hless, has⟩ := List.pairwise_cons.mp h
    show (check a >>= fun _ => as.forM check) = .error e ↔ _
    rw [bind_eq_error_iff, ih has]
    -- A failure of the first element is the least, since all keys behind it are greater.
    constructor
    · rintro (ha | ⟨_, hok, b, hb, hcheck, hleast⟩)
      · refine ⟨a, List.mem_cons_self, ha, fun b hb _ => ?_⟩
        rcases List.mem_cons.mp hb with rfl | hb
        · exact Nat.le_refl _
        · exact Nat.le_of_lt (hless b hb)
      · refine ⟨b, List.mem_cons_of_mem _ hb, hcheck, fun b' hb' herror => ?_⟩
        rcases List.mem_cons.mp hb' with rfl | hb'
        · obtain ⟨_, herror⟩ := herror
          nomatch hok.symm.trans herror
        · exact hleast b' hb' herror
    · rintro ⟨b, hb, hcheck, hleast⟩
      rcases List.mem_cons.mp hb with rfl | hb
      · exact Or.inl hcheck
      -- A failure in front of `b` would have a smaller key.
      · cases hok : check a with
        | error e' =>
          have hle := hleast a List.mem_cons_self ⟨e', hok⟩
          exact absurd (hless b hb) (Nat.not_lt.mpr hle)
        | ok =>
          refine Or.inr ⟨(), rfl, b, hb, hcheck, fun b' hb' => ?_⟩
          exact hleast b' (List.mem_cons_of_mem _ hb')

/-- Steps that succeed for some elements, whatever went before, succeed on a list of such
elements. -/
theorem exists_foldlM_eq_ok_iff {step : β → α → Except ε β} {p : α → Prop}
    (hstep : ∀ b a, (∃ b', step b a = .ok b') ↔ p a) {as : List α} {b : β} :
    (∃ b', as.foldlM step b = .ok b') ↔ ∀ a ∈ as, p a := by
  induction as generalizing b with
  | nil => exact ⟨fun _ _ h => absurd h List.not_mem_nil, fun _ => ⟨b, rfl⟩⟩
  | cons a as ih =>
    rw [List.foldlM_cons, exists_bind_eq_ok_iff, List.forall_mem_cons, ← hstep b a]
    constructor
    · rintro ⟨b', ha, has⟩
      exact ⟨⟨b', ha⟩, ih.mp has⟩
    · rintro ⟨⟨b', ha⟩, has⟩
      exact ⟨b', ha, ih.mpr has⟩

/-- Mapping succeeds when it does so for each element, and gives the results in order. -/
theorem mapM_eq_ok_iff {f : α → Except ε β} {as : List α} {bs : List β} :
    as.mapM f = .ok bs ↔ List.Forall₂ (fun a b => f a = .ok b) as bs := by
  induction as generalizing bs with
  | nil =>
    rw [List.mapM_nil, List.forall₂_nil_left_iff]
    exact ⟨fun h => (Except.ok.inj h).symm, fun h => h ▸ rfl⟩
  | cons a as ih =>
    rw [List.mapM_cons, List.forall₂_cons_left_iff, bind_eq_ok_iff]
    constructor
    · rintro ⟨b, hb, h⟩
      obtain ⟨bs', hbs, h⟩ := bind_eq_ok_iff.mp h
      exact ⟨b, bs', hb, ih.mp hbs, (Except.ok.inj h).symm⟩
    · rintro ⟨b, bs', hb, hbs, rfl⟩
      exact ⟨b, hb, bind_eq_ok_iff.mpr ⟨bs', ih.mpr hbs, rfl⟩⟩

/-- Each element on the right has a partner on the left. -/
theorem exists_mem_of_forall₂ {R : α → β → Prop} {as : List α} {bs : List β}
    (h : List.Forall₂ R as bs) {b : β} (hb : b ∈ bs) : ∃ a ∈ as, R a b := by
  induction h with
  | nil => exact absurd hb List.not_mem_nil
  | cons hab _ ih =>
    rcases List.mem_cons.mp hb with rfl | hb
    · exact ⟨_, List.mem_cons_self, hab⟩
    · obtain ⟨a, ha, hab⟩ := ih hb
      exact ⟨a, List.mem_cons_of_mem _ ha, hab⟩

/-! ## Which failures there can be -/

/-- A computation that has no failures but those with the property. -/
def FailsWith (p : ε → Prop) (x : Except ε α) : Prop := ∀ e, x = .error e → p e

namespace FailsWith

variable {p : ε → Prop} {x : Except ε α}

/-- A result is no failure. -/
theorem ok (a : α) : FailsWith p (.ok a) := fun _ h => nomatch h

/-- A failure with the property. -/
theorem error {e : ε} (h : p e) : FailsWith p (.error e : Except ε α) := by
  rintro _ ⟨⟩
  exact h

/-- **One step after another**: whatever the first one gives, the second must keep to
the property. -/
theorem bind {f : α → Except ε β} (hx : FailsWith p x) (hf : ∀ a, FailsWith p (f a)) :
    FailsWith p (x >>= f) := by
  intro e h
  rcases bind_eq_error_iff.mp h with h | ⟨a, _, h⟩
  · exact hx e h
  · exact hf a e h

/-- Either branch of a condition. -/
theorem ite {c : Prop} [Decidable c] {y : Except ε α} (hx : FailsWith p x) (hy : FailsWith p y) :
    FailsWith p (if c then x else y) := by
  split
  · exact hx
  · exact hy

/-- A check that some values are spared, and what follows it for all of them. -/
theorem checked {c : Prop} [Decidable c] {rest : Except ε β} (hx : FailsWith p x)
    (hrest : FailsWith p rest) : FailsWith p (if c then x >>= fun _ => rest else rest) :=
  ite (bind hx fun _ => hrest) hrest

/-- The same check of each element. -/
theorem forM {check : α → Except ε Unit} (h : ∀ a, FailsWith p (check a)) :
    ∀ as : List α, FailsWith p (as.forM check)
  | [] => ok ()
  | a :: as => bind (h a) fun _ => forM h as

/-- Steps that hand a value on, each of which keeps to the property for any such value. -/
theorem foldlM {step : β → α → Except ε β} {as : List α}
    (h : ∀ a ∈ as, ∀ b, FailsWith p (step b a)) (b : β) : FailsWith p (as.foldlM step b) := by
  induction as generalizing b with
  | nil => exact ok b
  | cons a as ih =>
    obtain ⟨ha, has⟩ := List.forall_mem_cons.mp h
    rw [List.foldlM_cons]
    exact bind (ha b) fun b => ih has b

end FailsWith

/-! ## Changing the first match -/

section modifyFirst

variable {p : α → Bool} {f : α → α}

/-- What the change keeps of every element is kept of the whole list. -/
theorem map_modifyFirst {key : α → β} (hkey : ∀ a, key (f a) = key a) (as : List α) :
    (modifyFirst p f as).map key = as.map key := by
  induction as with
  | nil => rfl
  | cons a as ih =>
    unfold modifyFirst
    split
    · rw [List.map_cons, List.map_cons, hkey]
    · rw [List.map_cons, List.map_cons, ih]

/-- The first match after the change is the first match before it, changed. -/
theorem find?_modifyFirst (hp : ∀ a, p (f a) = p a) (as : List α) :
    (modifyFirst p f as).find? p = (as.find? p).map f := by
  induction as with
  | nil => rfl
  | cons a as ih =>
    unfold modifyFirst
    -- Behind the first match the list is as it was.
    split
    · rename_i ha
      rw [List.find?_cons_of_pos ((hp a).trans ha), List.find?_cons_of_pos ha]
      rfl
    · rename_i ha
      rw [List.find?_cons_of_neg ha, List.find?_cons_of_neg ha, ih]

/-- A change that changes no element leaves the list as it is. -/
theorem modifyFirst_eq_self (hf : ∀ a, f a = a) (as : List α) : modifyFirst p f as = as := by
  induction as with
  | nil => rfl
  | cons a as ih =>
    unfold modifyFirst
    split
    · rw [hf]
    · rw [ih]

/-- Only what becomes of the first match tells changes apart. -/
theorem modifyFirst_congr {f' : α → α} {as : List α}
    (h : ∀ a, as.find? p = some a → f a = f' a) : modifyFirst p f as = modifyFirst p f' as := by
  induction as with
  | nil => rfl
  | cons a as ih =>
    by_cases ha : p a = true
    · rw [modifyFirst, modifyFirst, if_pos ha, if_pos ha, h a (List.find?_cons_of_pos ha)]
    · have hrest : ∀ b, as.find? p = some b → f b = f' b := fun b hb =>
        h b ((List.find?_cons_of_neg ha).trans hb)
      rw [modifyFirst, modifyFirst, if_neg ha, if_neg ha, ih hrest]

/-- Nobody who looks for other elements notices the change. -/
theorem find?_modifyFirst_of_other {q : α → Bool} (hpq : ∀ a, p a = true → ¬ q a = true)
    (hq : ∀ a, q (f a) = q a) (as : List α) : (modifyFirst p f as).find? q = as.find? q := by
  induction as with
  | nil => rfl
  | cons a as ih =>
    unfold modifyFirst
    split
    · rename_i ha
      have hchanged : ¬ q (f a) = true := hq a ▸ hpq a ha
      rw [List.find?_cons_of_neg (hpq a ha), List.find?_cons_of_neg hchanged]
    · rw [List.find?_cons, List.find?_cons, ih]

/-- Changes of elements that are told apart can be made in either order. -/
theorem modifyFirst_comm {q : α → Bool} {f' : α → α} (hpq : ∀ a, p a = true → ¬ q a = true)
    (hp : ∀ a, p (f' a) = p a) (hq : ∀ a, q (f a) = q a) (as : List α) :
    modifyFirst p f (modifyFirst q f' as) = modifyFirst q f' (modifyFirst p f as) := by
  induction as with
  | nil => rfl
  | cons a as ih =>
    -- An element is matched by one of the two at most, and stays so after its change.
    by_cases ha : p a = true
    · have hchanged : ¬ q (f a) = true := hq a ▸ hpq a ha
      rw [modifyFirst, if_neg (hpq a ha), modifyFirst, if_pos ha, modifyFirst, if_pos ha,
        modifyFirst, if_neg hchanged]
    · by_cases hqa : q a = true
      · have hchanged : ¬ p (f' a) = true := hp a ▸ ha
        rw [modifyFirst, if_pos hqa, modifyFirst, if_neg hchanged, modifyFirst, if_neg ha,
          modifyFirst, if_pos hqa]
      · rw [modifyFirst, if_neg hqa, modifyFirst, if_neg ha, modifyFirst, if_neg ha, modifyFirst,
          if_neg hqa, ih]

/-- An element after the change was there before, or is a change of one that was. -/
theorem mem_modifyFirst {as : List α} {a : α} (h : a ∈ modifyFirst p f as) :
    a ∈ as ∨ ∃ b ∈ as, a = f b := by
  induction as with
  | nil => exact absurd h List.not_mem_nil
  | cons b as ih =>
    unfold modifyFirst at h
    split at h
    · rcases List.mem_cons.mp h with rfl | h
      · exact Or.inr ⟨b, List.mem_cons_self, rfl⟩
      · exact Or.inl (List.mem_cons_of_mem _ h)
    · rcases List.mem_cons.mp h with rfl | h
      · exact Or.inl List.mem_cons_self
      · rcases ih h with h | ⟨c, hc, rfl⟩
        · exact Or.inl (List.mem_cons_of_mem _ h)
        · exact Or.inr ⟨c, List.mem_cons_of_mem _ hc, rfl⟩

end modifyFirst

/-! ## Each element once -/

section distinct

variable [DecidableEq α]

/-- No element is lost, and none is new. -/
theorem mem_distinct {a : α} {as : List α} : a ∈ distinct as ↔ a ∈ as := by
  induction as with
  | nil => exact Iff.rfl
  | cons b as ih =>
    by_cases h : a = b
    · simp [distinct, h]
    · simp [distinct, h, ih]

/-- No element comes twice. -/
theorem nodup_distinct (as : List α) : (distinct as).Nodup := by
  induction as with
  | nil => exact List.nodup_nil
  | cons a as ih =>
    refine List.nodup_cons.mpr ⟨?_, ih.filter _⟩
    simp [List.mem_filter]

/-- Nothing is dropped from a list without repetitions. -/
theorem distinct_eq_self {as : List α} (h : as.Nodup) : distinct as = as := by
  induction as with
  | nil => rfl
  | cons a as ih =>
    obtain ⟨ha, has⟩ := List.nodup_cons.mp h
    rw [distinct, ih has, List.filter_eq_self.mpr]
    intro b hb
    have hne : b ≠ a := fun e => ha (e ▸ hb)
    exact decide_eq_true hne

/-- Picking elements and dropping repetitions can change places. -/
theorem filter_distinct (p : α → Bool) (as : List α) :
    (distinct as).filter p = distinct (as.filter p) := by
  induction as with
  | nil => rfl
  | cons a as ih =>
    have hcomm : ((distinct as).filter (· ≠ a)).filter p =
        (distinct (as.filter p)).filter (· ≠ a) := by
      rw [← ih, List.filter_filter, List.filter_filter]
      exact congrArg (List.filter · (distinct as)) (funext fun _ => Bool.and_comm _ _)
    rw [distinct]
    by_cases ha : p a = true
    · rw [List.filter_cons_of_pos ha, List.filter_cons_of_pos ha, distinct, hcomm]
    -- An element that is filtered out needs no striking out behind it.
    · have hself : (distinct (as.filter p)).filter (· ≠ a) = distinct (as.filter p) := by
        refine List.filter_eq_self.mpr fun b hb => decide_eq_true ?_
        rintro rfl
        exact ha (List.mem_filter.mp (mem_distinct.mp hb)).2
      rw [List.filter_cons_of_neg ha, List.filter_cons_of_neg ha, hcomm, hself]

end distinct

/-! ## Elements told apart by a key -/

/-- What is made of some of the elements has some of their keys, in order. -/
theorem map_filterMap_sublist {γ : Type} {F : α → Option β} {key : α → γ} {key' : β → γ}
    (h : ∀ a b, F a = some b → key' b = key a) (as : List α) :
    ((as.filterMap F).map key').Sublist (as.map key) := by
  induction as with
  | nil => exact List.Sublist.slnil
  | cons a as ih =>
    cases ha : F a with
    | none =>
      rw [List.filterMap_cons_none ha]
      exact ih.cons (key a)
    | some b =>
      rw [List.filterMap_cons_some ha, List.map_cons, List.map_cons, h a b ha]
      exact ih.cons_cons (key a)

/-- What one element contributes is told from what the others contribute. -/
theorem filter_flatMap_eq {p : β → Bool} {F : α → List β} {as : List α} (hnodup : as.Nodup) {a : α}
    (ha : a ∈ as) (hself : ∀ b ∈ F a, p b = true)
    (hother : ∀ a' ∈ as, a' ≠ a → ∀ b ∈ F a', ¬ p b = true) : (as.flatMap F).filter p = F a := by
  induction as with
  | nil => exact absurd ha List.not_mem_nil
  | cons a' as ih =>
    obtain ⟨hnew, hnodup⟩ := List.nodup_cons.mp hnodup
    rw [List.flatMap_cons, List.filter_append]
    -- Either the element comes first and nothing of the others is left, or it comes later.
    rcases List.mem_cons.mp ha with rfl | ha
    · have hrest : (as.flatMap F).filter p = [] := by
        refine List.filter_eq_nil_iff.mpr fun b hb => ?_
        obtain ⟨a', ha', hb⟩ := List.mem_flatMap.mp hb
        refine hother a' (List.mem_cons_of_mem _ ha') ?_ b hb
        rintro rfl
        exact hnew ha'
      rw [List.filter_eq_self.mpr hself, hrest, List.append_nil]
    · have hne : a' ≠ a := by
        rintro rfl
        exact hnew ha
      have hhead : (F a').filter p = [] :=
        List.filter_eq_nil_iff.mpr (hother a' List.mem_cons_self hne)
      rw [hhead, List.nil_append]
      exact ih hnodup ha fun a'' ha'' => hother a'' (List.mem_cons_of_mem _ ha'')

/-! ## Sorting -/

/-- Sorting and picking can change places. -/
theorem filter_mergeSort {le : α → α → Bool} (p : α → Bool)
    (htrans : ∀ a b c, le a b = true → le b c = true → le a c = true)
    (htotal : ∀ a b, (le a b || le b a) = true)
    (hantisymm : ∀ a b, le a b = true → le b a = true → a = b) (as : List α) :
    (as.mergeSort le).filter p = (as.filter p).mergeSort le := by
  -- Both are sorted and hold the same elements, and the order leaves no choice.
  have hperm : ((as.mergeSort le).filter p).Perm ((as.filter p).mergeSort le) :=
    ((List.mergeSort_perm as le).filter p).trans (List.mergeSort_perm _ le).symm
  exact hperm.eq_of_pairwise (fun a b _ _ => hantisymm a b)
    ((List.pairwise_mergeSort htrans htotal as).filter p)
    (List.pairwise_mergeSort htrans htotal _)

/-! ## Last elements and pieces -/

/-- The last element is the last one picked, if it is picked. -/
theorem getLast?_filter_of_pos {p : α → Bool} {as : List α} {a : α} (h : as.getLast? = some a)
    (ha : p a = true) : (as.filter p).getLast? = some a := by
  obtain ⟨init, rfl⟩ := List.getLast?_eq_some_iff.mp h
  rw [List.filter_append, List.filter_cons_of_pos ha, List.filter_nil, List.getLast?_concat]

/-- Elements in front that are not cut at stay with the first piece. -/
theorem splitOn_append {α : Type} [DecidableEq α] {a : α} {l : List α} (h : a ∉ l) (as : List α) :
    (l ++ as).splitOn a = (as.splitOn a).modifyHead (l ++ ·) := by
  induction l with
  | nil => exact (congrFun List.modifyHead_id _).symm
  | cons b l ih =>
    have hb : (b == a) = false := beq_false_of_ne (Ne.symm (List.ne_of_not_mem_cons h))
    rw [List.cons_append, List.splitOn_cons_eq_if_modifyHead, hb, if_neg Bool.false_ne_true,
      ih (List.not_mem_of_not_mem_cons h), List.modifyHead_modifyHead]
    rfl

section lastPiece

variable [BEq α] [LawfulBEq α] {a : α} {as s : List α}

/-- Where something is cut off, the last piece stands behind the last separator. -/
theorem exists_last_piece (h : a ∈ as) : ∃ front piece, as = front ++ a :: piece ∧ a ∉ piece ∧
    (as.splitOn a).getLast? = some piece := by
  -- The first separator from behind is looked for, hence the list is turned round twice.
  obtain ⟨s, t, hst, hs⟩ := List.eq_append_cons_of_mem (List.mem_reverse.mpr h)
  have has : as = t.reverse ++ a :: s.reverse := by
    rw [← List.reverse_reverse as, hst, List.reverse_append, List.reverse_cons,
      List.append_assoc, List.singleton_append]
  have hs : a ∉ s.reverse := mt List.mem_reverse.mp hs
  refine ⟨t.reverse, s.reverse, has, hs, ?_⟩
  rw [has, List.splitOn_append_cons_self, List.splitOn_eq_singleton hs, List.getLast?_concat]

/-- What is at the end and is not cut is at the end of the last piece. -/
theorem suffix_getLast?_splitOn (h : s <:+ as) (hs : a ∉ s) :
    ∃ piece, (as.splitOn a).getLast? = some piece ∧ s <:+ piece := by
  by_cases ha : a ∈ as
  · obtain ⟨front, piece, has, _, hpiece⟩ := exists_last_piece ha
    have hbehind : a :: piece <:+ as := ⟨front, has.symm⟩
    refine ⟨piece, hpiece, ?_⟩
    by_cases hlong : s.length ≤ piece.length
    · exact List.suffix_of_suffix_length_le h ((List.suffix_cons a piece).trans hbehind) hlong
    -- A longer end would have the separator in it.
    · have hcut : a :: piece <:+ s :=
        List.suffix_of_suffix_length_le hbehind h (by rw [List.length_cons]; omega)
      exact absurd (hcut.subset List.mem_cons_self) hs
  · exact ⟨as, by rw [List.splitOn_eq_singleton ha]; rfl, h⟩

end lastPiece

end GraphKeeper

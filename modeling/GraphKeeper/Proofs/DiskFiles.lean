/-
  A file that has been replaced is read back with its new content (`read_of_replace`).

  Replacing a file and reading it look up the path in different ways: reading locates the entry of
  the path, replacing asks for a vacancy in the directory that holds it.  A path with a vacancy
  ends in the name of a file, so both come to the same location (`names_of_steps`,
  `asDirectory_eq_false`).  The way there is not blocked by the new file, since it is put where no
  directory was, and all stations of a way are directories (`walk_put`).

  For the same reason the path can be looked up again after its file was replaced, and comes to the
  same location, so replacing twice is replacing with the last content (`replace_replace`).  Whether
  it can be replaced at all is a matter of the path and not of the content (`writable_or_refused`).
-/
import GraphKeeper.Disk
import GraphKeeper.Proofs.Sequences

namespace GraphKeeper

/-- The last piece is empty only behind a separator, or when there is nothing to cut. -/
theorem getLast?_splitOn_eq_nil {α : Type} [BEq α] [LawfulBEq α] {a : α} {as : List α}
    (h : (as.splitOn a).getLast? = some []) : as = [] ∨ as.getLast? = some a := by
  by_cases ha : a ∈ as
  · obtain ⟨front, piece, has, _, hpiece⟩ := exists_last_piece ha
    obtain rfl : piece = [] := Option.some.inj (hpiece.symm.trans h)
    rw [has, List.getLast?_concat]
    exact Or.inr rfl
  · rw [List.splitOn_eq_singleton ha] at h
    cases h
    exact Or.inl rfl

namespace Disk

variable {d d' : Disk} {path : String} {directory l m : Location} {content : Bytes}

/-! ## Paths with a vacancy -/

/-- **A path with a vacancy** ends in a name that is no dot and has no slash behind it, and no
directory has this name. -/
theorem vacancy_eq_ok (h : d.vacancy path directory = .ok l) :
    ∃ name, (Path.steps path).getLast? = some name ∧ name ≠ "." ∧ name ≠ ".." ∧
      step directory name = .ok l ∧ Path.endsInSlash path = false ∧
      d.entry? l ≠ some .directory := by
  unfold vacancy at h
  split at h
  · nomatch h
  · obtain ⟨_, _, h⟩ := bind_eq_ok_iff.mp h
    nomatch h
  · nomatch h
  · rename_i name hdot hdots hname
    obtain ⟨l', hstep, h⟩ := bind_eq_ok_iff.mp h
    cases hslash : Path.endsInSlash path with
    | true =>
      rw [hslash] at h
      nomatch h
    | false =>
      rw [hslash] at h
      -- A directory of that name cannot be replaced by a file.
      by_cases hentry : d.entry? l' = some .directory
      · simp only [hentry] at h
        nomatch h
      · simp only [Bool.false_eq_true, if_false, if_neg hentry] at h
        cases h
        exact ⟨name, hname, hdot, hdots, hstep, rfl, hentry⟩

/-- A path with a vacancy names a file by its last name. -/
theorem names_of_steps {name : String} (h : (Path.steps path).getLast? = some name)
    (hdot : name ≠ ".") : (Path.names path).getLast? = some name :=
  getLast?_filter_of_pos h (decide_eq_true hdot)

/-- Such a path does not ask for a directory when it is read. -/
theorem asDirectory_eq_false {name : String} (h : (Path.steps path).getLast? = some name)
    (hdot : name ≠ ".") (hslash : Path.endsInSlash path = false) :
    Path.asDirectory path = false := by
  unfold Path.asDirectory
  split
  · rename_i last hlast
    rw [decide_eq_false_iff_not]
    rintro ⟨rfl | rfl, hpath⟩
    -- An empty last piece is a slash at the end; a dot would be the last step.
    · rw [Path.pieces, List.getLast?_map, Option.map_eq_some_iff] at hlast
      obtain ⟨cs, hcs, hempty⟩ := hlast
      rw [String.ofList_eq_empty_iff.mp hempty] at hcs
      rcases getLast?_splitOn_eq_nil hcs with hnil | hlast
      · exact hpath (String.toList_eq_nil_iff.mp hnil)
      · rw [Path.endsInSlash, hlast] at hslash
        nomatch hslash
    · have hstep : (Path.steps path).getLast? = some "." :=
        getLast?_filter_of_pos hlast (by decide)
      exact hdot (Option.some.inj (h.symm.trans hstep))
  · rfl

/-! ## A disk with a new file -/

/-- What is put somewhere is found there. -/
theorem entry?_put_self {e : DiskEntry} (h : d.entry? l ≠ some .directory) :
    entry? (d.put l e) l = some e := by
  have hl : ¬ (isAbove l = true ∨ l = ["/"]) := fun hl => h (if_pos hl)
  unfold entry?
  rw [if_neg hl, put, List.lookup_cons_self]

theorem lookup_filter_ne (hne : m ≠ l) (entries : List (Location × DiskEntry)) :
    (entries.filter (·.1 ≠ l)).lookup m = entries.lookup m := by
  induction entries with
  | nil => rfl
  | cons entry entries ih =>
    obtain ⟨place, e⟩ := entry
    by_cases hplace : place = l
    · have hbeq : (m == place) = false := beq_false_of_ne (hplace ▸ hne)
      rw [List.filter_cons_of_neg (by simpa using hplace), List.lookup_cons, hbeq, ih]
    · rw [List.filter_cons_of_pos (by simpa using hplace), List.lookup_cons, List.lookup_cons, ih]

/-- Everywhere else there is what there was. -/
theorem entry?_put_of_ne {e : DiskEntry} (hne : m ≠ l) : entry? (d.put l e) m = d.entry? m := by
  have hbeq : (m == l) = false := beq_false_of_ne hne
  have hlookup : (d.put l e).entries.lookup m = d.entries.lookup m := by
    rw [put, List.lookup_cons, hbeq]
    exact lookup_filter_ne hne d.entries
  unfold entry?
  rw [hlookup]

/-- A way through directories stays when a file is put where no directory is. -/
theorem walk_put {e : DiskEntry} (hl : d.entry? l ≠ some .directory) {names : List String} :
    ∀ {start stop : Location}, d.walk start names = .ok stop →
      (d.put l e).walk start names = .ok stop := by
  induction names with
  | nil => exact fun h => h
  | cons name names ih =>
    intro start stop h
    obtain ⟨next, hstep, h⟩ := bind_eq_ok_iff.mp h
    refine bind_eq_ok_iff.mpr ⟨next, hstep, ?_⟩
    cases hnext : d.entry? next with
    | none =>
      rw [hnext] at h
      nomatch h
    | some entry =>
      cases entry with
      | file content =>
        rw [hnext] at h
        nomatch h
      | directory =>
        rw [hnext] at h
        -- A station of the way is a directory, which is not where the file is put.
        have hne : next ≠ l := fun he => hl (he ▸ hnext)
        rw [entry?_put_of_ne hne, hnext]
        exact ih h

/-- So the directory of a path is still there. -/
theorem parent_put {e : DiskEntry} (hl : d.entry? l ≠ some .directory)
    (h : d.parent path = .ok directory) : (d.put l e).parent path = .ok directory := by
  obtain ⟨_, hcheck, hwalk⟩ := bind_eq_ok_iff.mp h
  exact bind_eq_ok_iff.mpr ⟨(), hcheck, walk_put hl hwalk⟩

/-! ## Replacing -/

/-- **To replace a file is to put it where the path has a vacancy**, if the disk takes files. -/
theorem replace_eq_ok (h : d.replace path content = .ok d') :
    d.fault = none ∧ ∃ directory l, d.parent path = .ok directory ∧
      d.vacancy path directory = .ok l ∧ d' = d.put l (.file content) := by
  obtain ⟨directory, hparent, h⟩ := bind_eq_ok_iff.mp h
  cases hfault : d.fault with
  | some fault =>
    rw [hfault] at h
    nomatch h
  | none =>
    rw [hfault] at h
    obtain ⟨l, hvacancy, h⟩ := bind_eq_ok_iff.mp h
    cases h
    exact ⟨rfl, directory, l, hparent, hvacancy, rfl⟩

theorem replace_of_vacancy (hfault : d.fault = none) (hparent : d.parent path = .ok directory)
    (hvacancy : d.vacancy path directory = .ok l) (content : Bytes) :
    d.replace path content = .ok (d.put l (.file content)) := by
  refine bind_eq_ok_iff.mpr ⟨directory, hparent, ?_⟩
  rw [hfault]
  exact bind_eq_ok_iff.mpr ⟨l, hvacancy, rfl⟩

/-- **A file that has been replaced has the new content.** -/
theorem read_of_replace (h : d.replace path content = .ok d') : d'.read path = .ok content := by
  obtain ⟨_, directory, l, hparent, hvacancy, rfl⟩ := replace_eq_ok h
  obtain ⟨name, hname, hdot, _, hstep, hslash, hentry⟩ := vacancy_eq_ok hvacancy
  -- Reading comes to the same place: down to the directory, and one step with the last name.
  have hlocate : (d.put l (.file content)).locate path = .ok l := by
    refine bind_eq_ok_iff.mpr ⟨directory, parent_put hentry hparent, ?_⟩
    rw [names_of_steps hname hdot]
    exact hstep
  refine bind_eq_ok_iff.mpr ⟨l, hlocate, ?_⟩
  rw [entry?_put_self hentry, asDirectory_eq_false hname hdot hslash]
  rfl

/-- The directory of a file is there when the file has been replaced. -/
theorem parent_of_replace (h : d.replace path content = .ok d') :
    ∃ directory, d'.parent path = .ok directory := by
  obtain ⟨_, directory, l, hparent, hvacancy, rfl⟩ := replace_eq_ok h
  obtain ⟨_, _, _, _, _, _, hentry⟩ := vacancy_eq_ok hvacancy
  exact ⟨directory, parent_put hentry hparent⟩

/-! ## Replacing again -/

/-- What was put somewhere before does not matter. -/
theorem put_put (d : Disk) (l : Location) (e e' : DiskEntry) :
    (d.put l e).put l e' = d.put l e' := by
  simp only [put, ne_eq, not_true_eq_false, decide_false, Bool.false_eq_true, not_false_iff,
    List.filter_cons_of_neg, List.filter_filter, Bool.and_self]

/-- A new file leaves its own place vacant. -/
theorem vacancy_put (h : d.vacancy path directory = .ok l) :
    (d.put l (.file content)).vacancy path directory = .ok l := by
  obtain ⟨_, _, _, _, _, hslash, hentry⟩ := vacancy_eq_ok h
  have hnew : entry? (d.put l (.file content)) l = some (.file content) := entry?_put_self hentry
  unfold vacancy at h ⊢
  split at h
  · nomatch h
  · obtain ⟨_, _, h⟩ := bind_eq_ok_iff.mp h
    nomatch h
  · nomatch h
  · obtain ⟨l', hstep, h⟩ := bind_eq_ok_iff.mp h
    refine bind_eq_ok_iff.mpr ⟨l', hstep, ?_⟩
    rw [hslash] at h ⊢
    by_cases hentry' : d.entry? l' = some .directory
    · simp only [hentry'] at h
      nomatch h
    · simp only [Bool.false_eq_true, if_false, if_neg hentry'] at h
      cases h
      simp only [Bool.false_eq_true, if_false, hnew]
      rfl

/-- **What a file was replaced with does not matter when it is replaced again.** -/
theorem replace_replace (h : d.replace path content = .ok d') (content' : Bytes) :
    d'.replace path content' = d.replace path content' := by
  obtain ⟨hfault, directory, l, hparent, hvacancy, rfl⟩ := replace_eq_ok h
  obtain ⟨_, _, _, _, _, _, hentry⟩ := vacancy_eq_ok hvacancy
  have hfault' : (d.put l (.file content)).fault = none := hfault
  rw [replace_of_vacancy hfault hparent hvacancy,
    replace_of_vacancy hfault' (parent_put hentry hparent) (vacancy_put hvacancy), put_put]

/-! ## Disks that take files -/

/-- The file of a path can be replaced, whatever its new content is. -/
def Writable (d : Disk) (path : String) : Prop :=
  ∀ content, ∃ d', d.replace path content = .ok d'

/-- Whether a file can be replaced, and if not why not, does not depend on its new content. -/
theorem writable_or_refused (d : Disk) (path : String) :
    d.Writable path ∨ ∃ fault, ∀ content, d.replace path content = .error fault := by
  -- The content is not looked at before everything else has been found in order.
  cases hparent : d.parent path with
  | error fault => exact Or.inr ⟨fault, fun _ => bind_eq_error_iff.mpr (Or.inl hparent)⟩
  | ok directory =>
    cases hfault : d.fault with
    | some fault =>
      refine Or.inr ⟨fault, fun _ => bind_eq_error_iff.mpr (Or.inr ⟨directory, hparent, ?_⟩)⟩
      rw [hfault]
      rfl
    | none =>
      cases hvacancy : d.vacancy path directory with
      | error fault =>
        refine Or.inr ⟨fault, fun _ => bind_eq_error_iff.mpr (Or.inr ⟨directory, hparent, ?_⟩)⟩
        rw [hfault]
        exact bind_eq_error_iff.mpr (Or.inl hvacancy)
      | ok l => exact Or.inl fun content => ⟨_, replace_of_vacancy hfault hparent hvacancy content⟩

/-- A file that has been replaced can be replaced again. -/
theorem Writable.replace (h : d.Writable path) (hreplace : d.replace path content = .ok d') :
    d'.Writable path := by
  intro content'
  rw [replace_replace hreplace content']
  exact h content'

/-- A disk that has taken a file takes another one in its place. -/
theorem writable_of_replace (h : d.replace path content = .ok d') : d'.Writable path := by
  rcases d.writable_or_refused path with hd | ⟨fault, hfault⟩
  · exact hd.replace h
  · nomatch (hfault content).symm.trans h

end Disk

end GraphKeeper

/-
  Replacing a file disturbs no file of another name.

  A file is put where no directory is, so all ways stay, and what is read elsewhere stays as it was
  (`Disk.read_put`).  The place that a path leads to has the last name of the path
  (`Disk.getLast?_of_locate`), so paths with different last names lead to different places, however
  they get there.

  Schema documents are the files of a directory whose names end in `.json`.  A file of another kind
  of name may come into the directory or go, but the documents in it are the same, and in the same
  order, since sorting and picking can change places (`filter_mergeSort`).  Hence the documents stay
  when a file is replaced that is none by its name (`Schema.readDirectory_of_replace`), and so do
  the settings (`Settings.readSettingsFile_of_replace`).
-/
import GraphKeeper.Proofs.Directories

namespace GraphKeeper

/-! ## Last names -/

namespace Path

variable {path name extension : String} {s : List Char}

/-- An extension is at the end of its name, behind a dot. -/
theorem suffix_of_extension? (h : extension? name = some extension) :
    '.' :: extension.toList <:+ name.toList := by
  -- The extension is what is behind the last dot, so the name is cut at its end.
  have hcut := List.takeWhile_append_dropWhile (p := (· ≠ '.')) (l := name.toList.reverse)
  have hstop := List.head?_dropWhile_not (· ≠ '.') name.toList.reverse
  simp only [extension?] at h
  generalize name.toList.reverse.takeWhile (· ≠ '.') = behind at h hcut
  split at h
  · rename_i hlong
    have hextension : extension.toList = behind.reverse := by
      rw [← Option.some.inj h, String.toList_ofList]
    cases hrest : name.toList.reverse.dropWhile (· ≠ '.') with
    | nil =>
      have hlength := congrArg List.length hcut
      rw [hrest, List.append_nil, List.length_reverse, String.length_toList] at hlength
      omega
    | cons c rest =>
      rw [hrest] at hcut hstop
      obtain rfl : c = '.' := by simpa using hstop
      refine ⟨rest.reverse, ?_⟩
      calc rest.reverse ++ '.' :: extension.toList
          = (behind ++ '.' :: rest).reverse := by simp [hextension]
        _ = name.toList := by rw [hcut, List.reverse_reverse]
  · nomatch h

/-- The path of a file ends as the name of the file does. -/
theorem suffix_join (h : s <:+ name.toList) (directory : String) :
    s <:+ (join directory name).toList := by
  unfold join
  split
  · exact h
  · split
    · rw [String.toList_append]
      exact h.trans (List.suffix_append _ _)
    · rw [String.toList_append]
      exact h.trans (List.suffix_append _ _)

/-- A path has what is at its end at the end of its last name, unless that may be dots. -/
theorem suffix_getLast?_names (h : s <:+ path.toList) (hs : '/' ∉ s) (hlong : 2 < s.length) :
    ∃ name, (names path).getLast? = some name ∧ s <:+ name.toList := by
  obtain ⟨piece, hpiece, hsuffix⟩ := suffix_getLast?_splitOn h hs
  have hpieces : (pieces path).getLast? = some (String.ofList piece) := by
    rw [pieces, List.getLast?_map, hpiece]
    rfl
  have hlength : 2 < (String.ofList piece).length := by
    rw [String.length_ofList]
    exact Nat.lt_of_lt_of_le hlong hsuffix.length_le
  -- A last piece that long is no dot and not empty, so it is a name.
  have hne : ∀ dots : String, dots.length ≤ 2 → String.ofList piece ≠ dots := by
    rintro dots hdots rfl
    omega
  refine ⟨String.ofList piece, ?_, by rwa [String.toList_ofList]⟩
  exact getLast?_filter_of_pos (getLast?_filter_of_pos hpieces
    (decide_eq_true (hne "" (by decide)))) (decide_eq_true (hne "." (by decide)))

end Path

/-! ## Reading elsewhere -/

namespace Disk

variable {d d' : Disk} {path name : String} {l m : Location} {e : DiskEntry} {content : Bytes}

/-- The place that a name leads to has that name. -/
theorem getLast?_of_step (h : step l name = .ok m) (hup : name ≠ "..") :
    m.getLast? = some name := by
  unfold step at h
  split at h
  · nomatch h
  · cases h
    rw [follow, if_pos hup, List.getLast?_concat]

/-- **A path leads to a place with the last name of the path.** -/
theorem getLast?_of_locate (h : d.locate path = .ok l)
    (hname : (Path.names path).getLast? = some name) (hup : name ≠ "..") :
    l.getLast? = some name := by
  obtain ⟨directory, _, h⟩ := bind_eq_ok_iff.mp h
  rw [hname] at h
  exact getLast?_of_step h hup

/-- A replaced file is put at a place that has the last name of the path. -/
theorem exists_put_of_replace (h : d.replace path content = .ok d') :
    ∃ l name, (Path.names path).getLast? = some name ∧ l.getLast? = some name ∧
      d.entry? l ≠ some .directory ∧ d' = d.put l (.file content) := by
  obtain ⟨_, directory, l, _, hvacancy, rfl⟩ := replace_eq_ok h
  obtain ⟨name, hname, hdot, hup, hstep, _, hentry⟩ := vacancy_eq_ok hvacancy
  exact ⟨l, name, names_of_steps hname hdot, getLast?_of_step hstep hup, hentry, rfl⟩

/-- The way to a place is the same when a file is put somewhere. -/
theorem locate_put (hl : d.entry? l ≠ some .directory) (h : d.locate path = .ok m) :
    (d.put l e).locate path = .ok m := by
  obtain ⟨directory, hparent, h⟩ := bind_eq_ok_iff.mp h
  exact bind_eq_ok_iff.mpr ⟨directory, parent_put hl hparent, h⟩

/-- **What is read elsewhere stays.** -/
theorem read_put (hl : d.entry? l ≠ some .directory) (h : d.locate path = .ok m) (hne : m ≠ l) :
    (d.put l e).read path = d.read path := by
  simp only [read, h, locate_put hl h, bind, Except.bind, entry?_put_of_ne hne]

/-- A directory stays one. -/
theorem isDirectory_put (hl : d.entry? l ≠ some .directory) (h : d.isDirectory path = true) :
    (d.put l e).isDirectory path = true := by
  obtain ⟨m, hlocate, hentry⟩ := isDirectory_iff.mp h
  -- The file is no document by its name, so the documents are at other places.
  have hne : m ≠ l := fun he => hl (he ▸ hentry)
  exact isDirectory_iff.mpr
    ⟨m, locate_put hl hlocate, (entry?_put_of_ne hne).trans hentry⟩

/-- What is not read off the entries of a place does not change when one is put there. -/
theorem filterMap_entries_put {α : Type} {f : Location × DiskEntry → Option α}
    (hf : ∀ e, f (l, e) = none) (e : DiskEntry) :
    (d.put l e).entries.filterMap f = d.entries.filterMap f := by
  rw [put, List.filterMap_cons_none (hf e), List.filterMap_filter]
  refine List.filterMap_congr fun entry _ => ?_
  by_cases hplace : entry.1 = l
  · obtain ⟨place, e'⟩ := entry
    obtain rfl : place = l := hplace
    simp [hf]
  · simp [hplace]

/-- The files of a directory stay, but for those of the name at which a file is put. -/
theorem fileNames_put (hl : d.entry? l ≠ some .directory) {p : String → Bool}
    (hp : ∀ name, l.getLast? = some name → p name = false) {names : List String}
    (h : d.fileNames path = .ok names) :
    ∃ names', (d.put l e).fileNames path = .ok names' ∧ names'.filter p = names.filter p := by
  obtain ⟨m, hlocate, h⟩ := bind_eq_ok_iff.mp h
  cases h
  refine ⟨_, bind_eq_ok_iff.mpr ⟨m, locate_put hl hlocate, rfl⟩, ?_⟩
  -- Sorting goes by the names alone, so it may be done after the picking, which leaves out the one
  -- name that is new.
  have hsort : ∀ as : List String,
      (as.mergeSort (· ≤ ·)).filter p = (as.filter p).mergeSort (· ≤ ·) :=
    filter_mergeSort p (by simpa using fun _ _ _ => String.le_trans)
      (by simpa using String.le_total) (by simpa using fun _ _ => String.le_antisymm)
  rw [hsort, hsort, List.filter_filterMap, List.filter_filterMap, filterMap_entries_put]
  intro e
  cases e with
  | directory => rfl
  | file content =>
    cases hlast : l.getLast? with
    | none =>
      simp only [hlast]
      rfl
    | some name =>
      simp only [hlast]
      split
      · exact Option.filter_some_neg (hp name hlast)
      · rfl

end Disk

/-! ## Files that a program is set up from -/

section Documents

open Schema

variable {d d' : Disk} {path directory name : String} {content : Bytes} {docs : List Document}

/-- A document is told by the content of its file. -/
theorem Schema.readDocument_of_read (h : d'.read path = d.read path) :
    readDocument d' path = readDocument d path := by
  rw [readDocument, readDocument, Disk.readText, Disk.readText, h]

/-- A document is read at a place whose name ends in `.json`. -/
theorem Schema.suffix_of_readDocument {file : String} {doc : Document}
    (hfile : Path.extension? file = some "json")
    (h : readDocument d (Path.join directory file) = .ok doc) :
    ∃ m last, d.locate (Path.join directory file) = .ok m ∧ m.getLast? = some last ∧
      ".json".toList <:+ last.toList := by
  have hsuffix : ".json".toList <:+ (Path.join directory file).toList :=
    Path.suffix_join (Path.suffix_of_extension? hfile) directory
  obtain ⟨last, hlast, hlong⟩ := Path.suffix_getLast?_names hsuffix (by decide) (by decide)
  have hup : last ≠ ".." := by
    rintro rfl
    exact absurd hlong (by decide)
  obtain ⟨_, htext, _⟩ := readDocument_eq_ok_iff.mp h
  obtain ⟨_, hread, _⟩ := bind_eq_ok_iff.mp htext
  obtain ⟨m, hlocate, _⟩ := bind_eq_ok_iff.mp hread
  exact ⟨m, last, hlocate, Disk.getLast?_of_locate hlocate hlast hup, hlong⟩

/-- **The documents stay when a file is replaced that is none by its name.** -/
theorem Schema.readDirectory_of_replace (hname : (Path.names path).getLast? = some name)
    (hjson : ¬ ".json".toList <:+ name.toList) (hreplace : d.replace path content = .ok d')
    (h : readDirectory d directory = .ok docs) : readDirectory d' directory = .ok docs := by
  obtain ⟨l, last, hlast, hl, hentry, rfl⟩ := Disk.exists_put_of_replace hreplace
  obtain rfl : last = name := Option.some.inj (hlast.symm.trans hname)
  obtain ⟨hdirectory, files, hfiles, hdocs⟩ := readDirectory_eq_ok_iff.mp h
  have hextension : ∀ file, l.getLast? = some file →
      (Path.extension? file == some "json") = false := by
    intro file hfile
    obtain rfl : last = file := Option.some.inj (hl.symm.trans hfile)
    exact beq_false_of_ne fun hfile => hjson (Path.suffix_of_extension? hfile)
  obtain ⟨files', hfiles', hfilter⟩ :=
    Disk.fileNames_put (e := .file content) hentry hextension hfiles
  refine readDirectory_eq_ok_iff.mpr
    ⟨Disk.isDirectory_put hentry hdirectory, files', hfiles', ?_⟩
  have hmem : ∀ file ∈ files.filter fun file => Path.extension? file == some "json",
      Path.extension? file = some "json" := fun file hfile =>
    beq_iff_eq.mp (List.mem_filter.mp hfile).2
  have hdocs := (List.forall₂_and_left _ _).mpr ⟨hmem, hdocs⟩
  rw [hfilter]
  refine hdocs.imp fun file doc hdoc => ?_
  obtain ⟨hfile, hdoc⟩ := hdoc
  obtain ⟨m, last', hlocate, hm, hsuffix⟩ := suffix_of_readDocument hfile hdoc
  have hne : m ≠ l := by
    rintro rfl
    exact hjson (Option.some.inj (hm.symm.trans hl) ▸ hsuffix)
  rw [readDocument_of_read (Disk.read_put hentry hlocate hne), hdoc]

end Documents

/-- **The settings stay when a file is replaced that holds none by its name.** -/
theorem Settings.readSettingsFile_of_replace {d d' : Disk} {path settingsPath name : String}
    {content : Bytes} (hname : (Path.names path).getLast? = some name)
    (hsources : ∀ p ∈ sources settingsPath, ∃ m, d.locate p = .ok m ∧ m.getLast? ≠ some name)
    (hreplace : d.replace path content = .ok d') :
    readSettingsFile d' settingsPath = readSettingsFile d settingsPath := by
  obtain ⟨l, last, hlast, hl, hentry, rfl⟩ := Disk.exists_put_of_replace hreplace
  obtain rfl : last = name := Option.some.inj (hlast.symm.trans hname)
  refine readSettingsFile_congr fun p hp => ?_
  obtain ⟨m, hlocate, hm⟩ := hsources p hp
  rw [Disk.read_put hentry hlocate fun hml => hm (hml ▸ hl)]

end GraphKeeper

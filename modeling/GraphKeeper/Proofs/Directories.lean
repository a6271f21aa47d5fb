/-
  Making directories disturbs no file.

  Opening a store makes the directories of its file.  That puts directories where nothing was and
  does nothing else (`Disk.Grown`), so every way that led somewhere still does, every file is read
  as before, and a directory lists the same files.  Hence the same catalog is set up from a grown
  disk (`Catalog.setUp_grown`), and the same settings are found there, whose files are looked up in
  the working directory (`Settings.readSettingsFile_grown`).

  Once the directories of a path are there, making them again does nothing
  (`Disk.makeParent_of_parent`), so a store can be opened again and again (`Store.openAt_again`).
-/
import GraphKeeper.Proofs.Catalogs
import GraphKeeper.Proofs.DiskFiles
import GraphKeeper.Proofs.StoreRuns
import GraphKeeper.Settings

namespace GraphKeeper

namespace Disk

variable {d d' d'' : Disk} {path : String} {l m : Location} {content : Bytes} {names : List String}

/-! ## Grown disks -/

/-- The second disk is the first one with directories made where nothing was. -/
inductive Grown (d : Disk) : Disk → Prop
  | refl : Grown d d
  | made {d' : Disk} {l : Location} (h : Grown d d') (hl : d'.entry? l = none) :
    Grown d (d'.put l .directory)

/-- Growing goes on. -/
theorem Grown.trans (h : Grown d d') (h' : Grown d' d'') : Grown d d'' := by
  induction h' with
  | refl => exact h
  | made _ hl ih => exact ih.made hl

/-- A directory that is put where nothing was changes the entry of no other location. -/
theorem entry?_put_directory (h : d.entry? l = none) (m : Location) :
    entry? (d.put l .directory) m = d.entry? m ∨
      d.entry? m = none ∧ entry? (d.put l .directory) m = some .directory := by
  by_cases hm : m = l
  · subst hm
    exact Or.inr ⟨h, entry?_put_self (by rw [h]; exact nofun)⟩
  · exact Or.inl (entry?_put_of_ne hm)

/-- A location keeps its entry, or is a new directory. -/
theorem Grown.entry? (h : Grown d d') (l : Location) :
    d'.entry? l = d.entry? l ∨ d.entry? l = none ∧ d'.entry? l = some .directory := by
  induction h with
  | refl => exact Or.inl rfl
  | made _ hm ih =>
    rcases entry?_put_directory hm l with hsame | ⟨hnone, hnew⟩
    · rcases ih with ih | ⟨hd, hd'⟩
      · exact Or.inl (hsame.trans ih)
      · exact Or.inr ⟨hd, hsame.trans hd'⟩
    · rcases ih with ih | ⟨hd, hd'⟩
      · exact Or.inr ⟨ih.symm.trans hnone, hnew⟩
      · exact Or.inr ⟨hd, hnew⟩

/-- What is there stays. -/
theorem Grown.entry?_eq_some (h : Grown d d') {e : DiskEntry} (hl : d.entry? l = some e) :
    d'.entry? l = some e := by
  rcases h.entry? l with hsame | ⟨hnone, _⟩
  · exact hsame.trans hl
  · nomatch hnone.symm.trans hl

/-- **A grown disk has the same files.** -/
theorem Grown.entry?_file_iff (h : Grown d d') :
    d'.entry? l = some (.file content) ↔ d.entry? l = some (.file content) := by
  rcases h.entry? l with hsame | ⟨hnone, hnew⟩
  · rw [hsame]
  · rw [hnone, hnew]
    exact ⟨(nomatch ·), (nomatch ·)⟩

/-- What is read off the files of a disk, in the order of its entries, stays. -/
theorem Grown.filterMap_entries {α : Type} (h : Grown d d')
    {f : Location × DiskEntry → Option α} (hf : ∀ l, f (l, .directory) = none) :
    d'.entries.filterMap f = d.entries.filterMap f := by
  induction h with
  | refl => rfl
  | @made d' l _ hl ih =>
    -- Nothing was there, so no entry makes way; the new one is a directory and in front.
    have hkeep : d'.entries.filter (·.1 ≠ l) = d'.entries := by
      refine List.filter_eq_self.mpr fun entry hentry => ?_
      have hlookup : d'.entries.lookup l = none := by
        unfold Disk.entry? at hl
        split at hl
        · nomatch hl
        · exact hl
      have hne := List.lookup_eq_none_iff.mp hlookup entry hentry
      exact decide_eq_true (Ne.symm (bne_iff_ne.mp hne))
    rw [put, hkeep, List.filterMap_cons_none (hf l), ih]

/-! ## Making directories -/

/-- A way that led somewhere still does, and to the same place. -/
theorem Grown.walk (h : Grown d d') (hwalk : d.walk l names = .ok m) :
    d'.walk l names = .ok m := by
  induction names generalizing l with
  | nil => exact hwalk
  | cons name names ih =>
    obtain ⟨next, hstep, hwalk⟩ := bind_eq_ok_iff.mp hwalk
    refine bind_eq_ok_iff.mpr ⟨next, hstep, ?_⟩
    -- The way goes through directories, which are all still there.
    cases hnext : d.entry? next with
    | none =>
      rw [hnext] at hwalk
      nomatch hwalk
    | some e =>
      rw [hnext] at hwalk
      rw [h.entry?_eq_some hnext]
      cases e with
      | file content => nomatch hwalk
      | directory => exact ih hwalk

/-- Making a way grows the disk, and then the way is there. -/
theorem makeWay_eq_ok (h : d.makeWay l names = .ok d') :
    Grown d d' ∧ ∃ m, d'.walk l names = .ok m := by
  induction names generalizing d l with
  | nil =>
    cases h
    exact ⟨.refl, l, rfl⟩
  | cons name names ih =>
    obtain ⟨next, hstep, h⟩ := bind_eq_ok_iff.mp h
    -- The way goes on behind the first name, from a directory that is there by now.
    have hwalk : ∀ {e}, d'.entry? next = some .directory → d'.walk next names = .ok e →
        ∃ m, d'.walk l (name :: names) = .ok m := by
      intro e hnext hrest
      refine ⟨e, bind_eq_ok_iff.mpr ⟨next, hstep, ?_⟩⟩
      rw [hnext]
      exact hrest
    cases hnext : d.entry? next with
    | none =>
      rw [hnext] at h
      obtain ⟨hgrown, _, hrest⟩ := ih h
      have hself : entry? (d.put next .directory) next = some .directory :=
        entry?_put_self (by rw [hnext]; exact nofun)
      exact ⟨(Grown.refl.made hnext).trans hgrown, hwalk (hgrown.entry?_eq_some hself) hrest⟩
    | some e =>
      rw [hnext] at h
      cases e with
      | file content => nomatch h
      | directory =>
        obtain ⟨hgrown, _, hrest⟩ := ih h
        exact ⟨hgrown, hwalk (hgrown.entry?_eq_some hnext) hrest⟩

/-- Where a way is there, nothing is made. -/
theorem makeWay_of_walk (h : d.walk l names = .ok m) : d.makeWay l names = .ok d := by
  induction names generalizing l with
  | nil => rfl
  | cons name names ih =>
    obtain ⟨next, hstep, h⟩ := bind_eq_ok_iff.mp h
    refine bind_eq_ok_iff.mpr ⟨next, hstep, ?_⟩
    cases hnext : d.entry? next with
    | none =>
      rw [hnext] at h
      nomatch h
    | some e =>
      rw [hnext] at h
      cases e with
      | file content => nomatch h
      | directory => exact ih h

/-- Making the directories of a path is making the way to them. -/
theorem makeParent_eq_ok (h : d.makeParent path = .ok d') :
    Grown d d' ∧ ∃ directory, d'.parent path = .ok directory := by
  obtain ⟨_, hcheck, h⟩ := bind_eq_ok_iff.mp h
  obtain ⟨hgrown, directory, hwalk⟩ := makeWay_eq_ok h
  exact ⟨hgrown, directory, bind_eq_ok_iff.mpr ⟨(), hcheck, hwalk⟩⟩

/-- Where they are there, nothing is made. -/
theorem makeParent_of_parent {directory : Location} (h : d.parent path = .ok directory) :
    d.makeParent path = .ok d := by
  obtain ⟨_, hcheck, hwalk⟩ := bind_eq_ok_iff.mp h
  exact bind_eq_ok_iff.mpr ⟨(), hcheck, makeWay_of_walk hwalk⟩

/-! ## Looking up on a grown disk -/

/-- A path that led to a location still does. -/
theorem Grown.locate (h : Grown d d') (hlocate : d.locate path = .ok l) :
    d'.locate path = .ok l := by
  obtain ⟨directory, hparent, hlocate⟩ := bind_eq_ok_iff.mp hlocate
  obtain ⟨_, hcheck, hwalk⟩ := bind_eq_ok_iff.mp hparent
  have hparent' : d'.parent path = .ok directory :=
    bind_eq_ok_iff.mpr ⟨(), hcheck, h.walk hwalk⟩
  exact bind_eq_ok_iff.mpr ⟨directory, hparent', hlocate⟩

/-- A file is read as before. -/
theorem Grown.read (h : Grown d d') (hread : d.read path = .ok content) :
    d'.read path = .ok content := by
  obtain ⟨l, hlocate, hread⟩ := bind_eq_ok_iff.mp hread
  refine bind_eq_ok_iff.mpr ⟨l, h.locate hlocate, ?_⟩
  cases hentry : d.entry? l with
  | none =>
    rw [hentry] at hread
    nomatch hread
  | some e =>
    rw [h.entry?_eq_some hentry]
    rw [hentry] at hread
    exact hread

/-- A path that leads to a place is read as before, be it that nothing can be read there. -/
theorem Grown.toOption_read (h : Grown d d') (hlocate : d.locate path = .ok l) :
    (d'.read path).toOption = (d.read path).toOption := by
  simp only [Disk.read, hlocate, h.locate hlocate, bind, Except.bind]
  rcases h.entry? l with hsame | ⟨hnone, hnew⟩
  · rw [hsame]
  · rw [hnone, hnew]
    rfl

/-- So is its text. -/
theorem Grown.readText {s : String} (h : Grown d d') (hread : d.readText path = .ok s) :
    d'.readText path = .ok s := by
  obtain ⟨content, hread, htext⟩ := bind_eq_ok_iff.mp hread
  exact bind_eq_ok_iff.mpr ⟨content, h.read hread, htext⟩

/-- A path is that of a directory if it leads to one. -/
theorem isDirectory_iff :
    d.isDirectory path = true ↔ ∃ l, d.locate path = .ok l ∧ d.entry? l = some .directory := by
  unfold Disk.isDirectory
  cases d.locate path with
  | error fault =>
    constructor
    · intro h
      cases h
    · rintro ⟨_, h, _⟩
      cases h
  | ok l =>
    rw [decide_eq_true_iff]
    constructor
    · exact fun h => ⟨l, rfl, h⟩
    · rintro ⟨_, hl, h⟩
      cases hl
      exact h

/-- A directory is still one. -/
theorem Grown.isDirectory (h : Grown d d') (hdirectory : d.isDirectory path = true) :
    d'.isDirectory path = true := by
  obtain ⟨l, hlocate, hentry⟩ := isDirectory_iff.mp hdirectory
  exact isDirectory_iff.mpr ⟨l, h.locate hlocate, h.entry?_eq_some hentry⟩

/-- **A directory lists the same files**, in the same order. -/
theorem Grown.fileNames (h : Grown d d') (hnames : d.fileNames path = .ok names) :
    d'.fileNames path = .ok names := by
  obtain ⟨l, hlocate, hnames⟩ := bind_eq_ok_iff.mp hnames
  refine bind_eq_ok_iff.mpr ⟨l, h.locate hlocate, ?_⟩
  rw [h.filterMap_entries fun _ => rfl]
  exact hnames

end Disk

/-! ## Catalogs -/

section Catalogs

open Schema

variable {d d' : Disk} {directory : String} {docs : List Document} {c : Catalog}

/-- A document is what the text of its file is decoded to. -/
theorem Schema.readDocument_eq_ok_iff {path : String} {doc : Document} :
    readDocument d path = .ok doc ↔ ∃ s, d.readText path = .ok s ∧
      Json.decodeText Document.decoder s = .ok doc := by
  unfold readDocument
  cases d.readText path with
  | error fault =>
    constructor
    · intro h
      cases h
    · rintro ⟨_, h, _⟩
      cases h
  | ok s =>
    constructor
    · exact fun h => ⟨s, rfl, mapError_eq_ok_iff.mp h⟩
    · rintro ⟨_, hs, h⟩
      cases hs
      exact mapError_eq_ok_iff.mpr h

/-- The documents are those of the files with the extension, in the order of their names. -/
theorem Schema.readDirectory_eq_ok_iff :
    readDirectory d directory = .ok docs ↔ d.isDirectory directory = true ∧
      ∃ files, d.fileNames directory = .ok files ∧
        List.Forall₂ (fun file doc => readDocument d (Path.join directory file) = .ok doc)
          (files.filter fun file => Path.extension? file == some "json") docs := by
  unfold readDirectory
  cases d.isDirectory directory with
  | false =>
    constructor
    · intro h
      cases h
    · rintro ⟨h, _⟩
      cases h
  | true =>
    cases d.fileNames directory with
    | error fault =>
      constructor
      · intro h
        cases h
      · rintro ⟨_, _, h, _⟩
        cases h
    | ok files =>
      constructor
      · exact fun h => ⟨rfl, files, rfl, mapM_eq_ok_iff.mp h⟩
      · rintro ⟨_, _, hfiles, h⟩
        cases hfiles
        exact mapM_eq_ok_iff.mpr h

/-- A document is read from a grown disk as before. -/
theorem Schema.readDocument_grown (h : Disk.Grown d d') {path : String} {doc : Document}
    (hread : readDocument d path = .ok doc) : readDocument d' path = .ok doc := by
  obtain ⟨s, htext, hdecode⟩ := readDocument_eq_ok_iff.mp hread
  exact readDocument_eq_ok_iff.mpr ⟨s, h.readText htext, hdecode⟩

/-- So is a directory of documents. -/
theorem Schema.readDirectory_grown (h : Disk.Grown d d')
    (hread : readDirectory d directory = .ok docs) : readDirectory d' directory = .ok docs := by
  obtain ⟨hdirectory, files, hfiles, hdocs⟩ := readDirectory_eq_ok_iff.mp hread
  exact readDirectory_eq_ok_iff.mpr ⟨h.isDirectory hdirectory, files, h.fileNames hfiles,
    hdocs.imp fun _ _ hdoc => readDocument_grown h hdoc⟩

/-- Setting a catalog up depends on the documents only. -/
theorem Catalog.setUp_congr (h : readDirectory d' directory = readDirectory d directory) :
    (new directory).setUp d' = (new directory).setUp d := by
  show (Tool.ofDirectory d' directory).map _ = (Tool.ofDirectory d directory).map _
  rw [Tool.ofDirectory, Tool.ofDirectory, h]

/-- **The same catalog is set up from a grown disk.** -/
theorem Catalog.setUp_grown (h : Disk.Grown d d') (hsetUp : (new directory).setUp d = .ok c) :
    (new directory).setUp d' = .ok c := by
  obtain ⟨_, htools, _⟩ := setUp_new_eq_ok_iff.mp hsetUp
  obtain ⟨docs, _, hdocs, _, _⟩ := Tool.ofDirectory_eq_ok htools
  rw [setUp_congr ((readDirectory_grown h hdocs).trans hdocs.symm), hsetUp]

end Catalogs

/-! ## Settings -/

/-- The text of a file is the text of its bytes, if they are one. -/
theorem Disk.toOption_readText (d : Disk) (path : String) : (d.readText path).toOption =
    (d.read path).toOption.bind fun content => (Text.Utf8.decode content).toOption := by
  unfold Disk.readText
  cases d.read path with
  | error fault => rfl
  | ok content =>
    simp only [bind, Except.bind, Except.toOption, Option.bind_some]
    cases Text.Utf8.decode content with
    | ok s => rfl
    | error fault => rfl

namespace Settings

variable {d d' : Disk} {path : String}

/-- The paths where the settings of a path are looked for. -/
def sources (path : String) : List String := path :: Format.all.filterMap (withExtension? path)

/-- Whatever files there are, only these paths are tried. -/
theorem mem_sources_of_mem_candidates {candidate : String × Format}
    (h : candidate ∈ candidates d path) : candidate.1 ∈ sources path := by
  unfold candidates at h
  split at h
  · obtain ⟨_, _, rfl⟩ := List.mem_map.mp h
    exact List.mem_cons_self
  · obtain ⟨format, hformat, h⟩ := List.mem_filterMap.mp h
    obtain ⟨extended, hextended, rfl⟩ := Option.map_eq_some_iff.mp h
    exact List.mem_cons_of_mem _ (List.mem_filterMap.mpr ⟨format, hformat, hextended⟩)

/-- The settings depend on nothing but what is read at these paths. -/
theorem readSettingsFile_congr
    (h : ∀ p ∈ sources path, (d'.read p).toOption = (d.read p).toOption) :
    readSettingsFile d' path = readSettingsFile d path := by
  -- Which of the paths is a file, and what it holds, are both told by reading it.
  have hfile : ∀ p ∈ sources path, d'.isFile p = d.isFile p := fun p hp =>
    congrArg Option.isSome (h p hp)
  have hcandidates : candidates d' path = candidates d path := by
    rw [candidates, candidates, hfile path List.mem_cons_self]
  have hfind : (candidates d path).find? (fun c => d'.isFile c.1) =
      (candidates d path).find? fun c => d.isFile c.1 := by
    rw [← List.head?_filter, ← List.head?_filter]
    exact congrArg List.head? (List.filter_congr fun c hc =>
      hfile c.1 (mem_sources_of_mem_candidates hc))
  have htext : settingsText? d' path = settingsText? d path := by
    unfold settingsText?
    rw [hcandidates]
    show ((candidates d path).find? (fun c => d'.isFile c.1) >>= _) =
      ((candidates d path).find? (fun c => d.isFile c.1) >>= _)
    rw [hfind]
    cases hfound : (candidates d path).find? fun c => d.isFile c.1 with
    | none => rfl
    | some c =>
      have hc := h c.1 (mem_sources_of_mem_candidates (List.mem_of_find?_eq_some hfound))
      show ((d'.readText c.1).toOption >>= _) = ((d.readText c.1).toOption >>= _)
      rw [Disk.toOption_readText, Disk.toOption_readText, hc]
  rw [readSettingsFile, readSettingsFile, htext]

/-- The settings are those of their file, with what the environment says on top. -/
theorem load_congr {env : Environment} (h : readSettingsFile d' path = readSettingsFile d path) :
    load d' env path = load d env path := by
  rw [load, load, h]

/-- **The same settings are found on a grown disk**, when the paths they are looked for at lead
somewhere. -/
theorem readSettingsFile_grown (h : Disk.Grown d d')
    (hpath : ∀ p ∈ sources path, ∃ l, d.locate p = .ok l) :
    readSettingsFile d' path = readSettingsFile d path :=
  readSettingsFile_congr fun p hp => by
    obtain ⟨l, hlocate⟩ := hpath p hp
    exact h.toOption_read hlocate

end Settings

/-! ## Opening again -/

namespace Store

variable {d d' : Disk} {path : String} {s : Store}

/-- Opening a store makes directories, and then the directory of its file is there. -/
theorem openAt_grown (h : openAt d path = (.ok s, d')) :
    Disk.Grown d d' ∧ ∃ directory, d'.parent path = .ok directory := by
  unfold openAt at h
  split at h
  · nomatch h
  · rename_i made hmade
    obtain rfl : made = d' := congrArg Prod.snd h
    exact Disk.makeParent_eq_ok hmade

/-- **A store can be opened again** where the directory of its file is there, and the disk stays as
it is. -/
theorem openAt_again {directory : Location} (hparent : d.parent path = .ok directory)
    {g : Graph} (hload : load d path = .ok g) : openAt d path = (.ok ⟨path, g⟩, d) := by
  rw [openAt, Disk.makeParent_of_parent hparent]
  show ((load d path).map _, d) = _
  rw [hload]
  rfl

end Store

end GraphKeeper

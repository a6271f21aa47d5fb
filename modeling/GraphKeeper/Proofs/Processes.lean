/-
  One session does what one process for each request does.

  A process that calls a tool opens the store, makes the call and ends, so all that it knows of the
  calls before it is on the disk.  That is enough: the file holds the graph in memory all the time
  (`Store.load_change`), and apart from the file the disk is as it was when the store was opened.
  `Kept` says both of a session that goes on, and is what one call preserves (`Kept.dispatch`).  So
  a process that starts on the disk of the session opens the session itself (`Kept.openAt`), and
  the two run side by side by induction on the calls (`Ready.runEach_eq`).

  What a process needs besides is the same tools as the processes before it.  Those come from the
  settings and the schema documents, which are not to change when the file is replaced (`Steady`);
  it is enough that the file has a name that none of them has (`SetsUp.steady`).

  A call is given to a process as words and to a session as a line.  The words are read as they are
  meant, since neither the name of a tool nor the text of an object begins with a dash.  A session
  may be given any lines that are read as the calls (`Feeds`); `inputOf` is one such input.  The
  main theorem is `serve_eq_runEach`.
-/
import GraphKeeper.Proofs.CallLines
import GraphKeeper.Proofs.OtherFiles
import GraphKeeper.Proofs.ServedLines
import GraphKeeper.Proofs.SessionCalls

namespace GraphKeeper

open Tool

/-! ## A session that goes on -/

namespace Session

variable {path : String} {catalog : Catalog} {d₁ : Disk} {s : Session}

/-- What holds of a session all along that was opened on the disk `d₁`: its tools are the same,
the file holds its graph, and apart from the file the disk is the same. -/
structure Kept (path : String) (catalog : Catalog) (d₁ : Disk) (s : Session) : Prop where
  tools : s.catalog = catalog
  file : s.store.path = path
  loads : Store.load s.disk path = .ok s.store.graph
  elsewhere : s.disk = d₁ ∨ ∃ content, d₁.replace path content = .ok s.disk

namespace Kept

/-- What the file is replaced with does not depend on what it was replaced with before. -/
theorem replace (h : Kept path catalog d₁ s) (content : Bytes) :
    s.disk.replace path content = d₁.replace path content := by
  rcases h.elsewhere with hd | ⟨_, hd⟩
  · rw [hd]
  · exact Disk.replace_replace hd content

/-- A change either leaves the disk as it is or replaces the file once more. -/
theorem change (h : Kept path catalog d₁ s) (c : Change) :
    Kept path catalog d₁
      ⟨s.catalog, (s.store.change s.disk c).2.1, (s.store.change s.disk c).2.2⟩ where
  tools := h.tools
  file := (Store.change_path _ _ c).trans h.file
  loads := Store.load_change h.file h.loads c
  elsewhere := by
    rcases s.store.change_disk s.disk c with hsame | ⟨content, hreplace⟩
    · exact hsame.symm ▸ h.elsewhere
    · rw [h.file, h.replace] at hreplace
      exact Or.inr ⟨content, hreplace⟩

/-- **A call preserves what is known of a session.** -/
theorem dispatch (h : Kept path catalog d₁ s) (c : Call) :
    Kept path catalog d₁ (s.dispatch c).2 := by
  rcases s.dispatch_cases c with hsame | ⟨change, _, hchange⟩
  · exact hsame.symm ▸ h
  · exact hchange.symm ▸ h.change change

/-- **A session that is opened where this one has come to is this one.** -/
theorem openAt (h : Kept path catalog d₁ s) {directory : Location}
    (hparent : d₁.parent path = .ok directory) :
    Store.openAt s.disk path = (.ok s.store, s.disk) := by
  have hdirectory : ∃ directory, s.disk.parent path = .ok directory := by
    rcases h.elsewhere with hd | ⟨_, hd⟩
    · exact ⟨directory, hd ▸ hparent⟩
    · exact Disk.parent_of_replace hd
  obtain ⟨_, hdirectory⟩ := hdirectory
  rw [Store.openAt_again hdirectory h.loads, ← h.file]

end Kept

end Session

/-! ## Texts that do not begin with a dash -/

/-- The name of a tool begins with a letter. -/
theorem Tool.head?_name (t : Tool) : t.name.toList.head? ≠ some '-' := by
  cases t with
  | graph t => cases t <;> decide
  | entity t =>
    obtain ⟨verb, type⟩ := t
    show (verb.word ++ "_" ++ type.kind).toList.head? ≠ some '-'
    rw [String.toList_append, String.toList_append, List.append_assoc]
    cases verb <;> exact nofun

namespace Json

variable {members : Members}

/-- What begins as a number is no object. -/
theorem toJson_number_ne_obj (found : Except Break (Numeral × List Char)) :
    (leaf found numberOutline).1.toJson ≠ .ok (.obj members) := by
  cases found with
  | error why => exact nofun
  | ok found =>
    show (numberOutline found.1).toJson ≠ _
    unfold numberOutline
    split <;> exact nofun

/-- The text of an object does not begin with a dash. -/
theorem head?_of_parse {s : String} (h : parse s = .ok (.obj members)) :
    s.toList.head? ≠ some '-' := by
  intro hhead
  obtain ⟨cs, hs⟩ := List.head?_eq_some_iff.mp hhead
  obtain ⟨v, hv, h⟩ := bind_eq_ok_iff.mp h
  have hobject : v = .obj members := by
    split at h
    · exact Except.ok.inj h
    · nomatch h
  -- A value that begins with a dash is read as a number, or as nothing.
  have hread : readValue (fuelFor s.toList) 0 s.toList =
      leaf (readNumeral true cs) numberOutline := by
    rw [hs]
    exact readValue_minus
  rw [hobject, hread] at hv
  exact toJson_number_ne_obj _ hv

end Json

namespace CommandLine

/-! ## Words -/

/-- A word that does not begin with a dash is neither an option nor a bundle of flags. -/
theorem Word.of_eq_plain {place : Place} {s : String} (h : s.toList.head? ≠ some '-') :
    Word.of place s = .plain := by
  unfold Word.of
  split
  · rename_i hs
    exact absurd (congrArg List.head? hs) h
  · rename_i hs
    exact absurd (congrArg List.head? hs) h
  · rename_i hs
    exact absurd (congrArg List.head? hs) h
  · rfl

theorem parse_serve :
    Invocation.parse ["serve"] = .ok ⟨.serve, defaultSettingsPath, none, none⟩ := by
  rfl

/-- The words of a call are read as they are meant. -/
theorem parse_call {tool arguments : String} (htool : tool.toList.head? ≠ some '-')
    (harguments : arguments.toList.head? ≠ some '-') :
    Invocation.parse ["call", tool, "--args", arguments] =
      .ok ⟨.call tool arguments, defaultSettingsPath, none, none⟩ := by
  have hfront : readWords .front {} none false ["call", tool, "--args", arguments] =
      .ok ({}, some (.call, [tool, "--args", arguments])) := rfl
  have hinner : readWords .call {} none false [tool, "--args", arguments] =
      .ok (⟨[(.arguments, arguments)], some tool⟩, none) := by
    have hoption : Word.of .call "--args" = .opened .arguments := by decide
    simp only [readWords, Word.of_eq_plain htool, Word.of_eq_plain harguments, hoption]
    rfl
  simp only [Invocation.parse, hfront, hinner, bind, Except.bind]
  rfl

/-! ## Calls as they are written -/

/-- A call of a tool as it is written: the name of the tool, and the text of the arguments. -/
structure WrittenCall where
  tool : String
  arguments : String
deriving DecidableEq, Repr

namespace WrittenCall

/-- The words of a process that makes the call. -/
def words (w : WrittenCall) : List String := ["call", w.tool, "--args", w.arguments]

/-- A line of a session that makes the call. -/
def line (w : WrittenCall) : String := Tool.callLine w.tool w.arguments

/-- The tool can be called, and the arguments are an object that is nested a hundred levels at
most. -/
structure Proper (catalog : Catalog) (w : WrittenCall) : Prop where
  registered : ∃ tool, catalog.tool? w.tool = .ok (some tool)
  isObject : ∃ members, Json.parse w.arguments = .ok (.obj members)
  levels : (Json.readOutline w.arguments).1.height ≤ 100

/-- A line is read as the call. -/
def IsLine (line : String) (w : WrittenCall) : Prop :=
  ∃ v, Json.parse w.arguments = .ok v ∧
    Json.decodeText Call.decoder line = .ok ⟨w.tool, v⟩

variable {catalog : Catalog} {w : WrittenCall}

/-- **The words of a call are read as the call**, since its tool is registered and its arguments are
an object. -/
theorem parse_words (h : w.Proper catalog) {directory : String} {d : Disk}
    (hcatalog : (Catalog.new directory).setUp d = .ok catalog) :
    Invocation.parse w.words =
      .ok ⟨.call w.tool w.arguments, defaultSettingsPath, none, none⟩ := by
  obtain ⟨t, ht⟩ := h.registered
  have hname : t.name = w.tool := Catalog.name_of_tool? hcatalog ht
  obtain ⟨members, hmembers⟩ := h.isObject
  exact parse_call (hname ▸ t.head?_name) (Json.head?_of_parse hmembers)

/-- The line of a call is read as the call. -/
theorem isLine_line (h : w.Proper catalog) : IsLine w.line w := by
  obtain ⟨members, hmembers⟩ := h.isObject
  have hlevels := h.levels
  exact ⟨_, hmembers, Tool.decodeText_callLine hmembers (show _ < 127 by omega)⟩

end WrittenCall

/-- An input whose lines are read as these calls, blank lines apart. -/
def Feeds (input : String) (ws : List WrittenCall) : Prop :=
  List.Forall₂ WrittenCall.IsLine (Session.requests (Session.textLines input)) ws

/-- The calls one below the other. -/
def inputOf (ws : List WrittenCall) : String :=
  String.join ((ws.map WrittenCall.line).map (· ++ "\n"))

/-- No line of a call is blank, or has blanks at its ends. -/
theorem requests_lines (ws : List WrittenCall) :
    Session.requests (ws.map WrittenCall.line ++ [""]) = ws.map WrittenCall.line := by
  induction ws with
  | nil => rfl
  | cons w ws ih =>
    have htrim : Text.trim w.line = w.line := Tool.trim_callLine w.tool w.arguments
    have hblank : ¬ Text.isBlank w.line = true := by
      rw [← Text.trim_eq_empty_iff, htrim]
      exact Tool.callLine_ne_empty w.tool w.arguments
    rw [List.map_cons, List.cons_append, Session.requests_cons (Bool.not_eq_true _ ▸ hblank), htrim,
      ih]

/-- The calls one below the other are such an input. -/
theorem feeds_inputOf {catalog : Catalog} {ws : List WrittenCall}
    (h : ∀ w ∈ ws, w.Proper catalog) : Feeds (inputOf ws) ws := by
  have hlines : ∀ l ∈ ws.map WrittenCall.line, '\n' ∉ l.toList := by
    intro l hl
    obtain ⟨w, _, rfl⟩ := List.mem_map.mp hl
    exact Tool.newline_not_mem_callLine _ _
  rw [Feeds, inputOf, Session.textLines_join hlines, requests_lines, List.forall₂_map_left_iff]
  exact List.forall₂_same.mpr fun w hw => WrittenCall.isLine_line (h w hw)

/-! ## Processes -/

/-- What a process that makes one call does with the answer: the code that it ends with, and what
it prints. -/
def resultOf (r : Reply) : Nat × String := (if r.isError then 1 else 0, Session.replyLine r)

/-- Runs command lines one after another, each on the disk that the one before has left: the codes
and what is printed, in order, and the last disk. -/
def runEach (env : Environment) : List (List String) → Disk → List (Nat × String) × Disk
  | [], d => ([], d)
  | words :: rest, d =>
    let o := run words env [] d
    let (results, last) := runEach env rest o.disk
    ((o.code, o.output) :: results, last)

/-- The tools of a process on a disk, and the settings that lead to them. -/
structure SetsUp (env : Environment) (settings : Settings) (catalog : Catalog) (d : Disk) :
    Prop where
  loads : Settings.load d env defaultSettingsPath = .ok settings
  setUp : (Catalog.new settings.schemaDirectory).setUp d = .ok catalog

/-- Replacing the graph file changes neither the settings nor the schema documents. -/
def Steady (env : Environment) (settings : Settings) (d : Disk) : Prop :=
  ∀ content d', d.replace settings.memoryFile content = .ok d' →
    Settings.load d' env defaultSettingsPath = .ok settings ∧
      Schema.readDirectory d' settings.schemaDirectory =
        Schema.readDirectory d settings.schemaDirectory

open Session

section Processes

variable {env : Environment} {settings : Settings} {catalog : Catalog} {d d' d₁ : Disk}
  {s : Session}

/-- The settings are looked for at three names in the working directory. -/
theorem locate_source {p : String} (hp : p ∈ Settings.sources defaultSettingsPath) :
    d.locate p = .ok [p] ∧ p ∈ ["loregraph", "loregraph.toml", "loregraph.json"] := by
  have hsources : Settings.sources defaultSettingsPath =
      ["loregraph", "loregraph.toml", "loregraph.json"] := by decide +kernel
  rw [hsources] at hp
  have hlocate : ∀ p ∈ ["loregraph", "loregraph.toml", "loregraph.json"],
      d.locate p = .ok [p] := by
    simp only [List.forall_mem_cons]
    exact ⟨rfl, rfl, rfl, nofun⟩
  exact ⟨hlocate p hp, hp⟩

namespace SetsUp

/-- A process that is set up carries its command out with its tools and its graph file. -/
theorem run_eq (h : SetsUp env settings catalog d) {words : List String} {command : Command}
    (hwords : Invocation.parse words = .ok ⟨command, defaultSettingsPath, none, none⟩)
    (input : Bytes) :
    run words env input d = carryOut command catalog settings.memoryFile input d := by
  have hsettings : Invocation.settings ⟨command, defaultSettingsPath, none, none⟩ d env =
      .ok settings := bind_eq_ok_iff.mpr ⟨settings, h.loads, rfl⟩
  simp only [run, hwords, hsettings, h.setUp]

/-- More directories do not change what a process is set up with. -/
theorem grown (h : SetsUp env settings catalog d) (hd : Disk.Grown d d') :
    SetsUp env settings catalog d' := by
  refine ⟨?_, Catalog.setUp_grown hd h.setUp⟩
  have hfile := Settings.readSettingsFile_grown hd fun p hp => ⟨[p], (locate_source hp).1⟩
  rw [Settings.load_congr hfile, h.loads]

/-- Neither does the graph file, if it is steady. -/
theorem replaced (h : SetsUp env settings catalog d) (hsteady : Steady env settings d)
    {content : Bytes} (hd : d.replace settings.memoryFile content = .ok d') :
    SetsUp env settings catalog d' := by
  obtain ⟨hsettings, hdocuments⟩ := hsteady content d' hd
  exact ⟨hsettings, (Catalog.setUp_congr hdocuments).trans h.setUp⟩

/-- The last name of the graph file is enough to tell it from the settings and the documents. -/
theorem steady (h : SetsUp env settings catalog d) {name : String}
    (hname : (Path.names settings.memoryFile).getLast? = some name)
    (hjson : ¬ ".json".toList <:+ name.toList)
    (hsettings : name ∉ ["loregraph", "loregraph.toml"]) : Steady env settings d := by
  intro content d' hreplace
  -- None of the three places of the settings has the name of the graph file.
  have hplaces : ∀ p ∈ Settings.sources defaultSettingsPath,
      ∃ m, d.locate p = .ok m ∧ m.getLast? ≠ some name := by
    intro p hp
    obtain ⟨hlocate, hp⟩ := locate_source hp
    have hne : p ≠ name := by
      rintro rfl
      simp only [List.mem_cons, List.not_mem_nil, or_false, not_or] at hp hsettings
      rcases hp with hp | hp | hp
      · exact hsettings.1 hp
      · exact hsettings.2 hp
      · exact hjson (hp ▸ by decide)
    exact ⟨[p], hlocate, fun hlast => hne (Option.some.inj hlast)⟩
  obtain ⟨_, htools, _⟩ := Catalog.setUp_new_eq_ok_iff.mp h.setUp
  obtain ⟨docs, _, hdocs, _, _⟩ := Tool.ofDirectory_eq_ok htools
  refine ⟨?_, (Schema.readDirectory_of_replace hname hjson hreplace hdocs).trans hdocs.symm⟩
  rw [Settings.load_congr (Settings.readSettingsFile_of_replace hname hplaces hreplace), h.loads]

end SetsUp

/-- The line of a call makes the call. -/
theorem WrittenCall.IsLine.handleLine {line : String} {w : WrittenCall} (h : IsLine line w) :
    ∃ v, Json.parse w.arguments = .ok v ∧ s.handleLine line = s.dispatch ⟨w.tool, v⟩ := by
  obtain ⟨v, hparse, hdecode⟩ := h
  exact ⟨v, hparse, by rw [Session.handleLine, hdecode]⟩

/-- A process that starts where a session has come to answers a call as the session does. -/
theorem run_call {w : WrittenCall} (hsetsUp : SetsUp env settings catalog d)
    (hw : w.Proper catalog) {v : Json} (hv : Json.parse w.arguments = .ok v)
    (hcatalog : s.catalog = catalog)
    (hopen : Store.openAt d settings.memoryFile = (.ok s.store, s.disk)) :
    run w.words env [] d = ⟨if (s.dispatch ⟨w.tool, v⟩).1.isError then 1 else 0,
      replyLine (s.dispatch ⟨w.tool, v⟩).1, (s.dispatch ⟨w.tool, v⟩).2.disk⟩ := by
  rw [hsetsUp.run_eq (WrittenCall.parse_words hw hsetsUp.setUp)]
  simp only [carryOut, hopen, callTool, hv]
  subst hcatalog
  rfl

/-- A process that serves an input answers its requests one after another. -/
theorem run_serve (hsetsUp : SetsUp env settings catalog d) (hcatalog : s.catalog = catalog)
    (hopen : Store.openAt d settings.memoryFile = (.ok s.store, s.disk)) (input : String) :
    run ["serve"] env (Text.Utf8.encode input) d =
      ⟨0, String.join ((s.handleAll (requests (textLines input))).1.map replyLine),
        (s.handleAll (requests (textLines input))).2.disk⟩ := by
  obtain ⟨hanswers, hhandled⟩ := s.answers_textLines input
  rw [hsetsUp.run_eq parse_serve, ← hanswers.fold]
  simp only [carryOut, hopen]
  subst hcatalog
  simp only [serveInput, hhandled]
  rfl

/-- What processes need of the disk that the first of them leaves when it opens the store. -/
structure Ready (env : Environment) (settings : Settings) (catalog : Catalog) (d₁ : Disk) :
    Prop where
  setsUp : SetsUp env settings catalog d₁
  steady : Steady env settings d₁
  parent : ∃ directory, d₁.parent settings.memoryFile = .ok directory

theorem Ready.setsUp_kept (hd : Ready env settings catalog d₁)
    (h : Kept settings.memoryFile catalog d₁ s) : SetsUp env settings catalog s.disk := by
  rcases h.elsewhere with hsame | ⟨_, hreplace⟩
  · exact hsame ▸ hd.setsUp
  · exact hd.setsUp.replaced hd.steady hreplace

/-- **Processes and a session run side by side.** -/
theorem Ready.runEach_eq (hd : Ready env settings catalog d₁) {ls : List String}
    {ws : List WrittenCall} (hlines : List.Forall₂ WrittenCall.IsLine ls ws)
    (hws : ∀ w ∈ ws, w.Proper catalog) (h : Kept settings.memoryFile catalog d₁ s) :
    runEach env (ws.map WrittenCall.words) s.disk =
      ((s.handleAll ls).1.map resultOf, (s.handleAll ls).2.disk) := by
  induction hlines generalizing s with
  | nil => rfl
  | @cons l w ls ws hline _ ih =>
    obtain ⟨hw, hws⟩ := List.forall_mem_cons.mp hws
    obtain ⟨v, hv, hanswer⟩ := hline.handleLine (s := s)
    obtain ⟨_, hparent⟩ := hd.parent
    have hrun := run_call (hd.setsUp_kept h) hw hv h.tools (h.openAt hparent)
    -- The disk that the process leaves is that of the session after the call, so the induction goes
    -- on with it.
    rw [List.map_cons, runEach, hrun]
    simp only [ih hws (h.dispatch ⟨w.tool, v⟩), handleAll_cons, hanswer, List.map_cons, resultOf]

/-- The first process may as well start where the directories of the graph file have been made. -/
theorem runEach_grown (h : SetsUp env settings catalog d) (hd : SetsUp env settings catalog d₁)
    (hopen : Store.openAt d settings.memoryFile = Store.openAt d₁ settings.memoryFile)
    {ws : List WrittenCall} (hws : ∀ w ∈ ws, w.Proper catalog) (hne : ws ≠ []) :
    runEach env (ws.map WrittenCall.words) d = runEach env (ws.map WrittenCall.words) d₁ := by
  obtain ⟨w, ws, rfl⟩ := List.exists_cons_of_ne_nil hne
  have hwords := WrittenCall.parse_words (hws w List.mem_cons_self) h.setUp
  have hrun : run w.words env [] d = run w.words env [] d₁ := by
    rw [h.run_eq hwords, hd.run_eq hwords]
    simp only [carryOut, hopen]
  rw [List.map_cons, runEach, runEach, hrun]

/-- What it means that a session and processes, one for each call, do the same. -/
structure Alike (served : Outcome) (results : List (Nat × String)) (last : Disk) : Prop where
  /-- A process prints the line of its answer and ends with 1 if that is an error, with 0 if not;
  the session prints these lines. -/
  answers : ∃ replies : List Reply, results = replies.map resultOf ∧
    served.output = String.join (replies.map Session.replyLine)
  code : served.code = 0
  /-- They leave the same files. -/
  files : ∀ l content,
    served.disk.entry? l = some (.file content) ↔ last.entry? l = some (.file content)
  /-- They leave the same disk, unless there is no process that makes directories. -/
  disk : results ≠ [] → served.disk = last

/-- **One session is as good as a process for each call.**  Whatever file the graph is loaded from,
and however the lines are written that the session is given, the answers are the same and so are
the files.  Nothing is asked of the disk but that the settings and the schema documents stay: a
graph that cannot be written is refused in the same way by both. -/
theorem serve_eq_runEach {store : Store} {ws : List WrittenCall}
    (hsettings : Settings.load d env defaultSettingsPath = .ok settings)
    (hcatalog : (Catalog.new settings.schemaDirectory).setUp d = .ok catalog)
    (hstore : Store.openAt d settings.memoryFile = (.ok store, d₁))
    (hsteady : Steady env settings d₁) (hws : ∀ w ∈ ws, w.Proper catalog) :
    Feeds (inputOf ws) ws ∧
      ∀ input, Feeds input ws →
        Alike (run ["serve"] env (Text.Utf8.encode input) d)
          (runEach env (ws.map WrittenCall.words) d).1
          (runEach env (ws.map WrittenCall.words) d).2 := by
  refine ⟨feeds_inputOf hws, fun input hfeeds => ?_⟩
  have hsetsUp : SetsUp env settings catalog d := ⟨hsettings, hcatalog⟩
  obtain ⟨hgrown, hparent⟩ := Store.openAt_grown hstore
  have hready : Ready env settings catalog d₁ := ⟨hsetsUp.grown hgrown, hsteady, hparent⟩
  obtain ⟨hpath, hload⟩ := Store.openAt_eq_ok hstore
  have hkept : Kept settings.memoryFile catalog d₁ ⟨catalog, store, d₁⟩ :=
    ⟨rfl, hpath, hload, Or.inl rfl⟩
  -- The session opens the store once.  The first process opens it on the same disk, and the others
  -- where the directories have been made.
  have hopen : Store.openAt d settings.memoryFile = Store.openAt d₁ settings.memoryFile :=
    hstore.trans (hkept.openAt hparent.choose_spec).symm
  have hprocesses := hready.runEach_eq hfeeds hws hkept
  rw [run_serve (s := ⟨catalog, store, d₁⟩) hsetsUp rfl hstore]
  by_cases hne : ws = []
  · -- Without a call nothing is left of the session but the directories that it has made.
    subst hne
    have hnil : Session.requests (Session.textLines input) = [] :=
      List.forall₂_nil_right_iff.mp hfeeds
    rw [hnil]
    exact ⟨⟨[], rfl, rfl⟩, rfl, fun _ _ => hgrown.entry?_file_iff, fun h => absurd rfl h⟩
  · rw [runEach_grown hsetsUp hready.setsUp hopen hws hne, hprocesses]
    exact ⟨⟨_, rfl, rfl⟩, rfl, fun _ _ => Iff.rfl, fun _ => rfl⟩

end Processes

/-- Two calls that differ in blanks only, of which the second one finds the name taken. -/
def addTwice : List WrittenCall :=
  [⟨"add_npc", "\x7b \"name\": \"Ada\" \x7d"⟩, ⟨"add_npc", "\x7b\"name\":\"Ada\"\x7d"⟩]

theorem serve_eq_runEach_addTwice :
    (∀ w ∈ addTwice, w.Proper Catalog.npcCatalog) ∧
      Alike (run ["serve"] [] (Text.Utf8.encode (inputOf addTwice)) Catalog.npcDisk)
        (runEach [] (addTwice.map WrittenCall.words) Catalog.npcDisk).1
        (runEach [] (addTwice.map WrittenCall.words) Catalog.npcDisk).2 := by
  have hsettings : Settings.load Catalog.npcDisk [] defaultSettingsPath = .ok .default := rfl
  have hstore : Store.openAt Catalog.npcDisk "memory.jsonl" =
      (.ok ⟨"memory.jsonl", .empty⟩, Catalog.npcDisk) := rfl
  have hsetsUp : SetsUp [] .default Catalog.npcCatalog Catalog.npcDisk :=
    ⟨hsettings, Catalog.setUp_npcDisk⟩
  have hname : (Path.names "memory.jsonl").getLast? = some "memory.jsonl" := by decide +kernel
  have hsteady := hsetsUp.steady hname (by decide) (by decide)
  have hregistered : ∀ w ∈ addTwice, ∃ tool, Catalog.npcCatalog.tool? w.tool = .ok (some tool) := by
    simp only [addTwice, List.forall_mem_cons]
    exact ⟨⟨_, rfl⟩, ⟨_, rfl⟩, nofun⟩
  have hobject : ∀ w ∈ addTwice, ∃ members, Json.parse w.arguments = .ok (.obj members) := by
    have hcheck : ∀ w ∈ addTwice,
        (Json.parse w.arguments).toOption.any Schema.ValueType.object.accepts = true := by
      decide +kernel
    intro w hw
    have h := hcheck w hw
    cases hparse : Json.parse w.arguments with
    | error flaw =>
      rw [hparse] at h
      cases h
    | ok v =>
      rw [hparse] at h
      cases v with
      | obj members => exact ⟨members, rfl⟩
      | _ => cases h
  have hlevels : ∀ w ∈ addTwice, (Json.readOutline w.arguments).1.height ≤ 100 := by
    decide +kernel
  have hproper : ∀ w ∈ addTwice, w.Proper Catalog.npcCatalog := fun w hw =>
    ⟨hregistered w hw, hobject w hw, hlevels w hw⟩
  obtain ⟨hfeeds, halike⟩ := serve_eq_runEach hsettings Catalog.setUp_npcDisk hstore hsteady hproper
  exact ⟨hproper, halike _ hfeeds⟩

end CommandLine

end GraphKeeper

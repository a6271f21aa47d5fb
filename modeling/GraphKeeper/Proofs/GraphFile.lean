/-
  A graph file is read back as it was written.

  Three laws of reading are put together:
    * the bytes of a text are read as that text, and its newline bytes are newlines (`Utf8`);
    * the compact text of a JSON value is read as that value, and is one line (`JsonText`);
    * a record is read back from its JSON form (`Record.decoder_toJson`).
  So a written file is cut into the lines that were written, and each of them gives its record
  (`splitLines_encodeBytes`, `readLine_lineOf`).

  What a file of any origin is read as is said by `parse_eq_ok_iff`, without the state of the
  reader: every line can be read, and the records make up a graph that is well formed.  The reader
  refuses a name that comes twice when it meets it, but the end of an edge only after the last line;
  both come to the same (`exists_readLines_iff`, `checkEnds_eq_ok_iff`).

  The main theorem is `parse_encodeBytes`.
-/
import GraphKeeper.Graph.LineFile
import GraphKeeper.Proofs.JsonText
import GraphKeeper.Proofs.Sequences
import GraphKeeper.Proofs.Utf8

namespace GraphKeeper

open Json

/-! ## Records -/

namespace Json

mutual

/-- A value at hand has no flaw. -/
theorem exists_toJson_ofJson : ∀ v : Json, ∃ w, (Outline.ofJson v).toJson = .ok w
  | .null => ⟨_, rfl⟩
  | .bool _ => ⟨_, rfl⟩
  | .num _ => ⟨_, rfl⟩
  | .str _ => ⟨_, rfl⟩
  | .arr vs => by
    obtain ⟨ws, hws⟩ := exists_toJsons_ofJsons vs
    exact ⟨.arr ws, by simp only [Outline.ofJson, Outline.toJson, hws]; rfl⟩
  | .obj ms => by
    obtain ⟨ns, hns⟩ := exists_toMembers_ofMembers ms []
    exact ⟨.obj ns, by simp only [Outline.ofJson, Outline.toJson, hns]; rfl⟩

/-- Nor have the items of an array at hand. -/
theorem exists_toJsons_ofJsons : ∀ vs : List Json, ∃ ws, (Items.ofJsons vs).toJsons = .ok ws
  | [] => ⟨[], rfl⟩
  | v :: vs => by
    obtain ⟨w, hw⟩ := exists_toJson_ofJson v
    obtain ⟨ws, hws⟩ := exists_toJsons_ofJsons vs
    exact ⟨w :: ws, by simp only [Items.ofJsons, Items.toJsons, hw, hws]; rfl⟩

/-- Nor have members; those in front may already have been put into the object. -/
theorem exists_toMembers_ofMembers : ∀ (ms acc : Members),
    ∃ ns, (Entries.ofMembers ms).toMembers acc = .ok ns
  | [], acc => ⟨acc, rfl⟩
  | (k, v) :: ms, acc => by
    obtain ⟨w, hw⟩ := exists_toJson_ofJson v
    obtain ⟨ns, hns⟩ := exists_toMembers_ofMembers ms (acc.set k w)
    exact ⟨ns, by simp only [Entries.ofMembers, Entries.toMembers, hw]; exact hns⟩

end

/-- Texts in an array are read one by one. -/
theorem items_ofJsons_str (src : Source) (ss : List String) :
    Decoder.items Decoder.string src (Items.ofJsons (ss.map .str)) = .ok ss := by
  induction ss with
  | nil => rfl
  | cons s ss ih =>
    simp only [List.map_cons, Items.ofJsons, Decoder.items, Outline.ofJson, Decoder.string, ih]
    rfl

/-- **A list of texts is read back.** -/
theorem list_ofStrings (src : Source) (ss : List String) :
    Decoder.list Decoder.string src (.ofJson (.ofStrings ss)) = .ok ss := items_ofJsons_str src ss

end Json

/-- A node is read back from its members. -/
theorem Node.decoder_ofMembers (src : Source) (n : Node) :
    Node.decoder src (.obj false (.ofMembers n.members)) = .ok n := by
  have hlist := list_ofStrings src n.metadata
  have hread : Node.shape.read src (.obj false (.ofMembers n.members)) =
      .ok [("name", .str n.name), ("nodeType", .str n.kind),
        ("metadata", .ofJson (.ofStrings n.metadata))] := by
    have hcheck : (Field.spare "metadata" (.list .string)).check src
        (.ofJson (.ofStrings n.metadata)) = .ok () := by
      show (Decoder.list Decoder.string src _).map _ = _
      rw [hlist]
      rfl
    -- The checks of the two texts before it compute; that of the lines is a recursion.
    show (do
      (Field.spare "metadata" (.list .string)).check src (.ofJson (.ofStrings n.metadata))
      Except.ok _) = _
    rw [hcheck]
    rfl
  have hmetadata : FieldValues.orElse
      [("name", .str n.name), ("nodeType", .str n.kind),
        ("metadata", .ofJson (.ofStrings n.metadata))] "metadata" src (.list .string) [] =
      .ok n.metadata := hlist
  rw [Node.decoder, hread]
  show (do
    let metadata ← FieldValues.orElse _ "metadata" src (.list .string) []
    Except.ok (Node.mk n.name n.kind metadata)) = _
  rw [hmetadata]
  rfl

/-- An edge has texts only, so its decoder just computes. -/
theorem Edge.decoder_ofMembers (src : Source) (e : Edge) :
    Edge.decoder src (.obj false (.ofMembers e.members)) = .ok e := rfl

namespace Record

/-- Once the tag is there, the other members are handed on as they are. -/
theorem splitEntries_ofMembers {tag : String} (ms : Members) (h : "type" ∉ ms.keys) :
    splitEntries (some tag) (.ofMembers ms) = .ok (tag, .ofMembers ms) := by
  -- No member behind the tag is a tag, so each of them is kept.
  induction ms with
  | nil => rfl
  | cons m ms ih =>
    obtain ⟨k, v⟩ := m
    obtain ⟨hk, hms⟩ := not_or.mp (List.mem_cons.not.mp h)
    obtain ⟨w, hw⟩ := exists_toJson_ofJson v
    simp only [Entries.ofMembers, splitEntries, hw, ih hms, liftFlaw]
    show (if k = "type" then _ else _) = _
    rw [if_neg (Ne.symm hk)]
    rfl

/-- A record is cut into its tag, which stands first, and the rest. -/
theorem split_tagged {tag : String} {ms : Members} (htag : tag ∈ tags) (h : "type" ∉ ms.keys) :
    split (.ofJson (.obj (("type", .str tag) :: ms))) = .ok (tag, .obj false (.ofMembers ms)) := by
  have hcheck : checkTag (.str tag) = .ok tag := if_pos htag
  show (do
    let tag ← checkTag (.str tag)
    splitEntries (some tag) (.ofMembers ms)).map _ = _
  rw [hcheck]
  show (splitEntries (some tag) (.ofMembers ms)).map _ = _
  rw [splitEntries_ofMembers ms h]
  rfl

/-- **A record is read back from its JSON form.** -/
theorem decoder_toJson (src : Source) (r : Record) :
    Record.decoder src (.ofJson r.toJson) = .ok r := by
  -- The rest is set aside and read again, as what the tag says.
  cases r with
  | node n =>
    have hkeys : "type" ∉ n.members.keys :=
      show "type" ∉ ["name", "nodeType", "metadata"] by decide
    rw [Record.decoder, toJson, split_tagged (show "node" ∈ tags by decide) hkeys]
    show (do
      let n ← Node.decoder .setAside (.obj false (.ofMembers n.members))
      Except.ok (Record.node n)) = _
    rw [Node.decoder_ofMembers]
    rfl
  | edge e =>
    have hkeys : "type" ∉ e.members.keys :=
      show "type" ∉ ["from", "to", "edgeType"] by decide
    rw [Record.decoder, toJson, split_tagged (show "edge" ∈ tags by decide) hkeys]
    show (do
      let e ← Edge.decoder .setAside (.obj false (.ofMembers e.members))
      Except.ok (Record.edge e)) = _
    rw [Edge.decoder_ofMembers]
    rfl

/-- The node, if the record is one. -/
def node? : Record → Option Node
  | node n => some n
  | edge _ => none

/-- The edge, if the record is one. -/
def edge? : Record → Option Edge
  | node _ => none
  | edge e => some e

/-- Texts are legible, for there are no numbers in them. -/
theorem legibleItems_strings (ss : List String) : LegibleItems (ss.map .str) := by
  induction ss with
  | nil => trivial
  | cons s ss ih => exact ⟨trivial, ih⟩

/-- Nothing is nested in a text. -/
theorem heightItems_strings (ss : List String) : heightItems (ss.map .str) = 0 := by
  induction ss with
  | nil => rfl
  | cons s ss ih =>
    rw [List.map_cons, heightItems, ih]
    rfl

/-- There are no numbers in a record at all. -/
theorem legible_toJson (r : Record) : r.toJson.Legible := by
  cases r with
  | node n => exact ⟨trivial, trivial, trivial, legibleItems_strings n.metadata, trivial⟩
  | edge e => exact ⟨trivial, trivial, trivial, trivial, trivial⟩

/-- A record is nested twice at most, far from the limit. -/
theorem height_toJson_le (r : Record) : r.toJson.height ≤ depthLimit := by
  have h : r.toJson.height ≤ 2 := by
    cases r with
    | node n =>
      have hlines := heightItems_strings n.metadata
      simp only [toJson, Node.members, ofStrings, height, heightMembers, hlines]
      decide
    | edge e => exact (by decide : 1 ≤ 2)
  exact Nat.le_trans h (by decide)

end Record

namespace LineFile

/-! ## Lines -/

/-- The line of a record, without the newline. -/
def lineOf (r : Record) : Bytes := Text.Utf8.encode r.toJson.render

/-- **The line of a record is read as that record.** -/
theorem readLine_lineOf (r : Record) : readLine (lineOf r) = .ok (some r) := by
  -- The line begins with a brace, so it is not taken for a blank one.
  have hblank : Text.isBlank r.toJson.render = false := by
    rw [Text.isBlank, render, String.toList_ofList]
    cases r <;> rfl
  have hdecode : decodeText Record.decoder r.toJson.render = .ok r := by
    rw [decodeText_render r.legible_toJson r.height_toJson_le, Record.decoder_toJson]
  simp only [readLine, lineOf, Text.Utf8.decode_encode, hblank, hdecode, Bool.false_eq_true,
    if_false]

/-- The line of a record is one line. -/
theorem newline_not_mem_lineOf (r : Record) : 10 ∉ lineOf r := by
  intro h
  -- No character but the newline has this byte among its own.
  obtain ⟨c, hc, hbyte⟩ := List.mem_flatMap.mp h
  rw [Text.Utf8.newline_mem_encodeChar_iff.mp hbyte, render, String.toList_ofList] at hc
  exact newline_not_mem_chars r.toJson hc

/-- The bytes up to the first newline are a line. -/
theorem splitLines_append {line : Bytes} (h : 10 ∉ line) (bs : Bytes) :
    splitLines (line ++ 10 :: bs) = line :: splitLines bs := by
  -- None of the bytes in front of the newline is one, so the cut is made there.
  induction line with
  | nil => rw [List.nil_append, splitLines, if_pos rfl]
  | cons b line ih =>
    obtain ⟨hb, hline⟩ := not_or.mp (List.mem_cons.not.mp h)
    rw [List.cons_append, splitLines, if_neg (Ne.symm hb), ih hline]

/-- A file is the lines of its records, each with a newline behind it. -/
theorem encodeBytes_eq_flatMap (g : Graph) :
    encodeBytes g = (records g).flatMap fun r => lineOf r ++ [10] := by
  rw [encodeBytes, encode, Text.Utf8.encode, String.toList_join]
  simp only [List.flatMap_map, List.flatMap_assoc]
  refine congrArg (List.flatMap · (records g)) (funext fun r => ?_)
  exact Text.Utf8.encode_append _ _

/-- The lines of a written file are those of the records, and an empty one behind the last
newline. -/
theorem splitLines_encodeBytes (g : Graph) :
    splitLines (encodeBytes g) = (records g).map lineOf ++ [[]] := by
  rw [encodeBytes_eq_flatMap]
  generalize records g = rs
  induction rs with
  | nil => rfl
  | cons r rs ih =>
    rw [List.flatMap_cons, List.append_assoc, List.singleton_append,
      splitLines_append (newline_not_mem_lineOf r), ih]
    rfl

/-! ## What a file is read as -/

/-- The record of a line, if it has one. -/
def recordOf? (l : Bytes) : Option Record :=
  match readLine l with
  | .ok r => r
  | .error _ => none

/-- A line that is read has the record that is read. -/
theorem recordOf?_eq {l : Bytes} {r : Option Record} (h : readLine l = .ok r) :
    recordOf? l = r := by
  rw [recordOf?, h]

/-- The graph that the records make up, be it well formed or not. -/
def graphOf (rs : List Record) : Graph := ⟨rs.filterMap Record.node?, rs.filterMap Record.edge?⟩

/-- The nodes that were found, told without the numbers of their lines. -/
theorem nodesOf_eq (found : List (Nat × Record)) :
    nodesOf found = (found.map Prod.snd).filterMap Record.node? := by
  rw [nodesOf, List.filterMap_map]
  refine congrArg (List.filterMap · found) (funext fun r => ?_)
  obtain ⟨line, n | e⟩ := r <;> rfl

/-- The edges that were found, without the numbers. -/
theorem map_snd_edgesOf (found : List (Nat × Record)) :
    (edgesOf found).map Prod.snd = (found.map Prod.snd).filterMap Record.edge? := by
  rw [edgesOf, List.map_filterMap, List.filterMap_map]
  refine congrArg (List.filterMap · found) (funext fun r => ?_)
  obtain ⟨line, n | e⟩ := r <;> rfl

/-- One line: it is blank, or holds an edge, or a node with a name that is new. -/
theorem readLines_cons_eq_ok_iff {line : Nat} {seen : List String} {l : Bytes} {ls : List Bytes}
    {found : List (Nat × Record)} :
    readLines line seen (l :: ls) = .ok found ↔
      (readLine l = .ok none ∧ readLines (line + 1) seen ls = .ok found) ∨
      (∃ e rest, readLine l = .ok (some (.edge e)) ∧
        readLines (line + 1) seen ls = .ok rest ∧ found = (line, .edge e) :: rest) ∨
      (∃ n rest, readLine l = .ok (some (.node n)) ∧ n.name ∉ seen ∧
        readLines (line + 1) (n.name :: seen) ls = .ok rest ∧ found = (line, .node n) :: rest) := by
  rw [readLines]
  split
  · rename_i hl
    simp [hl]
  · rename_i hl
    simp [hl]
  · rename_i e hl
    simp [hl, map_eq_ok_iff]
  · rename_i n hl
    by_cases hseen : n.name ∈ seen
    · simp [hl, hseen]
    · simp [hl, hseen, map_eq_ok_iff]

/-- What is read are the records of the lines. -/
theorem map_snd_of_readLines {ls : List Bytes} :
    ∀ {line : Nat} {seen : List String} {found : List (Nat × Record)},
      readLines line seen ls = .ok found → found.map Prod.snd = ls.filterMap recordOf? := by
  -- The numbers of lines and the names seen so far only decide whether reading goes on, not what is
  -- read.
  induction ls with
  | nil =>
    intro line seen found h
    cases h
    rfl
  | cons l ls ih =>
    intro line seen found h
    rcases readLines_cons_eq_ok_iff.mp h with
      ⟨hl, hrest⟩ | ⟨e, rest, hl, hrest, rfl⟩ | ⟨n, rest, hl, _, hrest, rfl⟩
    · rw [List.filterMap_cons_none (recordOf?_eq hl)]
      exact ih hrest
    · rw [List.filterMap_cons_some (recordOf?_eq hl), List.map_cons, ih hrest]
    · rw [List.filterMap_cons_some (recordOf?_eq hl), List.map_cons, ih hrest]

/-- The names of the nodes that the lines hold. -/
def namesOf (ls : List Bytes) : List String := (graphOf (ls.filterMap recordOf?)).names

/-- A line without a node adds no name. -/
theorem namesOf_cons_of_none {l : Bytes} (h : (recordOf? l).bind Record.node? = none)
    (ls : List Bytes) : namesOf (l :: ls) = namesOf ls := by
  cases hr : recordOf? l with
  | none => rw [namesOf, List.filterMap_cons_none hr, namesOf]
  | some r =>
    rw [hr] at h
    have hnode : r.node? = none := h
    simp only [namesOf, graphOf, Graph.names, List.filterMap_cons_some hr]
    rw [List.filterMap_cons_none hnode]

/-- A line with a node adds the name of the node. -/
theorem namesOf_cons_node {l : Bytes} {n : Node} (h : recordOf? l = some (.node n))
    (ls : List Bytes) : namesOf (l :: ls) = n.name :: namesOf ls := by
  simp only [namesOf, graphOf, Graph.names, List.filterMap_cons_some h]
  rfl

/-- Each line can be read, and no name comes twice or is one of those seen before. -/
structure Readable (seen : List String) (ls : List Bytes) : Prop where
  lines : ∀ l ∈ ls, ∃ r, readLine l = .ok r
  nodup : (namesOf ls).Nodup
  fresh : ∀ name ∈ namesOf ls, name ∉ seen

namespace Readable

variable {seen : List String} {l : Bytes} {ls : List Bytes}

/-- A line without a node asks nothing of the lines behind it. -/
theorem cons_iff_of_none {r : Option Record} (hl : readLine l = .ok r)
    (hr : r.bind Record.node? = none) : Readable seen (l :: ls) ↔ Readable seen ls := by
  have hnames : namesOf (l :: ls) = namesOf ls :=
    namesOf_cons_of_none (by rw [recordOf?_eq hl]; exact hr) ls
  constructor
  · rintro ⟨hlines, hnodup, hfresh⟩
    rw [hnames] at hnodup hfresh
    exact ⟨fun l' h => hlines l' (List.mem_cons_of_mem _ h), hnodup, hfresh⟩
  · rintro ⟨hlines, hnodup, hfresh⟩
    rw [← hnames] at hnodup hfresh
    exact ⟨List.forall_mem_cons.mpr ⟨⟨r, hl⟩, hlines⟩, hnodup, hfresh⟩

/-- A line with a node asks that its name is new, and that it does not come again. -/
theorem cons_node_iff {n : Node} (hl : readLine l = .ok (some (.node n))) :
    Readable seen (l :: ls) ↔ n.name ∉ seen ∧ Readable (n.name :: seen) ls := by
  have hnames := namesOf_cons_node (recordOf?_eq hl) ls
  constructor
  · rintro ⟨hlines, hnodup, hfresh⟩
    rw [hnames] at hnodup hfresh
    obtain ⟨hn, hnodup⟩ := List.nodup_cons.mp hnodup
    refine ⟨hfresh _ List.mem_cons_self, fun l' h => hlines l' (List.mem_cons_of_mem _ h),
      hnodup, fun name hname hseen => ?_⟩
    rcases List.mem_cons.mp hseen with rfl | hseen
    · exact hn hname
    · exact hfresh name (List.mem_cons_of_mem _ hname) hseen
  · rintro ⟨hn, hlines, hnodup, hfresh⟩
    refine ⟨List.forall_mem_cons.mpr ⟨⟨_, hl⟩, hlines⟩, ?_, ?_⟩
    · rw [hnames]
      exact List.nodup_cons.mpr ⟨fun h => hfresh _ h List.mem_cons_self, hnodup⟩
    · rw [hnames]
      exact List.forall_mem_cons.mpr
        ⟨hn, fun name hname hseen => hfresh name hname (List.mem_cons_of_mem _ hseen)⟩

end Readable

/-- Lines are read through when they are readable, and only then. -/
theorem exists_readLines_iff {ls : List Bytes} :
    ∀ {line : Nat} {seen : List String},
      (∃ found, readLines line seen ls = .ok found) ↔ Readable seen ls := by
  induction ls with
  | nil =>
    intro line seen
    refine ⟨fun _ => ⟨?_, List.nodup_nil, ?_⟩, fun _ => ⟨[], rfl⟩⟩
    · exact fun l hl => absurd hl List.not_mem_nil
    · exact fun name hname => absurd hname List.not_mem_nil
  | cons l ls ih =>
    intro line seen
    constructor
    · rintro ⟨found, h⟩
      rcases readLines_cons_eq_ok_iff.mp h with
        ⟨hl, h⟩ | ⟨e, rest, hl, h, _⟩ | ⟨n, rest, hl, hn, h, _⟩
      · exact (Readable.cons_iff_of_none hl rfl).mpr (ih.mp ⟨_, h⟩)
      · exact (Readable.cons_iff_of_none hl rfl).mpr (ih.mp ⟨_, h⟩)
      · exact (Readable.cons_node_iff hl).mpr ⟨hn, ih.mp ⟨_, h⟩⟩
    -- Only a node adds a name to those that the lines behind it must not repeat.
    · intro h
      obtain ⟨r, hl⟩ := h.lines l List.mem_cons_self
      match r with
      | none =>
        obtain ⟨rest, hrest⟩ := ih.mpr ((Readable.cons_iff_of_none hl rfl).mp h)
        exact ⟨rest, readLines_cons_eq_ok_iff.mpr (Or.inl ⟨hl, hrest⟩)⟩
      | some (.edge e) =>
        obtain ⟨rest, hrest⟩ := ih.mpr ((Readable.cons_iff_of_none hl rfl).mp h)
        exact ⟨_, readLines_cons_eq_ok_iff.mpr (Or.inr (Or.inl ⟨e, rest, hl, hrest, rfl⟩))⟩
      | some (.node n) =>
        obtain ⟨hn, hreadable⟩ := (Readable.cons_node_iff hl).mp h
        obtain ⟨rest, hrest⟩ := ih.mpr hreadable
        exact ⟨_, readLines_cons_eq_ok_iff.mpr (Or.inr (Or.inr ⟨n, rest, hl, hn, hrest, rfl⟩))⟩

/-! ## Whole files -/

/-- The ends of an edge are in order exactly if both of them are among the names. -/
theorem checkEnds_eq_ok_iff {names : List String} {edge : Nat × Edge} :
    checkEnds names edge = .ok () ↔ edge.2.source ∈ names ∧ edge.2.target ∈ names := by
  rw [checkEnds]
  by_cases hs : edge.2.source ∈ names
  · by_cases ht : edge.2.target ∈ names
    · simp [hs, ht]
    · simp [hs, ht]
  · simp [hs]

/-- **A file is accepted when each of its lines can be read and the records make up a graph that
is well formed**, and it is that graph which is read. -/
theorem parse_eq_ok_iff {content : Bytes} {g : Graph} :
    parse content = .ok g ↔ (∀ l ∈ splitLines content, ∃ r, readLine l = .ok r) ∧
      g = graphOf ((splitLines content).filterMap recordOf?) ∧ g.WellFormed := by
  have hgraph : ∀ {found}, readLines 1 [] (splitLines content) = .ok found →
      (⟨nodesOf found, (edgesOf found).map Prod.snd⟩ : Graph) =
        graphOf ((splitLines content).filterMap recordOf?) := by
    intro found hfound
    rw [nodesOf_eq, map_snd_edgesOf, map_snd_of_readLines hfound, graphOf]
  constructor
  · intro h
    obtain ⟨found, hfound, h⟩ := bind_eq_ok_iff.mp h
    obtain ⟨_, hends, h⟩ := bind_eq_ok_iff.mp h
    cases h
    -- Names were checked line by line, ends after all lines.
    have hreadable := exists_readLines_iff.mp ⟨found, hfound⟩
    have hedges : ∀ e ∈ (edgesOf found).map Prod.snd,
        e.source ∈ (nodesOf found).map Node.name ∧ e.target ∈ (nodesOf found).map Node.name := by
      intro e he
      obtain ⟨edge, hedge, rfl⟩ := List.mem_map.mp he
      exact checkEnds_eq_ok_iff.mp (forM_eq_ok_iff.mp hends edge hedge)
    refine ⟨hreadable.lines, hgraph hfound, ?_, fun e he => (hedges e he).1,
      fun e he => (hedges e he).2⟩
    rw [hgraph hfound]
    exact hreadable.nodup
  · rintro ⟨hlines, rfl, hnodup, hsource, htarget⟩
    obtain ⟨found, hfound⟩ := exists_readLines_iff.mpr
      (⟨hlines, hnodup, fun _ _ => List.not_mem_nil⟩ : Readable [] (splitLines content))
    rw [← hgraph hfound] at hsource htarget ⊢
    have hends : (edgesOf found).forM (checkEnds ((nodesOf found).map Node.name)) = .ok () := by
      refine forM_eq_ok_iff.mpr fun edge hedge => checkEnds_eq_ok_iff.mpr ?_
      have hmem : edge.2 ∈ (edgesOf found).map Prod.snd := List.mem_map.mpr ⟨edge, hedge, rfl⟩
      exact ⟨hsource _ hmem, htarget _ hmem⟩
    exact bind_eq_ok_iff.mpr ⟨found, hfound, bind_eq_ok_iff.mpr ⟨(), hends, rfl⟩⟩

/-- Whatever its bytes are, a file that is accepted holds a well-formed graph. -/
theorem wellFormed_of_parse {content : Bytes} {g : Graph} (h : parse content = .ok g) :
    g.WellFormed :=
  (parse_eq_ok_iff.mp h).2.2

/-- **The records of a graph make up that graph.**  Nodes come first, but each kind keeps
its order. -/
theorem graphOf_records (g : Graph) : graphOf (records g) = g := by
  have hnodes : (g.nodes.map Record.node).filterMap Record.node? = g.nodes := by
    rw [List.filterMap_map]
    exact List.filterMap_some
  have hnone : (g.edges.map Record.edge).filterMap Record.node? = [] := by
    rw [List.filterMap_map]
    exact List.filterMap_eq_nil_iff.mpr fun _ _ => rfl
  have hnone' : (g.nodes.map Record.node).filterMap Record.edge? = [] := by
    rw [List.filterMap_map]
    exact List.filterMap_eq_nil_iff.mpr fun _ _ => rfl
  have hedges : (g.edges.map Record.edge).filterMap Record.edge? = g.edges := by
    rw [List.filterMap_map]
    exact List.filterMap_some
  simp only [graphOf, records, List.filterMap_append, hnodes, hnone, hnone', hedges,
    List.append_nil, List.nil_append]

/-- A written file is read as the graph it was written from, if that is well formed, and is not
read at all if it is not. -/
theorem parse_encodeBytes_iff {g g' : Graph} :
    parse (encodeBytes g) = .ok g' ↔ g' = g ∧ g.WellFormed := by
  have hlines : ∀ l ∈ splitLines (encodeBytes g), ∃ r, readLine l = .ok r := by
    rw [splitLines_encodeBytes]
    intro l hl
    rcases List.mem_append.mp hl with hl | hl
    · obtain ⟨r, _, rfl⟩ := List.mem_map.mp hl
      exact ⟨_, readLine_lineOf r⟩
    -- The empty line behind the last newline is a blank one.
    · rw [List.mem_singleton.mp hl]
      exact ⟨none, rfl⟩
  have hrecords : (splitLines (encodeBytes g)).filterMap recordOf? = records g := by
    have hrecord : recordOf? ∘ lineOf = some := funext fun r => recordOf?_eq (readLine_lineOf r)
    rw [splitLines_encodeBytes, List.filterMap_append, List.filterMap_map, hrecord,
      List.filterMap_some]
    exact List.append_nil _
  rw [parse_eq_ok_iff, hrecords, graphOf_records]
  constructor
  · rintro ⟨_, rfl, hg⟩
    exact ⟨rfl, hg⟩
  · rintro ⟨rfl, hg⟩
    exact ⟨hlines, rfl, hg⟩

/-- **Exactly the well formed graphs can be stored.**  Such a graph is read back from its file as
it was, any other one is refused as a corrupt store, and no file whatever is read as a graph that
is not well formed. -/
theorem parse_encodeBytes (g : Graph) :
    (g.WellFormed → parse (encodeBytes g) = .ok g) ∧
    (¬ g.WellFormed → ∃ c, parse (encodeBytes g) = .error c ∧
      c.failure.kind = "CorruptStoreError") ∧
    (∀ content, parse content = .ok g → g.WellFormed ∧ parse (encodeBytes g) = .ok g) := by
  have hback : g.WellFormed → parse (encodeBytes g) = .ok g :=
    fun hg => parse_encodeBytes_iff.mpr ⟨rfl, hg⟩
  refine ⟨hback, fun hg => ?_, fun content h => ?_⟩
  -- If the file were accepted, it would be as this graph, which is not well formed.
  · cases hparse : parse (encodeBytes g) with
    | error c => exact ⟨c, rfl, rfl⟩
    | ok g' => exact absurd (parse_encodeBytes_iff.mp hparse).2 hg
  · have hg := wellFormed_of_parse h
    exact ⟨hg, hback hg⟩

/-- A graph with an empty name, a quote, a newline, a control character and a loop. -/
def awkward : Graph :=
  ⟨[⟨"", "npc", ["a: b\nc", "\t"]⟩, ⟨"say \"no\"", "", []⟩],
    [⟨"", "say \"no\"", "\\"⟩, ⟨"", "", "é"⟩]⟩

/-- The three parts on a graph that is well formed, on one that is not, and on a blank file. -/
theorem parse_encodeBytes_awkward :
    parse (encodeBytes awkward) = .ok awkward ∧
    (∃ c, parse (encodeBytes { awkward with nodes := [] }) = .error c ∧
      c.failure.kind = "CorruptStoreError") ∧
    parse (encodeBytes Graph.empty) = .ok Graph.empty :=
  ⟨(parse_encodeBytes awkward).1 (by decide),
    (parse_encodeBytes { awkward with nodes := [] }).2.1 (by decide),
    ((parse_encodeBytes Graph.empty).2.2 [10] rfl).2⟩

end LineFile

end GraphKeeper

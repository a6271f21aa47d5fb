/-
  A call as a line of text, made from the text of its arguments.

  The arguments are put into the line as they are written, with newlines as blanks, and are read
  there as the same value (`Json.readValue_elsewhere`): one object is open around them, so they may
  be nested one level less than the reader goes.  The line begins with a brace and ends in one, so
  trimming leaves it alone.  The main theorem is `decodeText_callLine`.
-/
import GraphKeeper.Proofs.TextParts
import GraphKeeper.Proofs.TextsInPlace
import GraphKeeper.Tool.Reply

namespace GraphKeeper

open Json

namespace Tool

/-- The characters of a call, between the braces. -/
def callChars (tool arguments : String) : List Char :=
  stringChars "name" ++ ':' :: stringChars tool ++ ',' :: stringChars "arguments" ++
    ':' :: onOneLine arguments.toList

/-- The line of a call. -/
def callLine (tool arguments : String) : String :=
  String.ofList ('\x7b' :: callChars tool arguments ++ ['\x7d'])

/-- **A call is one line**, as newlines in texts are escapes and those between them are blanks. -/
theorem newline_not_mem_callLine (tool arguments : String) :
    '\n' ∉ (callLine tool arguments).toList := by
  have hname := newline_not_mem_stringChars "name"
  have htool := newline_not_mem_stringChars tool
  have hfield := newline_not_mem_stringChars "arguments"
  have harguments := newline_not_mem_onOneLine arguments.toList
  simp only [callLine, callChars, String.toList_ofList, List.mem_cons, List.mem_append, hname,
    htool, hfield, harguments, Char.reduceEq, List.not_mem_nil, or_self, not_false_iff]

theorem callLine_ne_empty (tool arguments : String) : callLine tool arguments ≠ "" := by
  rw [callLine, Ne, String.ofList_eq_empty_iff]
  exact nofun

/-- It has no blanks at its ends. -/
theorem trim_callLine (tool arguments : String) :
    Text.trim (callLine tool arguments) = callLine tool arguments :=
  Text.trim_eq_self (by decide) (by decide)

/-! ## Reading the line -/

/-- Where nothing is left behind the blanks, there are only blanks. -/
theorem isSpace_of_skipSpaces_eq_nil {cs : List Char} (h : skipSpaces cs = []) :
    ∀ c ∈ cs, isSpace c = true := by
  have hcs : cs.takeWhile isSpace ++ skipSpaces cs = cs := List.takeWhile_append_dropWhile
  rw [h, List.append_nil] at hcs
  rw [← hcs]
  exact List.all_eq_true.mp List.all_takeWhile

/-- The arguments in the line, with the brace behind them. -/
theorem readValue_arguments {arguments : String} {o : Outline}
    (h : readOutline arguments = (o, [])) (ho : o.Whole) {fuel depth : Nat}
    (hfuel : fuelFor arguments.toList ≤ fuel) (hdepth : depth + o.height ≤ depthLimit) :
    ∃ blanks, (∀ c ∈ blanks, isSpace c = true) ∧
      readValue fuel depth (onOneLine arguments.toList ++ ['\x7d']) = (o, blanks ++ ['\x7d']) := by
  rcases hread : readValue (fuelFor arguments.toList) 0 arguments.toList with ⟨o', rest⟩
  rw [readOutline, hread] at h
  obtain ⟨rfl, hrest⟩ := Prod.mk.inj h
  have hblanks := isSpace_of_mem_onOneLine (isSpace_of_skipSpaces_eq_nil hrest)
  obtain ⟨used, hcs, hmore⟩ := readValue_elsewhere hread ho
  refine ⟨onOneLine rest, hblanks, ?_⟩
  rw [hcs, onOneLine_append, List.append_assoc]
  exact hmore fuel depth _ hfuel hdepth
    (endsNumber_blanks hblanks (endsNumber_cons (by decide)))

/-- **The line is read as an object with the name and the arguments.** -/
theorem readOutline_callLine {tool arguments : String} {o : Outline}
    (h : readOutline arguments = (o, [])) (ho : o.Whole) (hheight : o.height < depthLimit) :
    readOutline (callLine tool arguments) =
      (.obj false (.entry (.ok "name") (.str tool) (.entry (.ok "arguments") o .done)), []) := by
  have htext : (callLine tool arguments).toList =
      '\x7b' :: '"' :: ("name".toList.flatMap escapeChar ++ '"' :: ':' :: (stringChars tool ++
        ',' :: '"' :: ("arguments".toList.flatMap escapeChar ++
          '"' :: ':' :: (onOneLine arguments.toList ++ ['\x7d'])))) := by
    simp only [callLine, callChars, stringChars, String.toList_ofList, List.cons_append,
      List.append_assoc, List.nil_append]
  have hlength : arguments.toList.length + 2 ≤ (callLine tool arguments).toList.length := by
    rw [htext]
    simp only [List.length_cons, List.length_append, onOneLine, List.length_map]
    omega
  -- Two steps for each of the members, and one for the object.
  obtain ⟨r, hr⟩ : ∃ r, fuelFor (callLine tool arguments).toList = r + 5 :=
    Nat.exists_eq_add_of_le' (by rw [fuelFor]; omega)
  have hfuel : fuelFor arguments.toList ≤ r := by
    rw [fuelFor] at hr ⊢
    omega
  obtain ⟨k, rfl⟩ : ∃ k, r = k + 1 := Nat.exists_eq_add_of_le' (by rw [fuelFor] at hfuel; omega)
  obtain ⟨blanks, hblanks, harguments⟩ :=
    readValue_arguments h ho hfuel (show 1 + o.height ≤ depthLimit by omega)
  -- The reading is put together from its end: the brace, the arguments in front of it, and the name
  -- in front of them.
  have hclose : readEntries (k + 1) 1 false (blanks ++ ['\x7d']) = (.done, []) := by
    rw [readEntries_blanks hblanks, readEntries_close]
  have hsecond : readEntries (k + 3) 1 false (',' :: '"' ::
      ("arguments".toList.flatMap escapeChar ++
        '"' :: ':' :: (onOneLine arguments.toList ++ ['\x7d']))) =
      (.entry (.ok "arguments") o .done, []) :=
    readEntries_next.trans (readEntry_member harguments hclose)
  have hfirst : readEntries (k + 5) 1 true ('"' :: ("name".toList.flatMap escapeChar ++
      '"' :: ':' :: (stringChars tool ++ ',' :: '"' :: ("arguments".toList.flatMap escapeChar ++
        '"' :: ':' :: (onOneLine arguments.toList ++ ['\x7d']))))) =
      (.entry (.ok "name") (.str tool) (.entry (.ok "arguments") o .done), []) :=
    readEntries_first.trans (readEntry_member (readValue_string tool) hsecond)
  rw [readOutline, hr, htext, readValue_object (by decide) hfirst]
  rfl

/-- A call whose arguments are a value. -/
theorem Call.decoder_entries {tool : String} {o : Outline} {v : Json} (h : o.toJson = .ok v) :
    Call.decoder .text (.obj false (.entry (.ok "name") (.str tool)
      (.entry (.ok "arguments") o .done))) = .ok ⟨tool, v⟩ := by
  have hjson : Decoder.json .text o = .ok v := by
    rw [Decoder.json, h]
    rfl
  have hcheck : (Field.spare "arguments" .json).check .text o = .ok () := by
    show (Decoder.json .text o).map _ = _
    rw [hjson]
    rfl
  -- The check of the name computes; that of the arguments is a reading of their value.
  have hread : Call.shape.read .text (.obj false (.entry (.ok "name") (.str tool)
      (.entry (.ok "arguments") o .done))) = .ok [("name", .str tool), ("arguments", o)] := by
    show (do
      (Field.spare "arguments" .json).check .text o
      Except.ok _) = _
    rw [hcheck]
    rfl
  rw [Call.decoder, hread]
  show (do
    let arguments ← Decoder.json .text o
    Except.ok (Call.mk tool arguments)) = _
  rw [hjson]
  rfl

/-- **The line of a call is read as the call**, if its arguments leave room for one object around
them. -/
theorem decodeText_callLine {tool arguments : String} {v : Json} (h : parse arguments = .ok v)
    (hheight : (readOutline arguments).1.height < depthLimit) :
    decodeText Call.decoder (callLine tool arguments) = .ok ⟨tool, v⟩ := by
  rcases hread : readOutline arguments with ⟨o, rest⟩
  rw [parse, hread] at h
  rw [hread] at hheight
  obtain ⟨w, hw, h⟩ := bind_eq_ok_iff.mp h
  cases rest with
  | cons c rest => nomatch h
  | nil =>
    cases h
    have hwhole := Outline.whole_of_toJson hw
    rw [decodeText, readOutline_callLine hread hwhole hheight]
    show (Call.decoder .text _ >>= _) = _
    rw [Call.decoder_entries hw]
    rfl

end Tool

end GraphKeeper

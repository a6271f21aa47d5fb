/-
  The lines of an input are served one after another.

  An input is cut into pieces at its newline bytes; a line is a piece with the newline byte that
  ends it (`lines_eq_ended`).  That byte makes no difference to the request in a line
  (`requests_leadingTexts_ended`), and what stands behind the last newline byte is a blank line if
  it is empty, so it is enough to look at the pieces.

  The specification knows neither bytes nor faults: `requests` picks what is left of the lines of
  a text that are not blank, and `handleAll` hands each request the session that those in front of
  it have left.  An input that is not text throughout is served up to the first piece that is none
  (`leadingTexts`).  Serving is this fold by induction on the lines (`serveFrom_eq`).

  Serving counts as it goes along.  The count that it returns is the one that it started from and
  one for each reply (`eq_add_length_of_handled`), and it returns none at all if some line is no
  text (`exists_fault_serveFrom`).

  The answers stand on lines of their own because the text of a JSON value has no line break in it
  (`Json.newline_not_mem_chars`): cut at its newlines, the output gives the answers back
  (`textLines_join_replyLine`).  The main theorem is `serve_eq_handleAll`.
-/
import GraphKeeper.CommandLine
import GraphKeeper.Proofs.JsonText
import GraphKeeper.Proofs.TextParts
import GraphKeeper.Proofs.Utf8

namespace GraphKeeper

namespace Session

open Text.Utf8 Tool

/-! ## Lines and pieces -/

/-- The pieces of an input, each but the last with the newline byte behind it; nothing stands for
the last one if it is empty. -/
def ended : List Bytes → List Bytes
  | [] => []
  | [piece] => if piece = [] then [] else [piece]
  | piece :: pieces => (piece ++ [10]) :: ended pieces

/-- The lines of an input are its pieces, each with the newline byte that ends it. -/
theorem lines_eq_ended (input : Bytes) : lines input = ended (input.splitOn 10) := by
  induction input with
  | nil => rfl
  | cons b bs ih =>
    obtain ⟨piece, pieces, hpieces⟩ := List.exists_cons_of_ne_nil (List.splitOn_ne_nil 10 bs)
    rw [lines, List.splitOn_cons_eq_if_modifyHead, ih, hpieces]
    -- A newline byte ends a line of its own; any other byte belongs to the first line of the rest.
    by_cases hb : b = 10
    · rw [if_pos hb, if_pos (beq_iff_eq.mpr hb), hb]
      rfl
    · rw [if_neg hb, if_neg (mt beq_iff_eq.mp hb), List.modifyHead_cons]
      cases pieces with
      | nil => by_cases hpiece : piece = [] <;> simp [ended, hpiece]
      | cons next pieces => rfl

/-! ## What is to be answered -/

/-- Bytes that encode a text. -/
def IsText (bs : Bytes) : Prop := ∃ t, decode bs = .ok t

/-- The texts of pieces up to the first that is none. -/
def leadingTexts : List Bytes → List String
  | [] => []
  | piece :: pieces =>
    match decode piece with
    | .ok t => t :: leadingTexts pieces
    | .error _ => []

/-- The lines of a text, without the newlines. -/
def textLines (text : String) : List String := (text.toList.splitOn '\n').map String.ofList

/-- The requests in lines: what is left of the lines that are not blank. -/
def requests (ls : List String) : List String := (ls.map Text.trim).filter (· ≠ "")

/-- Answers requests, each in the session that those in front of it have left. -/
def handleAll (s : Session) : List String → List Reply × Session
  | [] => ([], s)
  | request :: rest =>
    let (reply, s) := s.handleLine request
    let (replies, s) := handleAll s rest
    (reply :: replies, s)

theorem handleAll_cons (s : Session) (request : String) (rest : List String) :
    s.handleAll (request :: rest) =
      ((s.handleLine request).1 :: ((s.handleLine request).2.handleAll rest).1,
        ((s.handleLine request).2.handleAll rest).2) := rfl

/-- A blank line is no request. -/
theorem requests_cons_of_blank {l : String} (h : Text.isBlank l = true) (ls : List String) :
    requests (l :: ls) = requests ls := by
  rw [requests, List.map_cons, (Text.trim_eq_empty_iff l).mpr h]
  rfl

/-- Any other line is one, without the blanks at its ends. -/
theorem requests_cons {l : String} (h : Text.isBlank l = false) (ls : List String) :
    requests (l :: ls) = Text.trim l :: requests ls := by
  have hl : Text.trim l ≠ "" := fun hempty => by
    rw [(Text.trim_eq_empty_iff l).mp hempty] at h
    nomatch h
  exact List.filter_cons_of_pos (decide_eq_true hl)

/-- The newlines that end lines do not matter to the requests in them. -/
theorem requests_cons_newline (l : String) {ls ls' : List String}
    (h : requests ls = requests ls') : requests ((l ++ "\n") :: ls) = requests (l :: ls') := by
  have hnewline : Text.isBlank "\n" = true := by decide
  have hblank : Text.isBlank (l ++ "\n") = Text.isBlank l :=
    Text.isBlank_append_of_isBlank hnewline l
  cases hl : Text.isBlank l with
  | true => rw [requests_cons_of_blank (hblank.trans hl), requests_cons_of_blank hl, h]
  | false =>
    rw [requests_cons (hblank.trans hl), requests_cons hl,
      Text.trim_append_of_isBlank hnewline, h]

/-- There is a request for each line that is not blank. -/
theorem length_requests (ls : List String) :
    (requests ls).length = ls.countP fun l => !Text.isBlank l := by
  induction ls with
  | nil => rfl
  | cons l ls ih =>
    cases hl : Text.isBlank l with
    | true => rw [requests_cons_of_blank hl, ih, List.countP_cons_of_neg (by simp [hl])]
    | false => rw [requests_cons hl, List.length_cons, ih, List.countP_cons_of_pos (by simp [hl])]

/-- Each request gets a reply, be it a refusal. -/
theorem length_handleAll (requests : List String) :
    ∀ s : Session, (s.handleAll requests).1.length = requests.length := by
  induction requests with
  | nil => exact fun _ => rfl
  | cons request rest ih => exact fun s => congrArg (· + 1) (ih (s.handleLine request).2)

/-! ## Serving -/

section Answer

variable {s : Session} {l : Bytes} {t : String}

theorem answer_of_fault {fault : Fault} (h : decode l = .error fault) :
    s.answer l = .error fault := by
  rw [answer, h]
  rfl

theorem answer_of_blank (h : decode l = .ok t) (hblank : Text.isBlank t = true) :
    s.answer l = .ok (none, s) := by
  rw [answer, h]
  exact if_pos hblank

theorem answer_of_request (h : decode l = .ok t) (hblank : Text.isBlank t = false) :
    s.answer l =
      .ok (some (s.handleLine (Text.trim t)).1, (s.handleLine (Text.trim t)).2) := by
  rw [answer, h]
  exact if_neg (by rw [hblank]; exact Bool.false_ne_true)

end Answer

/-- **Serving is a fold**, over the requests in front of the first line that is no text, whatever
number it counts from. -/
theorem serveFrom_eq (ls : List Bytes) : ∀ (s : Session) (start : Nat),
    ((s.serveFrom start ls).replies, (s.serveFrom start ls).session) =
      s.handleAll (requests (leadingTexts ls)) := by
  induction ls with
  | nil => exact fun _ _ => rfl
  | cons l ls ih =>
    intro s start
    -- Serving and the fold take the same three ways: they stop, pass the line over, or answer it.
    cases hl : decode l with
    | error fault =>
      simp only [serveFrom, leadingTexts, hl, answer_of_fault hl]
      rfl
    | ok t =>
      cases hblank : Text.isBlank t with
      | true =>
        simp only [serveFrom, leadingTexts, hl, answer_of_blank hl hblank]
        rw [requests_cons_of_blank hblank]
        exact ih s start
      | false =>
        have hrest := ih (s.handleLine (Text.trim t)).2 (start + 1)
        simp only [serveFrom, leadingTexts, hl, answer_of_request hl hblank]
        rw [requests_cons hblank, handleAll_cons, ← hrest]

/-- **The count is kept with the replies**: serving adds one to it for each of them. -/
theorem eq_add_length_of_handled (ls : List Bytes) : ∀ (s : Session) (start : Nat) {handled : Nat},
    (s.serveFrom start ls).handled = .ok handled →
      handled = start + (s.serveFrom start ls).replies.length := by
  induction ls with
  | nil => exact fun _ _ _ h => (Except.ok.inj h).symm
  | cons l ls ih =>
    intro s start handled h
    rw [serveFrom] at h ⊢
    cases hanswer : s.answer l with
    | error fault =>
      rw [hanswer] at h
      nomatch h
    | ok r =>
      obtain ⟨_ | reply, next⟩ := r
      · -- A line without a reply is not counted.
        rw [hanswer] at h
        exact ih next start h
      · -- The line was counted when it was answered, before the rest was looked at.
        rw [hanswer] at h
        have hrest := ih next (start + 1) h
        rw [hrest, Nat.add_assoc, Nat.add_comm 1]
        rfl

/-- Serving returns no count exactly if some line is no text. -/
theorem exists_fault_serveFrom (ls : List Bytes) : ∀ (s : Session) (start : Nat),
    (∃ fault, (s.serveFrom start ls).handled = .error fault) ↔ ∃ l ∈ ls, ¬ IsText l := by
  induction ls with
  | nil => exact fun _ _ => ⟨fun ⟨_, h⟩ => (nomatch h), fun ⟨_, h, _⟩ => nomatch h⟩
  | cons l ls ih =>
    intro s start
    cases hl : decode l with
    | error fault =>
      have hnot : ¬ IsText l := fun ⟨_, h⟩ => nomatch hl.symm.trans h
      simp only [serveFrom, answer_of_fault hl]
      exact iff_of_true ⟨fault, rfl⟩ ⟨l, List.mem_cons_self, hnot⟩
    | ok t =>
      have htext : IsText l := ⟨t, hl⟩
      simp only [List.mem_cons, exists_eq_or_imp, htext, not_true_eq_false, false_or]
      cases hblank : Text.isBlank t with
      | true =>
        simp only [serveFrom, answer_of_blank hl hblank]
        exact ih s start
      | false =>
        simp only [serveFrom, answer_of_request hl hblank]
        exact ih _ _

/-! ## Lines of pieces -/

/-- A newline byte completes no text and spoils none. -/
theorem isText_ended_iff {piece : Bytes} : IsText (piece ++ [10]) ↔ IsText piece := by
  cases hpiece : decode piece with
  | ok t => exact iff_of_true ⟨_, decode_newline_of_ok hpiece⟩ ⟨t, hpiece⟩
  | error fault =>
    obtain ⟨fault', hline⟩ := decode_newline_of_error hpiece
    exact iff_of_false (fun ⟨_, h⟩ => nomatch hline.symm.trans h)
      fun ⟨_, h⟩ => nomatch hpiece.symm.trans h

theorem exists_not_isText_ended (pieces : List Bytes) :
    (∃ l ∈ ended pieces, ¬ IsText l) ↔ ∃ piece ∈ pieces, ¬ IsText piece := by
  induction pieces with
  | nil => rfl
  | cons piece pieces ih =>
    cases pieces with
    | nil =>
      by_cases hpiece : piece = []
      · have hempty : IsText [] := ⟨"", rfl⟩
        simp [ended, hpiece, hempty]
      · simp [ended, hpiece]
    | cons next pieces =>
      rw [ended, List.exists_mem_cons_iff, List.exists_mem_cons_iff, isText_ended_iff, ih]
      exact List.cons_ne_nil _ _

/-- **The newline bytes that end lines do not matter to the requests in them.** -/
theorem requests_leadingTexts_ended (pieces : List Bytes) :
    requests (leadingTexts (ended pieces)) = requests (leadingTexts pieces) := by
  induction pieces with
  | nil => rfl
  | cons piece pieces ih =>
    -- The last piece has no newline byte behind it, and is no line if it is empty.
    cases pieces with
    | nil =>
      by_cases hpiece : piece = []
      · rw [hpiece]
        rfl
      · rw [ended, if_neg hpiece]
    | cons next pieces =>
      rw [ended, leadingTexts, leadingTexts.eq_2 piece]
      · cases hpiece : decode piece with
        | ok t =>
          rw [decode_newline_of_ok hpiece]
          exact requests_cons_newline t ih
        | error fault =>
          obtain ⟨fault', hline⟩ := decode_newline_of_error hpiece
          rw [hline]
      · exact List.cons_ne_nil _ _

/-- The pieces of the bytes of a text are the lines of the text. -/
theorem leadingTexts_splitOn_encode (text : String) :
    leadingTexts ((encode text).splitOn 10) = textLines text := by
  rw [encode, splitOn_flatMap_encodeChar, textLines]
  induction text.toList.splitOn '\n' with
  | nil => rfl
  | cons l ls ih =>
    rw [List.map_cons, List.map_cons, leadingTexts, decode, decodeFrom_flatMap, ← ih]
    rfl

theorem isText_of_mem_splitOn_encode {text : String} {piece : Bytes}
    (h : piece ∈ (encode text).splitOn 10) : IsText piece := by
  rw [encode, splitOn_flatMap_encodeChar] at h
  obtain ⟨l, _, rfl⟩ := List.mem_map.mp h
  exact ⟨String.ofList l, by rw [decode, decodeFrom_flatMap]; rfl⟩

/-! ## The output -/

/-- A reply has no line break in it, as those of its texts are written as escapes. -/
theorem newline_not_mem_render (r : Reply) : '\n' ∉ r.toJson.render.toList := by
  rw [Json.render, String.toList_ofList]
  exact Json.newline_not_mem_chars _

/-- Lines that are written one below the other are the lines of that text. -/
theorem textLines_join {ls : List String} (h : ∀ l ∈ ls, '\n' ∉ l.toList) :
    textLines (String.join (ls.map (· ++ "\n"))) = ls ++ [""] := by
  rw [textLines, String.toList_join]
  induction ls with
  | nil => rfl
  | cons l ls ih =>
    obtain ⟨hl, hls⟩ := List.forall_mem_cons.mp h
    have hcons : (l ++ "\n").toList = l.toList ++ ['\n'] := String.toList_append
    rw [List.map_cons, List.flatMap_cons, hcons, List.append_assoc, List.singleton_append,
      List.splitOn_append_cons_self_of_not_mem hl, List.map_cons, ih hls, String.ofList_toList]
    rfl

/-- **Cut at its newlines, an output gives the answers back.** -/
theorem textLines_join_replyLine (replies : List Reply) :
    textLines (String.join (replies.map replyLine)) =
      replies.map (·.toJson.render) ++ [""] := by
  have hlines : replies.map replyLine = (replies.map (·.toJson.render)).map (· ++ "\n") := by
    rw [List.map_map]
    rfl
  rw [hlines]
  refine textLines_join fun l hl => ?_
  obtain ⟨r, _, rfl⟩ := List.mem_map.mp hl
  exact newline_not_mem_render r

/-- An output ends each of its lines, so it has as many newlines as replies. -/
theorem count_newline_join_replyLine (replies : List Reply) :
    (String.join (replies.map replyLine)).toList.count '\n' = replies.length := by
  rw [String.toList_join]
  induction replies with
  | nil => rfl
  | cons r replies ih =>
    have hline : (replyLine r).toList = r.toJson.render.toList ++ ['\n'] := String.toList_append
    have hnone : r.toJson.render.toList.count '\n' = 0 :=
      List.count_eq_zero.mpr (newline_not_mem_render r)
    rw [List.map_cons, List.flatMap_cons, List.count_append, ih, hline, List.count_append, hnone,
      List.length_cons, Nat.add_comm replies.length]
    rfl

/-! ## Inputs -/

/-- What it means that lines of text are answered as they stand in an input. -/
structure Answers (s : Session) (ls : List String) (input : Bytes) : Prop where
  /-- The replies and the session are those of the requests, taken one after another. -/
  fold : ((s.serve (lines input)).replies, (s.serve (lines input)).session) =
    s.handleAll (requests ls)
  /-- There is a reply for each line that is not blank. -/
  count : (s.serve (lines input)).replies.length = ls.countP fun l => !Text.isBlank l
  /-- No reply has a line break in it. -/
  oneLine : ∀ r ∈ (s.serve (lines input)).replies, '\n' ∉ r.toJson.render.toList
  /-- The output holds the replies, one a line. -/
  output : textLines (CommandLine.serveInput s input).output =
    (s.serve (lines input)).replies.map (·.toJson.render) ++ [""]
  /-- A count that is returned is that of the lines that are not blank, and that of the lines of
  the output. -/
  handled : ∀ handled, (s.serve (lines input)).handled = .ok handled →
    handled = (ls.countP fun l => !Text.isBlank l) ∧
      handled = (CommandLine.serveInput s input).output.toList.count '\n'

/-- **The lines in front of the first one that is no text are answered as they stand.** -/
theorem answers_leadingTexts (s : Session) (input : Bytes) :
    s.Answers (leadingTexts (input.splitOn 10)) input := by
  have hfold : ((s.serve (lines input)).replies, (s.serve (lines input)).session) =
      s.handleAll (requests (leadingTexts (input.splitOn 10))) := by
    rw [serve, serveFrom_eq, lines_eq_ended, requests_leadingTexts_ended]
  have hcount : (s.serve (lines input)).replies.length =
      (leadingTexts (input.splitOn 10)).countP fun l => !Text.isBlank l := by
    rw [← length_requests, ← length_handleAll _ s, ← hfold]
  refine ⟨hfold, hcount, fun r _ => newline_not_mem_render r, textLines_join_replyLine _, ?_⟩
  intro handled h
  have hreplies : handled = (s.serve (lines input)).replies.length :=
    (eq_add_length_of_handled _ s 0 h).trans (Nat.zero_add _)
  exact ⟨hreplies.trans hcount, hreplies.trans (count_newline_join_replyLine _).symm⟩

theorem exists_fault_serve_lines (s : Session) (input : Bytes) :
    (∃ fault, (s.serve (lines input)).handled = .error fault) ↔
      ∃ piece ∈ input.splitOn 10, ¬ IsText piece := by
  rw [serve, exists_fault_serveFrom, lines_eq_ended, exists_not_isText_ended]

/-- An input that is text is answered throughout, and its lines that are not blank are counted. -/
theorem answers_textLines (s : Session) (text : String) :
    s.Answers (textLines text) (encode text) ∧
      (s.serve (lines (encode text))).handled =
        .ok ((textLines text).countP fun l => !Text.isBlank l) := by
  have hanswers : s.Answers (textLines text) (encode text) :=
    leadingTexts_splitOn_encode text ▸ answers_leadingTexts s (encode text)
  refine ⟨hanswers, ?_⟩
  cases hhandled : (s.serve (lines (encode text))).handled with
  | ok handled => rw [(hanswers.handled handled hhandled).1]
  | error fault =>
    obtain ⟨piece, hmem, hnot⟩ := (exists_fault_serve_lines s (encode text)).mp ⟨fault, hhandled⟩
    exact absurd (isText_of_mem_splitOn_encode hmem) hnot

/-- **A session answers its input line by line.**  An input that is text has every line answered
that is not blank, and the number of these lines is returned, which is also that of the lines of the
output.  Any other input is answered up to the first piece that is no text, and ends in a fault. -/
theorem serve_eq_handleAll (s : Session) :
    (∀ text : String, s.Answers (textLines text) (encode text) ∧
      (s.serve (lines (encode text))).handled =
        .ok ((textLines text).countP fun l => !Text.isBlank l)) ∧
    ∀ input : Bytes, s.Answers (leadingTexts (input.splitOn 10)) input ∧
      ((∃ fault, (s.serve (lines input)).handled = .error fault) ↔
        ∃ piece ∈ input.splitOn 10, ¬ IsText piece) ∧
      ((CommandLine.serveInput s input).code = 1 ↔ ∃ piece ∈ input.splitOn 10, ¬ IsText piece) := by
  refine ⟨answers_textLines s, fun input => ?_⟩
  have hfault := exists_fault_serve_lines s input
  have hcode : (CommandLine.serveInput s input).code = 1 ↔
      ∃ fault, (s.serve (lines input)).handled = .error fault := by
    rw [CommandLine.serveInput]
    cases (s.serve (lines input)).handled with
    | ok handled => exact ⟨(nomatch ·), fun ⟨_, h⟩ => nomatch h⟩
    | error fault => exact iff_of_true rfl ⟨fault, rfl⟩
  exact ⟨answers_leadingTexts s input, hfault, hcode.trans hfault⟩

end Session

end GraphKeeper

/-
  A session: calls of the tools of a catalog on one store, one after another.

  Calls come as lines of text, one call a line, and each is answered with one line.  A line that is
  no call is answered with an error too, so a session goes on whatever the lines hold; blank lines
  are passed over.  Only bytes that are no text end it.
-/
import GraphKeeper.Tool.Catalog

namespace GraphKeeper

/-- The tools, the store they work on, and the disk. -/
structure Session where
  catalog : Catalog
  store : Store
  disk : Disk
deriving Repr

namespace Session

open Tool

/-! ## Calls -/

/-- Makes a call: its response or failure, and the session after it. -/
def call (s : Session) (c : Call) : Except Failure Response × Session :=
  match s.catalog.request c with
  | .error failure => (.error failure, s)
  | .ok request =>
    let (result, store, disk) := request.run s.store s.disk
    (result, { s with store, disk })

/-- Makes a call and answers it. -/
def dispatch (s : Session) (c : Call) : Reply × Session :=
  let (result, s) := s.call c
  (.ofResult c.name result, s)

/-- The name that stands for the tool in the answer to a line that is no call. -/
def lineOperation : String := "request"

/-- Answers the call that a text holds. -/
def handleLine (s : Session) (line : String) : Reply × Session :=
  match Json.decodeText Call.decoder line with
  | .ok c => s.dispatch c
  | .error e =>
    (.error (.ofFailure lineOperation (.invalidArgument lineOperation e.message)), s)

/-! ## Lines -/

/-- The lines of a content, each with the newline byte that ends it. -/
def lines : Bytes → List Bytes
  | [] => []
  | b :: bs =>
    if b = 10 then [b] :: lines bs
    else
      match lines bs with
      | [] => [[b]]
      | l :: ls => (b :: l) :: ls

/-- Answers one line of bytes; a blank line has no answer. -/
def answer (s : Session) (line : Bytes) :
    Except Text.Utf8.Fault (Option Reply × Session) := do
  let text ← Text.Utf8.decode line
  if Text.isBlank text then return (none, s)
  let (reply, s) := s.handleLine (Text.trim text)
  return (some reply, s)

/-- What came of serving lines: the answers, the session after them, and the number of lines that
were answered.  Lines that are no text end the serving, and there is no number then. -/
structure Served where
  replies : List Reply
  session : Session
  handled : Except Text.Utf8.Fault Nat

/-- Answers lines one after another; `handled` is the number of lines that were answered in front
of them. -/
def serveFrom (s : Session) (handled : Nat) : List Bytes → Served
  | [] => ⟨[], s, .ok handled⟩
  | line :: lines =>
    match s.answer line with
    | .error fault => ⟨[], s, .error fault⟩
    | .ok (none, s) => serveFrom s handled lines
    | .ok (some reply, s) =>
      let rest := serveFrom s (handled + 1) lines
      { rest with replies := reply :: rest.replies }

/-- Answers lines one after another. -/
def serve (s : Session) (lines : List Bytes) : Served := s.serveFrom 0 lines

/-- The text of a reply on a line of its own. -/
def replyLine (r : Reply) : String := r.toJson.render ++ "\n"

end Session

end GraphKeeper

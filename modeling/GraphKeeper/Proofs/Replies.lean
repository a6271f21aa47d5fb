/-
  Replies come back from the wire as they were sent.

  A reply is written without a mark of what it is, and whoever reads it tries an error first.  The
  two are not mixed up because the member `isError` stands in every error and in no response: the
  reader of errors passes over all members of a response and then misses this one
  (`Response.decodeError_toJson`).  A member that is left out when there is nothing to tell is read
  as nothing.  So a reply comes back whatever its texts are, if its payload does
  (`Reply.decodeText_render`).

  The payload of a response is what `Payloads` is about.  That of an error holds texts alone, since
  no call fails because of a line of the graph file (`CallFailures`).

  A word counts the edges of the graph and the items of an array in memory.  That is asked of a call
  here (`Session.Countable`), since lists have no bound and a greater count would be read as a
  double.
-/
import GraphKeeper.Proofs.Arguments
import GraphKeeper.Proofs.CallFailures
import GraphKeeper.Proofs.JsonSchemas
import GraphKeeper.Proofs.Payloads

namespace GraphKeeper

open Json

namespace Tool

/-! ## Members that may be left out -/

section Optional

variable {src : Source} {ms : Members} {key name : String}

/-- A member that may be left out is found under its name alone, with what there is to tell. -/
theorem get?_optionalMember (payload : Option Json) :
    Members.get? (optionalMember key payload) name = if name = key then payload else none := by
  rw [optionalMember, Members.get?_toList payload fun v => v, Option.map_id']

/-- So is a list of texts, which is left out when it is empty. -/
theorem get?_textsMember (texts : List String) :
    Members.get? (textsMember key texts) name =
      if name = key ∧ texts ≠ [] then some (.ofStrings texts) else none := by
  cases texts with
  | nil => exact (if_neg fun h => h.2 rfl).symm
  | cons text texts =>
    show Members.get? [(key, .ofStrings (text :: texts))] name = _
    rw [Members.get?_cons]
    simp [Members.get?]

theorem mem_optionalMember {payload : Option Json} {m : String × Json}
    (h : m ∈ optionalMember key payload) : ∃ v ∈ payload, m = (key, v) := by
  cases payload with
  | none => nomatch h
  | some v => exact ⟨v, rfl, List.mem_singleton.mp h⟩

theorem mem_textsMember {texts : List String} {m : String × Json} (h : m ∈ textsMember key texts) :
    m = (key, .ofStrings texts) := by
  cases texts with
  | nil => nomatch h
  | cons text texts => exact List.mem_singleton.mp h

theorem keys_optionalMember (key : String) (payload : Option Json) :
    (optionalMember key payload).keys.Sublist [key] := by
  cases payload with
  | none => exact List.nil_sublist _
  | some v => exact List.Sublist.refl _

theorem keys_textsMember (key : String) (texts : List String) :
    (textsMember key texts).keys.Sublist [key] := by
  cases texts with
  | nil => exact List.nil_sublist _
  | cons text texts => exact List.Sublist.refl _

/-- A value that is not `null` is read back where there may be none. -/
theorem optional_ofJson {v : Json} (hnull : v.isNull = false) (hv : v.Portable 4) :
    Decoder.optional .json src (.ofJson v) = .ok (some v) := by
  have hread : Decoder.json src (.ofJson v) = .ok v := by
    rw [Decoder.json, hv.toJson_ofJson]
    rfl
  unfold Decoder.optional
  -- `null` is what stands for none, so a value that was `null` would come back as none.
  split
  · rename_i ho
    cases v with
    | null => cases hnull
    | _ => cases ho
  · rw [hread]
    rfl

/-- **A payload is read back, and so is that there is none.** -/
theorem orElse_payload {payload : Option Json} (h : Carried payload) (hms : ms.get? key = payload) :
    (Shape.valuesOf ms).orElse key src (.optional .json) none = .ok payload := by
  rw [FieldValues.orElse, Shape.lookup_valuesOf, hms]
  cases payload with
  | none => rfl
  | some v => exact optional_ofJson (h v rfl).1 (h v rfl).2

/-- **Texts are read back, and so is that there are none.** -/
theorem orElse_texts {texts : List String}
    (hms : ms.get? key = if texts ≠ [] then some (.ofStrings texts) else none) :
    (Shape.valuesOf ms).orElse key src (.list .string) [] = .ok texts := by
  rw [FieldValues.orElse, Shape.lookup_valuesOf, hms]
  cases texts with
  | nil => rfl
  | cons text texts => exact list_ofStrings src (text :: texts)

end Optional

/-! ## Errors -/

namespace ErrorReply

variable {src : Source}

/-- The members that an error is written as. -/
def members (e : ErrorReply) : Members :=
  [("isError", .bool e.isError), ("operation", .str e.operation), ("error", .str e.error)] ++
    optionalMember "context" e.context ++ textsMember "suggestions" e.suggestions ++
    textsMember "recoverySteps" e.recovery

theorem nodup_keys_members (e : ErrorReply) : e.members.keys.Nodup := by
  -- What may be left out only makes the list of keys shorter, so it is enough that the keys differ
  -- when nothing is left out.
  have hkeys : e.members.keys.Sublist (["isError", "operation", "error"] ++ ["context"] ++
      ["suggestions"] ++ ["recoverySteps"]) := by
    simp only [members, Members.keys, List.map_append]
    exact (((List.Sublist.refl _).append (keys_optionalMember _ _)).append
      (keys_textsMember _ _)).append (keys_textsMember _ _)
  exact hkeys.nodup (by decide)

/-- A member of an error is a text or the mark of the error, its payload, or a list of texts. -/
theorem mem_members {e : ErrorReply} {m : String × Json} (h : m ∈ e.members) :
    (m = ("isError", .bool e.isError) ∨ m = ("operation", .str e.operation) ∨
      m = ("error", .str e.error)) ∨ (∃ v ∈ e.context, m = ("context", v)) ∨
      m = ("suggestions", .ofStrings e.suggestions) ∨
      m = ("recoverySteps", .ofStrings e.recovery) := by
  rcases List.mem_append.mp h with h | h
  · rcases List.mem_append.mp h with h | h
    · rcases List.mem_append.mp h with h | h
      · exact Or.inl (by simpa using h)
      · exact Or.inr (Or.inl (mem_optionalMember h))
    · exact Or.inr (Or.inr (Or.inl (mem_textsMember h)))
  · exact Or.inr (Or.inr (Or.inr (mem_textsMember h)))

/-- What the reader of errors finds are the members of the error. -/
theorem read_toJson {e : ErrorReply} (h : Carried e.context) :
    shape.read src (.ofJson e.toJson) = .ok (Shape.valuesOf e.members) := by
  have hkeys : (List.map Prod.fst ([] : FieldValues) ++ e.members.keys).Nodup :=
    e.nodup_keys_members
  refine Shape.readEntries_ofMembers hkeys fun m hm => ?_
  rcases mem_members hm with (rfl | rfl | rfl) | ⟨v, hv, rfl⟩ | rfl | rfl
  · exact ⟨_, rfl, rfl⟩
  · exact ⟨_, rfl, rfl⟩
  · exact ⟨_, rfl, rfl⟩
  · exact ⟨_, rfl, Field.check_fixed _ (optional_ofJson (h v hv).1 (h v hv).2)⟩
  · exact ⟨_, rfl, Field.check_fixed "suggestions" (list_ofStrings src e.suggestions)⟩
  · exact ⟨_, rfl, Field.check_fixed "recoverySteps" (list_ofStrings src e.recovery)⟩

/-- **An error is read back.** -/
theorem decoder_toJson {e : ErrorReply} (h : Carried e.context) :
    decoder src (.ofJson e.toJson) = .ok e := by
  have hcontext : (Shape.valuesOf e.members).orElse "context" src (.optional .json) none =
      .ok e.context := by
    refine orElse_payload h ?_
    simp [members, Members.get?_append, Members.get?_cons, get?_optionalMember, get?_textsMember]
  have hsuggestions : (Shape.valuesOf e.members).orElse "suggestions" src (.list .string) [] =
      .ok e.suggestions := by
    refine orElse_texts ?_
    simp [members, Members.get?_append, Members.get?_cons, get?_optionalMember, get?_textsMember]
  have hrecovery : (Shape.valuesOf e.members).orElse "recoverySteps" src (.list .string) [] =
      .ok e.recovery := by
    refine orElse_texts ?_
    simp [members, Members.get?_append, Members.get?_cons, get?_optionalMember, get?_textsMember]
  -- The reader takes the fields one after another, in the order in which they are declared.
  refine bind_eq_ok_iff.mpr ⟨_, read_toJson h, ?_⟩
  refine bind_eq_ok_iff.mpr ⟨e.isError, rfl, ?_⟩
  refine bind_eq_ok_iff.mpr ⟨e.operation, rfl, ?_⟩
  refine bind_eq_ok_iff.mpr ⟨e.error, rfl, ?_⟩
  refine bind_eq_ok_iff.mpr ⟨e.context, hcontext, ?_⟩
  refine bind_eq_ok_iff.mpr ⟨e.suggestions, hsuggestions, ?_⟩
  exact bind_eq_ok_iff.mpr ⟨e.recovery, hrecovery, rfl⟩

theorem portable_toJson {e : ErrorReply} (h : Carried e.context) : e.toJson.Portable 5 := by
  refine Portable.obj e.nodup_keys_members fun m hm => ?_
  rcases mem_members hm with (rfl | rfl | rfl) | ⟨v, hv, rfl⟩ | rfl | rfl
  · exact .bool _
  · exact .str _
  · exact .str _
  · exact (h v hv).2
  · exact .ofStrings _
  · exact .ofStrings _

/-- What an error tells of a failure holds texts, and of a graph file the line. -/
theorem carried_ofFailure (operation : String) {f : Failure}
    (h : ∀ line reason, f = .corruptFile line reason → line ≤ wordMax) :
    Carried (ofFailure operation f).context := by
  have hkeys : (Members.keys (("tool", .str operation) :: subject f)).Nodup := by
    cases f <;> simp [Members.keys, subject]
  refine carried_some rfl (.obj hkeys (List.forall_mem_cons.mpr ⟨.str _, ?_⟩))
  cases f with
  | notFound what name =>
    exact List.forall_mem_cons.mpr ⟨.str _, List.forall_mem_singleton.mpr (.str _)⟩
  | corruptFile line reason => exact List.forall_mem_singleton.mpr (.ofNat (h line reason rfl))
  | invalidArgument field reason => exact List.forall_mem_singleton.mpr (.str _)
  | nodeExists name => exact List.forall_mem_singleton.mpr (.str _)
  | storage path fault => exact List.forall_mem_singleton.mpr (.str _)
  | _ => exact List.forall_mem_nil _

end ErrorReply

/-! ## Responses -/

namespace Response

variable {src : Source}

/-- The members that a response is written as. -/
def members (r : Response) : Members :=
  optionalMember "data" r.data ++ [("message", .str r.message), ("actionTaken", .str r.action)]

theorem nodup_keys_members (r : Response) : r.members.keys.Nodup := by
  have hkeys : r.members.keys.Sublist (["data"] ++ ["message", "actionTaken"]) := by
    simp only [members, Members.keys, List.map_append]
    exact (keys_optionalMember _ _).append (List.Sublist.refl _)
  exact hkeys.nodup (by decide)

/-- A member of a response is its payload or a text. -/
theorem mem_members {r : Response} {m : String × Json} (h : m ∈ r.members) :
    (∃ v ∈ r.data, m = ("data", v)) ∨ m = ("message", .str r.message) ∨
      m = ("actionTaken", .str r.action) := by
  rcases List.mem_append.mp h with h | h
  · exact Or.inl (mem_optionalMember h)
  · exact Or.inr (by simpa using h)

/-- What the reader of responses finds are the members of the response. -/
theorem read_toJson {r : Response} (h : Carried r.data) :
    shape.read src (.ofJson r.toJson) = .ok (Shape.valuesOf r.members) := by
  have hkeys : (List.map Prod.fst ([] : FieldValues) ++ r.members.keys).Nodup :=
    r.nodup_keys_members
  refine Shape.readEntries_ofMembers hkeys fun m hm => ?_
  rcases mem_members hm with ⟨v, hv, rfl⟩ | rfl | rfl
  · exact ⟨_, rfl, Field.check_fixed _ (optional_ofJson (h v hv).1 (h v hv).2)⟩
  · exact ⟨_, rfl, rfl⟩
  · exact ⟨_, rfl, rfl⟩

/-- **A response is read back.** -/
theorem decoder_toJson {r : Response} (h : Carried r.data) :
    decoder src (.ofJson r.toJson) = .ok r := by
  have hdata : (Shape.valuesOf r.members).orElse "data" src (.optional .json) none =
      .ok r.data := by
    refine orElse_payload h ?_
    rw [members, Members.get?_append, get?_optionalMember, if_pos rfl]
    exact Option.or_none
  have hmessage : (Shape.valuesOf r.members).required "message" src .string = .ok r.message := by
    rw [FieldValues.required, Shape.lookup_valuesOf, members, Members.get?_append,
      get?_optionalMember]
    rfl
  have haction : (Shape.valuesOf r.members).required "actionTaken" src .string = .ok r.action := by
    rw [FieldValues.required, Shape.lookup_valuesOf, members, Members.get?_append,
      get?_optionalMember]
    rfl
  refine bind_eq_ok_iff.mpr ⟨_, read_toJson h, ?_⟩
  refine bind_eq_ok_iff.mpr ⟨r.data, hdata, ?_⟩
  refine bind_eq_ok_iff.mpr ⟨r.message, hmessage, ?_⟩
  exact bind_eq_ok_iff.mpr ⟨r.action, haction, rfl⟩

/-- **A response is no error**, for it does not say so. -/
theorem decodeError_toJson (r : Response) :
    ErrorReply.decoder src (.ofJson r.toJson) = .error (.missingField "isError") := by
  have hread : ErrorReply.shape.read src (.ofJson r.toJson) = .ok [] := by
    -- No member of a response has a name that an error has.
    refine Shape.readEntries_ofMembers_of_unknown rfl fun m hm => ?_
    rcases mem_members hm with ⟨v, _, rfl⟩ | rfl | rfl <;> rfl
  rw [ErrorReply.decoder, hread]
  rfl

theorem portable_toJson {r : Response} (h : Carried r.data) : r.toJson.Portable 5 := by
  refine Portable.obj r.nodup_keys_members fun m hm => ?_
  rcases mem_members hm with ⟨v, hv, rfl⟩ | rfl | rfl
  · exact (h v hv).2
  · exact .str _
  · exact .str _

end Response

/-! ## Replies -/

namespace Reply

/-- What a reply holds besides its texts. -/
def payload : Reply → Option Json
  | .error e => e.context
  | .success r => r.data

theorem portable_toJson {r : Reply} (h : Carried r.payload) : r.toJson.Portable 5 := by
  cases r with
  | error e => exact e.portable_toJson h
  | success r => exact r.portable_toJson h

/-- **A reply is read back from its text**, and an error is read as an error. -/
theorem decodeText_render {r : Reply} (h : Carried r.payload) :
    decodeText Reply.decoder r.toJson.render = .ok r := by
  have hportable : r.toJson.Portable depthLimit := (portable_toJson h).mono (by decide)
  -- A reply is set aside as it is read, and then tried as an error and as a response.
  rw [Json.decodeText_render hportable.legible hportable.height_le, decoder,
    hportable.toJson_ofJson]
  cases r with
  | error e =>
    have herror : ErrorReply.decoder .setAside (.ofJson (Reply.error e).toJson) = .ok e :=
      ErrorReply.decoder_toJson h
    simp only [herror]
    rfl
  | success r =>
    have herror : ErrorReply.decoder .setAside (.ofJson (Reply.success r).toJson) =
      .error (.missingField "isError") := r.decodeError_toJson
    have hsuccess : Response.decoder .setAside (.ofJson (Reply.success r).toJson) = .ok r :=
      Response.decoder_toJson h
    simp only [herror, hsuccess]
    rfl

end Reply

end Tool

/-! ## Items of arguments -/

/-- The number of items of an array; nothing else has items. -/
def Json.itemCount : Json → Nat
  | .arr items => items.length
  | _ => 0

namespace Tool

/-- The arrays among the arguments have no more items than a word counts. -/
def CountableArguments (args : Json) : Prop :=
  ∀ members, args = .obj members → ∀ m ∈ members, m.2.itemCount ≤ wordMax

namespace GraphTool

variable {α : Type} {name : String} {args : Json}

theorem length_items {item : Decoder α} {src : Source} {vs : List Json} {as : List α}
    (h : Decoder.items item src (.ofJsons vs) = .ok as) : as.length = vs.length := by
  induction vs generalizing as with
  | nil =>
    cases h
    rfl
  | cons v vs ih =>
    obtain ⟨_, _, h⟩ := bind_eq_ok_iff.mp h
    obtain ⟨as, has, h⟩ := bind_eq_ok_iff.mp h
    cases h
    rw [List.length_cons, List.length_cons, ih has]

/-- A list of items that was read is as long as the array that it was read from. -/
theorem length_someItems {item : Decoder α} {as : List α} (hargs : CountableArguments args)
    (h : someItems name item args = .ok as) : as.length ≤ wordMax := by
  obtain ⟨vs, rfl, hitems, _⟩ := someItems_eq_ok_iff.mp h
  rw [length_items hitems]
  exact hargs _ rfl _ List.mem_cons_self

/-- A request has as many items as the arguments have. -/
theorem itemCount_le {t : GraphTool} {r : Request} (hargs : CountableArguments args)
    (h : t.validate args = .ok r) : r.itemCount ≤ wordMax := by
  cases t with
  | readGraph =>
    obtain ⟨_, _, h⟩ := bind_eq_ok_iff.mp h
    cases h
    exact Nat.zero_le _
  | searchNodes =>
    obtain ⟨_, _, h⟩ := bind_eq_ok_iff.mp h
    cases h
    exact Nat.zero_le _
  | openNodes =>
    obtain ⟨_, _, h⟩ := bind_eq_ok_iff.mp h
    cases h
    exact Nat.zero_le _
  | _ =>
    obtain ⟨items, hitems, h⟩ := bind_eq_ok_iff.mp h
    cases h
    exact length_someItems hargs hitems

end GraphTool

theorem itemCount_le {t : Tool} {args : Json} {r : Request} (hargs : CountableArguments args)
    (h : t.validate args = .ok r) : r.itemCount ≤ wordMax := by
  cases t with
  | graph t => exact t.itemCount_le hargs h
  | entity t =>
    obtain ⟨change, _, rfl⟩ := map_eq_ok_iff.mp h
    exact Nat.zero_le _

end Tool

/-! ## Calls -/

namespace Session

open Tool

variable {s : Session} {c : Call}

/-- What the reply to a call may count can be counted by a word. -/
structure Countable (s : Session) (c : Call) : Prop where
  edges : s.store.graph.Countable
  arguments : CountableArguments c.arguments

/-- **The reply to a call carries what it holds.** -/
theorem carried_dispatch (h : s.Countable c) : Carried (s.dispatch c).1.payload := by
  show Carried (Reply.ofResult c.name (s.call c).1).payload
  cases s.call_fate c with
  | notReady reason _ hcall =>
    rw [hcall]
    exact ErrorReply.carried_ofFailure c.name nofun
  | unknown tools _ _ hcall =>
    rw [hcall]
    exact ErrorReply.carried_ofFailure c.name nofun
  | reached tools tool hset hfind hfails =>
    cases hcall : (s.call c).1 with
    | error failure =>
      -- No tool reads the graph file, so its lines are not to blame.
      refine ErrorReply.carried_ofFailure c.name ?_
      rintro line reason rfl
      nomatch hfails _ hcall
    | ok response =>
      cases hrequest : s.catalog.request c with
      | error failure =>
        rw [call_of_request_error hrequest] at hcall
        nomatch hcall
      | ok r =>
        rw [call_of_request hrequest] at hcall
        obtain ⟨found, hfound, hvalidate⟩ := bind_eq_ok_iff.mp hrequest
        cases found with
        | none => nomatch hvalidate
        | some tool => exact Request.carried_run h.edges (itemCount_le h.arguments hvalidate) hcall

/-- **Replies survive the wire.**  Whatever session there is and whatever is called, the text of the
reply is read back as this reply.  In particular an error is never taken for a response or the other
way round, whatever names, lines and messages it holds. -/
theorem decodeText_dispatch (h : s.Countable c) :
    decodeText Reply.decoder (s.dispatch c).1.toJson.render = .ok (s.dispatch c).1 :=
  Reply.decodeText_render (carried_dispatch h)

/-- A session with a node whose name is the text of an error, and an edge from there to a node with
a line break in its name. -/
def awkwardSession : Session :=
  ⟨⟨"schemas", (Tool.assemble []).toOption⟩,
    ⟨"m", ⟨[⟨"\x7b\"isError\":true\x7d", "npc", []⟩, ⟨"a\nb", "npc", ["\\u0000"]⟩],
      [⟨"\x7b\"isError\":true\x7d", "a\nb", "met"⟩]⟩⟩, .empty⟩

/-- The first node is deleted with its edge and another one is not there, which is a response; that
no tool has a name is an error. -/
theorem decodeText_awkwardSession :
    let deleting : Call :=
      ⟨"delete_nodes", .obj [("nodeNames", .arr [.str "\x7b\"isError\":true\x7d", .str "c"])]⟩
    let unknown : Call := ⟨"message\":\"", .null⟩
    (awkwardSession.Countable deleting ∧ (awkwardSession.dispatch deleting).1.isError = false ∧
      decodeText Reply.decoder (awkwardSession.dispatch deleting).1.toJson.render =
        .ok (awkwardSession.dispatch deleting).1) ∧
    awkwardSession.Countable unknown ∧ (awkwardSession.dispatch unknown).1.isError = true ∧
      decodeText Reply.decoder (awkwardSession.dispatch unknown).1.toJson.render =
        .ok (awkwardSession.dispatch unknown).1 := by
  intro deleting unknown
  have hedges : awkwardSession.store.graph.Countable := (by decide : 1 ≤ wordMax)
  have hdeleting : awkwardSession.Countable deleting := by
    refine ⟨hedges, ?_⟩
    rintro _ ⟨⟩
    exact List.forall_mem_singleton.mpr (by decide)
  have hunknown : awkwardSession.Countable unknown := ⟨hedges, nofun⟩
  exact ⟨⟨hdeleting, by decide +kernel, decodeText_dispatch hdeleting⟩, hunknown,
    by decide +kernel, decodeText_dispatch hunknown⟩

end Session

end GraphKeeper

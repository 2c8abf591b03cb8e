import DataflowEditor.Proofs.Json.Printing
import DataflowEditor.Proofs.Toolkit.Delivery
import DataflowEditor.Proofs.Toolkit.Prepared
import DataflowEditor.Proofs.Toolkit.Wire
import DataflowEditor.Toolkit.Client

/-! # Results on their way to the caller

A response that carries a result is written on a line, read from it, and handed to the caller.
Every result comes through but one: a null is written like any other result and read as none at
all, so that a call which succeeds with null fails at the caller. A response that was never written
out keeps its null.
-/

namespace DataflowEditor

/-- A text that starts and ends with characters that are not blank is left as it is. -/
theorem Text.trim_eq_self {first last : Char} (hfirst : isBlank first = false)
    (hlast : isBlank last = false) (middle : List Char) :
    trim (first :: (middle ++ [last])) = first :: (middle ++ [last]) := by
  rw [trim, List.dropWhile_cons_of_neg (by simp [hfirst]), ← List.cons_append, List.reverse_append,
    List.reverse_singleton, List.singleton_append, List.dropWhile_cons_of_neg (by simp [hlast]),
    List.reverse_cons, List.reverse_reverse]

namespace Json

/-- A member that is missing counts as null. -/
theorem getD_map_isNull {member : Option Json} :
    (member.map isNull).getD true = true ↔ ∀ v, member = some v → v = .null := by
  cases member with
  | none => exact ⟨nofun, fun _ => rfl⟩
  | some v => cases v <;> simp [isNull]

end Json

namespace MessageId

/-- A number has 64 bits with a sign. -/
def Fits : MessageId → Prop
  | .number value => IsSignedWord value
  | .text _ => True

/-- The number of a request is told from its identifier. -/
@[simp]
theorem asIndex?_index (id : Nat) : (number id).asIndex? = some id := by
  simp [asIndex?]

/-- What is written for an identifier that fits spells it. -/
theorem Fits.spells {id : MessageId} (h : id.Fits) : Spells id.toJson id := by
  cases id with
  | number value => exact .number h
  | text value => exact .text value

/-- An identifier that fits is decoded from what is written for it. -/
theorem decode_ofJson {id : MessageId} (h : id.Fits) : decode (.ofJson id.toJson) = .ok id :=
  decodeAs_of_spells h.spells

theorem legible_toJson {id : MessageId} (h : id.Fits) : id.toJson.Legible := by
  cases id with
  | number value =>
      obtain ⟨hlow, hhigh⟩ := h
      exact Number.legible_int hlow (Int.lt_trans hhigh (by decide))
  | text value => trivial

end MessageId

namespace Response

/-! ## What is read of a response -/

/-- A response as it is read from what was written for it: null is no result. -/
def received (response : Response) : Response :=
  { response with result := response.result.filter (· ≠ .null) }

/-- The parts of a response without an error that have to be read back. -/
structure Sendable (response : Response) : Prop where
  id : response.id.Fits
  keys : ∀ result ∈ response.result, result.KeysDistinct
  error : response.error = none

/-- A response is received with its result, unless the result is null. -/
theorem result_received {response : Response} :
    response.received.result = response.result ↔ response.result ≠ some .null := by
  obtain ⟨version, id, result, error⟩ := response
  cases result with
  | none => exact ⟨nofun, fun _ => rfl⟩
  | some result => simp [received, Option.filter_eq_some_iff]

attribute [local simp] Draft.ofMembers RecordShape.decodeMembers RecordShape.missing?
  RecordField.needed RecordField.defaulted Fields.append? Except.map

/-- A result is read as it was written, and a null as nothing. -/
theorem optional_json {result : Json} (h : result.KeysDistinct) :
    Draft.optional Draft.json (.ofJson result) = .ok ((some result).filter (· ≠ .null)) := by
  rcases eq_or_ne result .null with rfl | hsome
  · rfl
  · have hoptional : Draft.optional Draft.json (.ofJson result) =
        (Draft.json (.ofJson result)).map some := by
      cases result with
      | null => exact absurd rfl hsome
      | _ => rfl
    rw [hoptional, Draft.json, Draft.json?_ofJson h, Option.filter_some]
    simp [hsome]

/-- A response that may be sent is decoded as the one that is received. -/
theorem decodeAs_toJson {response : Response} (h : response.Sendable) :
    response.toJson.decodeAs shape.decode = .ok response.received := by
  obtain ⟨version, id, result, error⟩ := response
  obtain ⟨hid, hkeys, herror⟩ := h
  obtain rfl : error = none := herror
  have hid := MessageId.decode_ofJson hid
  cases result with
  | none => simp [toJson, shape, hid, received, Json.decodeAs]
  | some result =>
      have hresult := optional_json (hkeys result rfl)
      simp [toJson, shape, hid, hresult, received, Json.decodeAs]

/-- The response can be written on a line from which it is read: its numbers are legible, and it is
not nested too deep. -/
structure Printable (response : Response) : Prop extends response.Sendable where
  legible : ∀ result ∈ response.result, result.Legible
  depth : ∀ result ∈ response.result, result.depth < Json.depthLimit

/-- The text of a response has no blanks around it. -/
theorem trim_print (response : Response) :
    Text.trim response.toJson.print.toList = response.toJson.print.toList := by
  rw [Json.toList_print]
  exact Text.trim_eq_self (by decide) (by decide) _

/-- The document of a printable response can be read back from its text. -/
theorem Printable.legible_toJson {response : Response} (h : response.Printable) :
    response.toJson.Legible := by
  have hid := MessageId.legible_toJson h.id
  obtain ⟨version, id, result, error⟩ := response
  obtain rfl : error = none := h.error
  cases result with
  | none => exact ⟨trivial, hid, trivial⟩
  | some result => exact ⟨trivial, hid, h.legible result rfl, trivial⟩

/-- The document of a printable response is not nested too deep. -/
theorem Printable.depth_toJson {response : Response} (h : response.Printable) :
    response.toJson.depth ≤ Json.depthLimit := by
  have hid : response.id.toJson.depth = 0 := by
    cases response.id <;> rfl
  obtain ⟨version, id, result, error⟩ := response
  obtain rfl : error = none := h.error
  cases result with
  | none =>
      simp only [toJson, Json.depth, Fields.append?, Option.map_none, Json.depthMembers, hid,
        Json.depthLimit]
      decide
  | some result =>
      have hdepth := h.depth result rfl
      simp only [toJson, Json.depth, Fields.append?, Option.map_none, List.cons_append,
        List.nil_append, Json.depthMembers, hid]
      omega

/-- A response that is written on a line is read from the line, up to a null. -/
theorem response?_print {response : Response} (h : response.Printable) :
    Link.response? response.toJson.print = some response.received := by
  have hread := Source.decodeAs_print h.legible_toJson h.depth_toJson
    (decodeAs_toJson h.toSendable)
  have hsome : response.toJson.print.toList ≠ [] := by
    rw [Json.toList_print]
    exact List.cons_ne_nil _ _
  rw [Link.response?, trim_print]
  split
  next hnil => exact absurd hnil hsome
  next => rw [hread]; rfl

/-! ## Responses without a result -/

theorem isNone_of_optional {α : Type} {decode : Decoder α} {v : Json} {value : Option α}
    (h : Draft.optional decode (.ofJson v) = .ok value) : value.isNone = v.isNull := by
  cases v with
  | null =>
      cases h
      rfl
  | _ =>
      obtain ⟨found, _, rfl⟩ := map_eq_ok.mp h
      rfl

section Members

variable {members : Fields} {response : Response}
  (h : (Json.obj members).decodeAs shape.decode = .ok response)
include h

/-- A response has no result if its document has none, or a null. -/
theorem isNone_result :
    response.result.isNone = ((members.value? "result").map Json.isNull).getD true := by
  rw [Json.decodeAs, RecordShape.decode_ofJson] at h
  have hknown : ∃ field ∈ shape.fields, field.name = "result" :=
    ⟨_, .tail _ (.tail _ (.head _)), rfl⟩
  have hpart := RecordShape.decodeMembers_part "result" (fun response => response.result.isNone)
    Json.isNull hknown ?_ ?_ h
  · rwa [if_neg List.not_mem_nil] at hpart
  · -- Of the four fields only one has this name, and it is read as an optional document.
    simp only [shape, List.forall_mem_cons]
    refine ⟨fun hname => absurd hname (by decide), fun hname => absurd hname (by decide),
      fun _ v record next hstore => ?_, fun hname => absurd hname (by decide), by simp⟩
    obtain ⟨value, hvalue, rfl⟩ := map_eq_ok.mp hstore
    exact isNone_of_optional hvalue
  · simp only [shape, List.forall_mem_cons]
    exact ⟨fun _ _ => RecordField.keeps_stored fun _ _ _ _ hkept => hkept,
      fun _ _ => RecordField.keeps_stored fun _ _ _ _ hkept => hkept,
      fun hname => absurd rfl hname,
      fun _ _ => RecordField.keeps_stored fun _ _ _ _ hkept => hkept, by simp⟩

/-- A response has no error if its document has none, or a null. -/
theorem isNone_error :
    response.error.isNone = ((members.value? "error").map Json.isNull).getD true := by
  rw [Json.decodeAs, RecordShape.decode_ofJson] at h
  have hknown : ∃ field ∈ shape.fields, field.name = "error" :=
    ⟨_, .tail _ (.tail _ (.tail _ (.head _))), rfl⟩
  have hpart := RecordShape.decodeMembers_part "error" (fun response => response.error.isNone)
    Json.isNull hknown ?_ ?_ h
  · rwa [if_neg List.not_mem_nil] at hpart
  · simp only [shape, List.forall_mem_cons]
    refine ⟨fun hname => absurd hname (by decide), fun hname => absurd hname (by decide),
      fun hname => absurd hname (by decide), fun _ v record next hstore => ?_, by simp⟩
    obtain ⟨value, hvalue, rfl⟩ := map_eq_ok.mp hstore
    exact isNone_of_optional hvalue
  · simp only [shape, List.forall_mem_cons]
    exact ⟨fun _ _ => RecordField.keeps_stored fun _ _ _ _ hkept => hkept,
      fun _ _ => RecordField.keeps_stored fun _ _ _ _ hkept => hkept,
      fun _ _ => RecordField.keeps_stored fun _ _ _ _ hkept => hkept,
      fun hname => absurd rfl hname, by simp⟩

end Members

end Response

namespace Client

/-! ## Calls -/

/-- No result is reported exactly if there is neither an error nor a result. -/
theorem resultOf_eq_noResult {response : Response} :
    resultOf response = .error .noResult ↔ response.error = none ∧ response.result = none := by
  obtain ⟨version, id, result, error⟩ := response
  cases error <;> cases result <;> simp [resultOf]

/-- Without an error, the caller gets what was sent unless it was null. -/
theorem resultOf_received {response : Response} (h : response.error = none) :
    resultOf response.received =
      if response.result = some .null then .error .noResult else resultOf response := by
  obtain ⟨version, id, result, error⟩ := response
  obtain rfl : error = none := h
  cases result with
  | none => rfl
  | some result =>
      by_cases hnull : result = .null
      · simp [Response.received, resultOf, Option.filter_some, hnull]
      · simp [Response.received, resultOf, Option.filter_some, hnull]

variable {ω : Type} [Worker ω]

/-- The client can make a call, and the worker is there to read the request. -/
structure Ready (client : Client (Pipe ω)) (worker : ω) : Prop where
  idle : client.channel.Idle client.nextId
  worker : client.channel.worker = some worker
  limit : client.limit ≠ some 0

omit [Worker ω] in
theorem ready_ofChannel (worker : ω) {limit : Option Nat} (h : limit ≠ some 0) :
    (ofChannel (Pipe.toWorker worker) limit).Ready worker :=
  ⟨(Pipe.idle_toWorker worker).mono (Nat.zero_le 1), rfl, h⟩

/-- The request that is sent for a call. -/
def requestOf (client : Client (Pipe ω)) (call : Call) : Request :=
  ⟨protocolVersion, .number client.nextId, call.method, some call.params⟩

/-- The worker answers a call by a response on a line, and goes on or exits. -/
def Answered (client : Client (Pipe ω)) (worker : ω) (call : Call) (response : Response) : Prop :=
  response.id = .number client.nextId ∧
    (Worker.read worker (client.requestOf call).toJson.print).1 =
      Pipe.lineOf response.toJson.print

/-- A call that needs no capability comes to the result that is read. -/
theorem answer_answered {client : Client (Pipe ω)} {worker : ω} {call : Call} {response : Response}
    (hready : client.Ready worker) (hprintable : response.Printable)
    (hanswered : client.Answered worker call response) (hcall : call.analysis? = none) :
    (client.answer call).1 = (do
      let result ← resultOf response.received
      (result.decodeAs call.decodeAnswer).mapError .decode) := by
  obtain ⟨hid, hreply⟩ := hanswered
  have hrequest : (client.channel.request (client.requestOf call) client.limit).1 =
      .ok response.received := by
    apply Pipe.request_answered hready.idle hready.worker (MessageId.asIndex?_index client.nextId)
      hready.limit (Prod.ext hreply rfl) (Json.lineBreak_notMem_print _)
      (Response.response?_print hprintable)
    exact (congrArg MessageId.asIndex? hid).trans (MessageId.asIndex?_index client.nextId)
  rw [answer, hcall, Option.filter_none, exchange]
  -- The request that is sent is the one that the worker answers.
  change (Except.bind (client.channel.request (client.requestOf call) client.limit).1 _) = _
  rw [hrequest]
  rfl

/-- A client whose worker goes on after its answer can make the next call. -/
theorem ready_answer {client : Client (Pipe ω)} {worker again : ω} {call : Call}
    {response : Response} (hready : client.Ready worker)
    (hanswered : client.Answered worker call response) (hcall : call.analysis? = none)
    (hagain : (Worker.read worker (client.requestOf call).toJson.print).2 = some again) :
    (client.answer call).2.Ready again := by
  have hnext : (client.channel.request (client.requestOf call) client.limit).2.Idle
      (client.nextId + 1) ∧
      (client.channel.request (client.requestOf call) client.limit).2.worker = some again :=
    Pipe.request_idle hready.idle hready.worker (MessageId.asIndex?_index client.nextId)
      (Prod.ext hanswered.2 hagain) (Json.lineBreak_notMem_print _)
  obtain ⟨hidle, hworker⟩ := hnext
  rw [answer, hcall, Option.filter_none, exchange]
  exact ⟨hidle, hworker, hready.limit⟩

/-- Where any document will do, nothing is lost when the result is decoded. -/
theorem decode_resultOf {response : Response} (h : response.Sendable) :
    (do let result ← resultOf response
        (result.decodeAs Draft.json).mapError .decode) = resultOf response := by
  obtain ⟨version, id, result, error⟩ := response
  obtain rfl : error = none := h.error
  cases result with
  | none => rfl
  | some result =>
      have hread : result.decodeAs Draft.json = .ok result := by
        rw [Json.decodeAs, Draft.json, Draft.json?_ofJson (h.keys result rfl)]
      rw [resultOf, ok_bind, hread]
      rfl

/-- A call for any document comes to the result, but it fails where the result is null. -/
theorem answer_describeProperties {client : Client (Pipe ω)} {worker : ω} {response : Response}
    (hready : client.Ready worker) (hprintable : response.Printable)
    (hanswered : client.Answered worker .describeProperties response) :
    (client.answer .describeProperties).1 =
      if response.result = some .null then .error .noResult else resultOf response := by
  rw [answer_answered hready hprintable hanswered rfl, resultOf_received hprintable.error]
  split
  · rfl
  · exact decode_resultOf hprintable.toSendable

/-- What is loaded is not looked at, but a null fails all the same. -/
theorem answer_load {client : Client (Pipe ω)} {worker : ω} {response : Response}
    {paths : List String} (hready : client.Ready worker) (hprintable : response.Printable)
    (hanswered : client.Answered worker (.load paths) response) :
    (client.answer (.load paths)).1 =
      if response.result = some .null then .error .noResult
      else (resultOf response).map fun _ => () := by
  rw [answer_answered hready hprintable hanswered rfl, resultOf_received hprintable.error]
  split
  · rfl
  · -- The result is decoded as any document is, and then dropped.
    have hdecoded := congrArg (Except.map fun _ => ()) (decode_resultOf hprintable.toSendable)
    rw [← hdecoded]
    cases resultOf response with
    | error fault => rfl
    | ok result =>
        change Except.mapError _ ((Draft.json (.ofJson result)).map _) = _
        simp only [ok_bind, Json.decodeAs]
        cases Draft.json (.ofJson result) <;> rfl

/-! ## Null and nothing -/

/-- What becomes of a response without an error on its way to the caller. -/
structure Receives (client : Client (Pipe ω)) (worker : ω) (response : Response) : Prop where
  /-- A response is read from the document that is written for it, up to a null. -/
  decoded : response.toJson.decodeAs Response.shape.decode = .ok response.received
  kept : response.received.result = response.result ↔ response.result ≠ some .null
  /-- It is read from a line in the same way. -/
  line : response.Printable → Link.response? response.toJson.print = some response.received
  described : response.Printable → client.Answered worker .describeProperties response →
    (client.answer .describeProperties).1 =
      if response.result = some .null then .error .noResult else resultOf response
  loaded : ∀ paths, response.Printable → client.Answered worker (.load paths) response →
    (client.answer (.load paths)).1 =
      if response.result = some .null then .error .noResult
      else (resultOf response).map fun _ => ()
  /-- If the worker goes on, the next call can be made as this one was. -/
  again : ∀ (call : Call) (next : ω), call.analysis? = none →
    client.Answered worker call response →
      (Worker.read worker (client.requestOf call).toJson.print).2 = some next →
        (client.answer call).2.Ready next
  /-- A response that was prepared is not written out, and keeps its null. -/
  prepared : ∀ (memory : Client PreparedChannel) (rest : List Prepared),
    memory.channel.connected = true → memory.channel.queue = .response response :: rest →
      (memory.answer .describeProperties).1 = resultOf response
  /-- Whatever document a response is read from, its members are missed if they are null. -/
  missed : ∀ (members : Fields) (found : Response),
    (Json.obj members).decodeAs Response.shape.decode = .ok found →
      (resultOf found = .error .noResult ↔
        (∀ error, members.value? "error" = some error → error = .null) ∧
          ∀ result, members.value? "result" = some result → result = .null)

/-- A response without an error comes to its result at the caller, but a null is taken for no
result once it was written out. -/
theorem receives {client : Client (Pipe ω)} {worker : ω} {response : Response}
    (hready : client.Ready worker) (hsendable : response.Sendable) :
    client.Receives worker response where
  decoded := Response.decodeAs_toJson hsendable
  kept := Response.result_received
  line hprintable := Response.response?_print hprintable
  described hprintable hanswered := answer_describeProperties hready hprintable hanswered
  loaded paths hprintable hanswered := answer_load hready hprintable hanswered
  again _ _ hcall hanswered hagain := ready_answer hready hanswered hcall hagain
  prepared memory rest hconnected hqueue := by
    have hallowed : Call.describeProperties.AllowedBy memory.info := nofun
    rw [answer_allowed hallowed, (exchange_open memory _ _ _ hconnected).1, hqueue]
    exact decode_resultOf hsendable
  missed members found h := by
    rw [resultOf_eq_noResult, ← Option.isNone_iff_eq_none, ← Option.isNone_iff_eq_none,
      Response.isNone_error h, Response.isNone_result h, Json.getD_map_isNull,
      Json.getD_map_isNull]

/-- A worker that writes the same line whatever it reads. -/
structure Repeater where
  line : String

instance : Worker Repeater where
  read worker _ := (Pipe.lineOf worker.line, some worker)

/-- The response to the first call of a client. -/
def firstResponse (result : Json) : Response :=
  .success (.number 1) result

def repeaterOf (result : Json) : Repeater :=
  ⟨(firstResponse result).toJson.print⟩

def clientOf (result : Json) : Client (Pipe Repeater) :=
  ofChannel (Pipe.toWorker (repeaterOf result)) none

/-- The client of the example is ready for the worker that repeats the result. -/
theorem ready_clientOf (result : Json) : (clientOf result).Ready (repeaterOf result) :=
  ready_ofChannel _ nofun

/-- A description with a null inside it. -/
def someDescription : Json :=
  .obj [("MapEntry", .arr [.null, .int (-7)])]

theorem someDescription_received :
    (clientOf someDescription).Ready (repeaterOf someDescription) ∧
      (firstResponse someDescription).Sendable ∧
      ((clientOf someDescription).answer .describeProperties).1 = .ok someDescription := by
  have hready := ready_clientOf someDescription
  have hnumber : IsSignedWord 1 := by decide
  have hkeys : someDescription.KeysDistinct := by
    simp [someDescription, Json.int, Json.KeysDistinct, Json.MembersDistinct, Json.ItemsDistinct]
  have hlegible : someDescription.Legible :=
    ⟨⟨trivial, Number.legible_int (by decide) (by decide), trivial⟩, trivial⟩
  have hsendable : (firstResponse someDescription).Sendable :=
    ⟨hnumber, fun _ h => Option.some.inj h ▸ hkeys, rfl⟩
  have hprintable : (firstResponse someDescription).Printable :=
    ⟨hsendable, fun _ h => Option.some.inj h ▸ hlegible, fun _ h => Option.some.inj h ▸ (by decide)⟩
  have hanswer := (receives hready hsendable).described hprintable ⟨rfl, rfl⟩
  rw [if_neg (by decide)] at hanswer
  exact ⟨hready, hsendable, hanswer⟩

/-- A worker that answers with null answers well, but the call fails. -/
theorem null_missed :
    (clientOf .null).Answered (repeaterOf .null) .describeProperties (firstResponse .null) ∧
      resultOf (firstResponse .null) = .ok .null ∧
      ((clientOf .null).answer .describeProperties).1 = .error .noResult ∧
      (firstResponse .null).toJson.member? "result" = some .null ∧
      ((firstResponse .null).toJson.decodeAs Response.shape.decode).map Response.result =
        .ok none := by
  have hnumber : IsSignedWord 1 := by decide
  have hanswered : (clientOf .null).Answered (repeaterOf .null) .describeProperties
      (firstResponse .null) := ⟨rfl, rfl⟩
  have hsendable : (firstResponse .null).Sendable :=
    ⟨hnumber, fun _ h => Option.some.inj h ▸ trivial, rfl⟩
  have hprintable : (firstResponse .null).Printable :=
    ⟨hsendable, fun _ h => Option.some.inj h ▸ trivial, fun _ h => Option.some.inj h ▸ (by decide)⟩
  have hmissed := answer_describeProperties (ready_clientOf .null) hprintable hanswered
  rw [if_pos (by rfl)] at hmissed
  -- The null is written down, and is lost when it is read.
  refine ⟨hanswered, rfl, hmissed, rfl, ?_⟩
  rw [Response.decodeAs_toJson hsendable]
  rfl

end Client

end DataflowEditor

import DataflowEditor.Proofs.Service.Answers
import DataflowEditor.Proofs.Service.Orderly
import DataflowEditor.Proofs.Toolkit.Prepared

/-! # The log of a daemon

A daemon carries out what it is asked for, one after the other, and the toolkit may be greeted and
left in between. Everything that one of these does depends on the requests that were sent before,
on the last greeting and the first description that succeeded, and on whether the channel is still
open. The log of a daemon shows all of them.
-/

namespace DataflowEditor

/-! ## Entries -/

/-- What a daemon and its client may be asked for. -/
inductive Event where
  | act (files : FileLookup) (action : Action)
  /-- Give the property metadata. -/
  | describe
  | greet
  | close

inductive Reply where
  | outcome (outcome : Attempt Json)
  | profile (answer : Except ToolkitFault ToolkitProfile)
  | closed

structure Entry where
  event : Event
  /-- The calls of the operation, with what was answered to them. -/
  said : List Answered
  /-- The requests that the channel recorded. -/
  sent : List Request
  reply : Reply

abbrev Log := List Entry

/-- The property metadata, if they were asked for and given. -/
def Answered.metadata? : Answered → Option Json
  | ⟨.describeProperties, .ok metadata⟩ => some metadata
  | _ => none

theorem Answered.metadata?_eq_none {answered : Answered} (h : answered.1 ≠ .describeProperties) :
    answered.metadata? = none := by
  obtain ⟨call, answer⟩ := answered
  cases call with
  | describeProperties => exact absurd rfl h
  | _ => rfl

namespace Entry

/-- What the toolkit said about itself. -/
def profile? (entry : Entry) : Option ToolkitProfile :=
  match entry.reply with
  | .profile (.ok info) => some info
  | _ => none

def closes (entry : Entry) : Bool :=
  match entry.event with
  | .close => true
  | _ => false

end Entry

namespace Log

variable (log : Log)

def requests : List Request :=
  log.flatMap Entry.sent

/-- What the toolkit said about itself in the last greeting that succeeded. -/
def profile? : Option ToolkitProfile :=
  (log.filterMap Entry.profile?).getLast?

/-- The property metadata of the first description that succeeded. -/
def metadata? : Option Json :=
  ((log.flatMap Entry.said).filterMap Answered.metadata?).head?

def isOpen : Bool :=
  !log.any Entry.closes

@[simp]
theorem requests_append (entry : Entry) :
    requests (log ++ [entry]) = requests log ++ entry.sent := by
  simp [requests]

@[simp]
theorem isOpen_append (entry : Entry) :
    isOpen (log ++ [entry]) = (isOpen log && !entry.closes) := by
  simp [isOpen]

end Log

/-! ## Steps -/

/-- The inquiry that an event brings, where so much of the property metadata is kept. -/
def Event.inquiry? (kept : Option Json) : Event → Option Inquiry
  | .act files action => some (.act files action)
  | .describe => some (.describe kept)
  | _ => none

namespace Daemon

section Steps

variable (daemon : Daemon PreparedChannel)

def react : Event → Reply × Daemon PreparedChannel
  | .act files action =>
    let (outcome, daemon) := daemon.perform files action
    (.outcome outcome, daemon)
  | .describe =>
    let (outcome, daemon) := daemon.describeProperties
    (.outcome outcome, daemon)
  | .greet =>
    let (answer, daemon) := daemon.greet
    (.profile answer, daemon)
  | .close => (.closed, daemon.close)

/-- The calls that an event leads to. -/
def said (event : Event) : List Answered :=
  match event.inquiry? daemon.metadata with
  | some inquiry => (inquiry.operation daemon.options).run.trace Client.answer daemon.client
  | none => []

def step (event : Event) : Entry × Daemon PreparedChannel :=
  let (reply, next) := daemon.react event
  let sent := next.client.channel.requests.drop daemon.client.channel.requests.length
  (⟨event, daemon.said event, sent, reply⟩, next)

end Steps

/-- Let things happen one after the other. -/
def play (daemon : Daemon PreparedChannel) : List Event → Log × Daemon PreparedChannel
  | [] => ([], daemon)
  | event :: rest =>
    let (entry, next) := daemon.step event
    let (log, last) := next.play rest
    (entry :: log, last)

end Daemon

/-! ## What comes of an event -/

/-- An entry that comes after others. Of the responses and the numbers, it begins with those that
the requests before it have left. -/
inductive Entry.Fits (options : WriteOptions) (queue : List Prepared) (earlier : Log) :
    Entry → Prop where
  | asked {event : Event} {inquiry : Inquiry} {said : List Answered} {sent : List Request}
      {outcome : Attempt Json} (hinquiry : event.inquiry? (Log.metadata? earlier) = some inquiry)
      (hplays : (inquiry.operation options).run.Plays said outcome)
      (hserved : Served (Log.profile? earlier) (Log.isOpen earlier)
        (queue.drop (Log.requests earlier).length) ((Log.requests earlier).length + 1) said sent) :
      Fits options queue earlier ⟨event, said, sent, .outcome outcome⟩
  | greeted {number : Nat} (hopen : Log.isOpen earlier = true)
      (hnumber : number = (Log.requests earlier).length + 1) :
      Fits options queue earlier
        ⟨.greet, [], [⟨"2.0", .number number, "initialize", some Client.greeting⟩],
          .profile (Prepared.read ToolkitProfile.shape.decode
            (queue.drop (Log.requests earlier).length).head?)⟩
  | ignored (hclosed : Log.isOpen earlier = false) :
      Fits options queue earlier ⟨.greet, [], [], .profile (.error .connectionClosed)⟩
  | closed : Fits options queue earlier ⟨.close, [], [], .closed⟩

/-- The state of a daemon after a log. -/
structure Daemon.Tracks (daemon : Daemon PreparedChannel) (options : WriteOptions)
    (queue : List Prepared) (log : Log) : Prop where
  options : daemon.options = options
  requests : daemon.client.channel.requests = log.requests
  queue : daemon.client.channel.queue = queue.drop log.requests.length
  connected : daemon.client.channel.connected = log.isOpen
  number : log.isOpen = true → daemon.client.nextId = log.requests.length + 1
  info : daemon.client.info = log.profile?
  metadata : daemon.metadata = log.metadata?
  ids : log.requests.map Request.id =
    (List.range' 1 log.requests.length).map fun id => .number id

/-- What an entry makes of a daemon. -/
structure Entry.Moves (entry : Entry) (daemon next : Daemon PreparedChannel) : Prop where
  options : next.options = daemon.options
  requests : next.client.channel.requests = daemon.client.channel.requests ++ entry.sent
  queue : next.client.channel.queue = daemon.client.channel.queue.drop entry.sent.length
  connected : next.client.channel.connected = (daemon.client.channel.connected && !entry.closes)
  number : daemon.client.channel.connected = true →
    next.client.nextId = daemon.client.nextId + entry.sent.length
  info : next.client.info = entry.profile?.or daemon.client.info
  metadata : next.metadata = daemon.metadata.or (entry.said.filterMap Answered.metadata?).head?

namespace Entry.Fits

variable {options : WriteOptions} {queue : List Prepared} {earlier : Log} {entry : Entry}

/-- The requests of an entry are numbered on from those of the log before it. -/
theorem ids (h : entry.Fits options queue earlier) : entry.sent.map Request.id =
    (List.range' ((Log.requests earlier).length + 1) entry.sent.length).map
      fun id => .number id := by
  cases h with
  | asked _ _ hserved => exact hserved.ids
  | greeted _ hnumber =>
      subst hnumber
      rfl
  | ignored | closed => rfl

end Entry.Fits

namespace Daemon

variable {options : WriteOptions} {queue : List Prepared} {log : Log} {entry : Entry}
  {daemon next : Daemon PreparedChannel}

/-- An entry that fits keeps the daemon in step with its log. -/
theorem Tracks.append (h : daemon.Tracks options queue log) (hfits : entry.Fits options queue log)
    (hmoves : entry.Moves daemon next) : next.Tracks options queue (log ++ [entry]) where
  options := hmoves.options.trans h.options
  requests := by rw [hmoves.requests, h.requests, Log.requests_append]
  queue := by rw [hmoves.queue, h.queue, List.drop_drop, Log.requests_append, List.length_append]
  connected := by rw [hmoves.connected, h.connected, Log.isOpen_append]
  number := fun hopen => by
    rw [Log.isOpen_append, Bool.and_eq_true] at hopen
    rw [hmoves.number (h.connected.trans hopen.1), h.number hopen.1, Log.requests_append,
      List.length_append, Nat.add_right_comm]
  info := by
    rw [hmoves.info, h.info]
    cases hprofile : entry.profile? <;> simp [Log.profile?, hprofile]
  metadata := by
    rw [hmoves.metadata, h.metadata]
    simp [Log.metadata?, List.head?_append]
  ids := by
    rw [Log.requests_append, List.map_append, h.ids, hfits.ids, ← List.map_append,
      List.length_append, Nat.add_comm (Log.requests log).length 1, List.range'_append_1]

/-! ### Inquiries -/

/-- The property metadata are kept as soon as they are had. -/
theorem describeProperties_keeps (daemon : Daemon PreparedChannel) :
    daemon.describeProperties.2.options = daemon.options ∧
      daemon.describeProperties.2.metadata = daemon.metadata.or
        ((((Inquiry.describe daemon.metadata).operation daemon.options).run.trace Client.answer
          daemon.client).filterMap Answered.metadata?).head? := by
  unfold describeProperties
  cases hkept : daemon.metadata with
  | some metadata => exact ⟨rfl, hkept⟩
  | none =>
      have hrun : daemon.run (Operation.ask .describeProperties metadataFailedMessage) =
          ((Client.answer .describeProperties daemon.client).1.mapError
            (Operation.toolkitFailure metadataFailedMessage),
              { daemon with client := (Client.answer .describeProperties daemon.client).2 }) :=
        rfl
      have htrace : ((Inquiry.describe none).operation daemon.options).run.trace Client.answer
          daemon.client =
            [⟨.describeProperties, (Client.answer .describeProperties daemon.client).1⟩] := by
        rw [Inquiry.operation, ExceptT.run_map, Dialogue.trace_map]
        rfl
      rw [hrun, htrace]
      cases (Client.answer .describeProperties daemon.client).1 with
      | ok metadata => exact ⟨rfl, rfl⟩
      | error fault => exact ⟨rfl, hkept⟩

/-- Answering an inquiry is running its operation through the client, and nothing else moves but the
metadata. -/
theorem react_inquiry {event : Event} {inquiry : Inquiry}
    (hinquiry : event.inquiry? daemon.metadata = some inquiry) :
    ∃ outcome next, daemon.react event = (.outcome outcome, next) ∧
      (outcome, next.client) =
        (inquiry.operation daemon.options).run.run Client.answer daemon.client ∧
      next.options = daemon.options ∧
      next.metadata = daemon.metadata.or
        (((inquiry.operation daemon.options).run.trace Client.answer daemon.client).filterMap
          Answered.metadata?).head? := by
  cases event with
  | act files action =>
      cases hinquiry
      refine ⟨_, _, rfl, daemon.perform_eq files action, rfl, ?_⟩
      have hnone : ((action.perform daemon.options files).run.trace Client.answer
          daemon.client).filterMap Answered.metadata? = [] :=
        List.filterMap_eq_nil_iff.mpr fun answered hmem => Answered.metadata?_eq_none
          ((action.perform_orderly daemon.options files).may_of_mem
            (Dialogue.plays_run _ _ _) answered hmem)
      rw [Inquiry.operation, hnone]
      exact (Option.or_none ..).symm
  | describe =>
      cases hinquiry
      exact ⟨_, _, rfl, daemon.describeProperties_eq, daemon.describeProperties_keeps⟩
  | greet | close => cases hinquiry

/-- An event that asks something adds a fitting entry. -/
theorem step_inquiry (h : daemon.Tracks options queue log) {event : Event} {inquiry : Inquiry}
    (hinquiry : event.inquiry? daemon.metadata = some inquiry) :
    (daemon.step event).1.Fits options queue log ∧
      (daemon.step event).1.Moves daemon (daemon.step event).2 := by
  obtain rfl := h.options
  obtain ⟨outcome, next, hreact, hrun, hoptions, hmetadata⟩ := react_inquiry hinquiry
  have hplays := Dialogue.plays_run Client.answer (inquiry.operation daemon.options).run
    daemon.client
  obtain ⟨sent, hserved, hsent⟩ := Dialogue.served (inquiry.operation daemon.options).run
    daemon.client (log.requests.length + 1)
    fun hopen => (h.number (h.connected.symm.trans hopen)).symm
  rw [← hrun] at hplays hsent
  have hrecorded : next.client.channel.requests.drop daemon.client.channel.requests.length =
      sent := by
    rw [hsent.requests, List.drop_left]
  have hstep : daemon.step event = (⟨event, (inquiry.operation daemon.options).run.trace
      Client.answer daemon.client, sent, .outcome outcome⟩, next) := by
    rw [step, hreact]
    simp only [hrecorded, said, hinquiry]
  rw [hstep]
  rw [h.info, h.connected, h.queue] at hserved
  refine ⟨.asked (h.metadata ▸ hinquiry) hplays hserved, hoptions, hsent.requests, hsent.queue, ?_,
    hsent.numbered, hsent.info, hmetadata⟩
  rw [hsent.connected]
  cases event with
  | close => cases hinquiry
  | _ => exact (Bool.and_true _).symm

/-! ### Greetings -/

theorem greeting_fits (h : daemon.Tracks options queue log) : ∃ answer client sent,
    daemon.client.exchange "initialize" Client.greeting ToolkitProfile.shape.decode =
      (answer, client) ∧
    daemon.client.Sent client sent ∧
    Entry.Fits options queue log ⟨.greet, [], sent, .profile answer⟩ := by
  cases hconnected : daemon.client.channel.connected with
  | false =>
      obtain ⟨hanswer, hsent⟩ := daemon.client.exchange_closed "initialize" Client.greeting
        ToolkitProfile.shape.decode hconnected
      exact ⟨_, _, [], Prod.ext hanswer rfl, hsent,
        .ignored (h.connected.symm.trans hconnected)⟩
  | true =>
      obtain ⟨hanswer, hsent⟩ := daemon.client.exchange_open "initialize" Client.greeting
        ToolkitProfile.shape.decode hconnected
      have hopen := h.connected.symm.trans hconnected
      rw [h.queue] at hanswer
      exact ⟨_, _, _, Prod.ext hanswer rfl, hsent, .greeted hopen (h.number hopen)⟩

theorem step_greet (h : daemon.Tracks options queue log) :
    (daemon.step .greet).1.Fits options queue log ∧
      (daemon.step .greet).1.Moves daemon (daemon.step .greet).2 := by
  obtain ⟨answer, client, sent, hexchange, hsent, hfits⟩ := greeting_fits h
  have hgreet : daemon.client.greet =
      (answer, { client with info := answer.toOption.or client.info }) := by
    rw [Client.greet, hexchange]
    cases answer <;> rfl
  have hrecorded : client.channel.requests.drop daemon.client.channel.requests.length = sent := by
    rw [hsent.requests, List.drop_left]
  have hstep : daemon.step .greet = (⟨.greet, [], sent, .profile answer⟩,
      { daemon with client := { client with info := answer.toOption.or client.info } }) := by
    rw [step, react, greet, hgreet]
    simp only [hrecorded, said, Event.inquiry?]
  rw [hstep]
  refine ⟨hfits, rfl, hsent.requests, hsent.queue, ?_, hsent.numbered, ?_, ?_⟩
  · rw [hsent.connected]
    exact (Bool.and_true _).symm
  · rw [hsent.info]
    cases answer <;> rfl
  · exact (Option.or_none ..).symm

theorem step_close (daemon : Daemon PreparedChannel) :
    (daemon.step .close).1.Fits options queue log ∧
      (daemon.step .close).1.Moves daemon (daemon.step .close).2 := by
  have hrequests : daemon.close.client.channel.requests = daemon.client.channel.requests := by
    rw [close, Client.close]
    split <;> rfl
  have hqueue : daemon.close.client.channel.queue = daemon.client.channel.queue := by
    rw [close, Client.close]
    split <;> rfl
  have hrecorded : daemon.close.client.channel.requests.drop
      daemon.client.channel.requests.length = [] := by
    rw [hrequests, List.drop_length]
  have hstep : daemon.step .close = (⟨.close, [], [], .closed⟩, daemon.close) := by
    rw [step, react]
    simp only [hrecorded, said, Event.inquiry?]
  rw [hstep]
  exact ⟨.closed, rfl, hrequests.trans (List.append_nil _).symm, hqueue, (Bool.and_false _).symm,
    fun _ => rfl, rfl, (Option.or_none ..).symm⟩

/-! ### Runs -/

/-- What is asked of the daemon next fits what was asked before, and is added to the log. -/
theorem step_fits (h : daemon.Tracks options queue log) (event : Event) :
    (daemon.step event).1.Fits options queue log ∧
      (daemon.step event).1.Moves daemon (daemon.step event).2 := by
  cases event with
  | act files action => exact step_inquiry h rfl
  | describe => exact step_inquiry h rfl
  | greet => exact step_greet h
  | close => exact daemon.step_close

/-- Whatever happens, every entry of the log fits those before it. -/
theorem play_fits (h : daemon.Tracks options queue log) (events : List Event) :
    (daemon.play events).1.map Entry.event = events ∧
      (daemon.play events).2.Tracks options queue (log ++ (daemon.play events).1) ∧
      ∀ before entry after, (daemon.play events).1 = before ++ entry :: after →
        entry.Fits options queue (log ++ before) := by
  induction events generalizing daemon log with
  | nil =>
      refine ⟨rfl, by simpa [play] using h, fun before entry after hlog => ?_⟩
      simp [play] at hlog
  | cons event rest ih =>
      obtain ⟨hfits, hmoves⟩ := step_fits h event
      obtain ⟨hevents, htracks, hrest⟩ := ih (h.append hfits hmoves)
      have hplay : daemon.play (event :: rest) =
          ((daemon.step event).1 :: ((daemon.step event).2.play rest).1,
            ((daemon.step event).2.play rest).2) :=
        rfl
      rw [hplay]
      refine ⟨congrArg (event :: ·) hevents, by simpa using htracks,
        fun before entry after hsplit => ?_⟩
      cases before with
      | nil =>
          obtain ⟨rfl, _⟩ := List.cons.inj hsplit
          simpa using hfits
      | cons first before =>
          obtain ⟨rfl, hlater⟩ := List.cons.inj hsplit
          simpa using hrest before entry after hlater

end Daemon

/-! ## Rules of a log -/

/-- The property metadata are asked for only by an inquiry for them, where none are kept. -/
theorem Inquiry.operation_orderly (inquiry : Inquiry) (options : WriteOptions) :
    (inquiry.operation options).run.Orderly
      fun call => call = .describeProperties → inquiry = .describe none := by
  cases inquiry with
  | act files action =>
      exact (action.perform_orderly options files).mono fun call hother hcall => absurd hcall hother
  | describe kept =>
      cases kept with
      | some metadata => exact .done _
      | none => exact .ask (fun _ => rfl) (fun fault => ⟨_, rfl, rfl⟩) fun answer => .done _

/-- The rules that an entry keeps which comes after others. -/
structure Entry.Proper (earlier : Log) (entry : Entry) : Prop where
  /-- No analysis is requested that the toolkit is known not to offer. -/
  offered : ∀ request ∈ entry.sent, request.method = "analyze" → ∃ analysis : Analysis,
    request.params.bind (·.member? "kind") = some (.str analysis.name) ∧
      analysis.OfferedBy (Log.profile? earlier)
  /-- The editor is told so instead. -/
  outdated : ∀ files action analysis payload arena, entry.event = .act files action →
    action.analysis? = some analysis → ¬ analysis.OfferedBy (Log.profile? earlier) →
    action.payload? = some payload → readPayloadOrText payload = .ok arena →
    action.misread? = none → entry.sent = [] ∧ entry.reply = .outcome (.error
      ⟨analysis.outdatedMessage, "Please update the toolkit to a newer version"⟩)
  /-- The property metadata are requested for their own sake, and only until they are had. -/
  wanted : ∀ request ∈ entry.sent, request.method = "property_metadata" →
    entry.event = .describe ∧ Log.metadata? earlier = none
  /-- From then on they are given without a request. -/
  kept : ∀ metadata, entry.event = .describe → Log.metadata? earlier = some metadata →
    entry.sent = [] ∧ entry.reply = .outcome (.ok (.obj [("meta_dict", metadata)]))
  /-- Edits are no business of the toolkit. -/
  edited : ∀ files action, entry.event = .act files action →
    ((∃ request, action = .insert request) ∨ ∃ request, action = .remove request) →
      entry.sent = []
  /-- Nothing is sent on a closed channel, and whatever should be sent fails. -/
  late : Log.isOpen earlier = false → entry.sent = [] ∧
    (entry.event = .greet → entry.reply = .profile (.error .connectionClosed)) ∧
    ∀ answered ∈ entry.said, (answered.2 = .error .connectionClosed ∧ ∃ failure,
        entry.reply = .outcome (.error failure) ∧
          failure.details = "ConnectionClosed: Connection closed") ∨
      ∃ analysis, answered.1.analysis? = some analysis ∧
        ¬ analysis.OfferedBy (Log.profile? earlier) ∧
        answered.2 = .error (.unsupported analysis.title)

namespace Entry.Fits

variable {options : WriteOptions} {queue : List Prepared} {earlier : Log} {entry : Entry}

/-- An analysis is requested only when the profile that was received offers it. -/
theorem offered (h : entry.Fits options queue earlier) {request : Request}
    (hrequest : request ∈ entry.sent) (hmethod : request.method = "analyze") :
    ∃ analysis : Analysis, request.params.bind (·.member? "kind") = some (.str analysis.name) ∧
      analysis.OfferedBy (Log.profile? earlier) := by
  cases h with
  | asked _ _ hserved =>
      obtain ⟨call, _, _, hallowed, hcall, hparams⟩ := hserved.exists_call hrequest
      obtain ⟨query, rfl⟩ := Call.eq_analyze (hcall.symm.trans hmethod)
      exact ⟨query.analysis, by rw [hparams]; exact query.kind_toJson, hallowed _ rfl⟩
  | greeted _ _ =>
      obtain rfl := List.mem_singleton.mp hrequest
      simp at hmethod
  | ignored | closed => cases hrequest

/-- The metadata is requested only for an event that asks for it, and only while there is none. -/
theorem wanted (h : entry.Fits options queue earlier) {request : Request}
    (hrequest : request ∈ entry.sent) (hmethod : request.method = "property_metadata") :
    entry.event = .describe ∧ Log.metadata? earlier = none := by
  cases h with
  | @asked event inquiry _ _ _ hinquiry hplays hserved =>
      obtain ⟨call, answer, hsaid, _, hcall, _⟩ := hserved.exists_call hrequest
      obtain rfl := (inquiry.operation_orderly options).may_of_mem hplays _ hsaid
        (Call.eq_describeProperties (hcall.symm.trans hmethod))
      cases event with
      | describe => exact ⟨rfl, Inquiry.describe.inj (Option.some.inj hinquiry)⟩
      | _ => cases hinquiry
  | greeted _ _ =>
      obtain rfl := List.mem_singleton.mp hrequest
      simp at hmethod
  | ignored | closed => cases hrequest

/-- An analysis that is not offered fails without a request. -/
theorem outdated (h : entry.Fits options queue earlier) {files : FileLookup} {action : Action}
    {analysis : Analysis} {payload : Json} {arena : Arena}
    (hevent : entry.event = .act files action)
    (hanalysis : action.analysis? = some analysis)
    (hoffered : ¬ analysis.OfferedBy (Log.profile? earlier))
    (hpayload : action.payload? = some payload) (hread : readPayloadOrText payload = .ok arena)
    (hmisread : action.misread? = none) : entry.sent = [] ∧ entry.reply = .outcome (.error
      ⟨analysis.outdatedMessage, "Please update the toolkit to a newer version"⟩) := by
  cases h with
  | asked hinquiry hplays hserved =>
      cases hevent
      cases hinquiry
      obtain ⟨query, next, rfl, hrun⟩ := Action.perform_analyzes hanalysis hpayload hread hmisread
        options files
      have horderly := (Inquiry.act files action).operation_orderly options
      rw [Inquiry.operation, hrun] at hplays horderly
      cases hplays with
      | ask hmore =>
          cases hserved with
          | unsupported hcall _ hrest =>
              cases hcall
              obtain ⟨rfl, failure, rfl, hexplains⟩ := horderly.of_fault (.ask hmore)
                (List.nil_append _).symm
              cases hrest
              exact ⟨rfl, congrArg (Reply.outcome ∘ Except.error) hexplains⟩
          | closed _ hallowed _ => exact absurd (hallowed _ rfl) hoffered
          | answered _ hallowed _ => exact absurd (hallowed _ rfl) hoffered
  | greeted | ignored | closed => cases hevent

/-- Metadata that was received once is answered without a request. -/
theorem kept (h : entry.Fits options queue earlier) {metadata : Json}
    (hevent : entry.event = .describe) (hkept : Log.metadata? earlier = some metadata) :
    entry.sent = [] ∧ entry.reply = .outcome (.ok (.obj [("meta_dict", metadata)])) := by
  cases h with
  | asked hinquiry hplays hserved =>
      cases hevent
      cases hinquiry
      rw [hkept] at hplays
      cases hplays
      cases hserved
      exact ⟨rfl, rfl⟩
  | greeted | ignored | closed => cases hevent

theorem edited (h : entry.Fits options queue earlier) {files : FileLookup} {action : Action}
    (hevent : entry.event = .act files action)
    (hedits : (∃ request, action = .insert request) ∨ ∃ request, action = .remove request) :
    entry.sent = [] := by
  cases h with
  | asked hinquiry hplays hserved =>
      cases hevent
      cases hinquiry
      obtain ⟨request, rfl⟩ | ⟨request, rfl⟩ := hedits <;>
      · cases hplays
        cases hserved
        rfl
  | greeted | ignored | closed => cases hevent

/-- After closing nothing is sent, and no call is answered. -/
theorem late (h : entry.Fits options queue earlier) (hclosed : Log.isOpen earlier = false) :
    entry.sent = [] ∧
      (entry.event = .greet → entry.reply = .profile (.error .connectionClosed)) ∧
      ∀ answered ∈ entry.said, (answered.2 = .error .connectionClosed ∧ ∃ failure,
          entry.reply = .outcome (.error failure) ∧
            failure.details = "ConnectionClosed: Connection closed") ∨
        ∃ analysis, answered.1.analysis? = some analysis ∧
          ¬ analysis.OfferedBy (Log.profile? earlier) ∧
          answered.2 = .error (.unsupported analysis.title) := by
  cases h with
  | @asked event inquiry said sent outcome hinquiry hplays hserved =>
      rw [hclosed] at hserved
      obtain ⟨hsent, hanswers⟩ := hserved.of_closed
      refine ⟨hsent, fun hevent => ?_, fun answered hmem => ?_⟩
      · cases hevent
        cases hinquiry
      · obtain hunsupported | hfault := hanswers answered hmem
        · exact .inr hunsupported
        · refine .inl ⟨hfault, ?_⟩
          -- An operation ends with the first call that fails, and its failure explains that call.
          obtain ⟨before, after, hsaid⟩ := List.append_of_mem hmem
          obtain ⟨call, answer⟩ := answered
          obtain rfl : answer = .error .connectionClosed := hfault
          obtain ⟨_, failure, rfl, hexplains⟩ :=
            (inquiry.operation_orderly options).of_fault hplays hsaid
          refine ⟨failure, rfl, ?_⟩
          unfold Call.Explains at hexplains
          split at hexplains
          · rw [hexplains]; rfl
          · exact hexplains
  | greeted hopen _ =>
      rw [hclosed] at hopen
      cases hopen
  | ignored _ => exact ⟨rfl, fun _ => rfl, by simp⟩
  | closed => exact ⟨rfl, by simp, by simp⟩

theorem proper (h : entry.Fits options queue earlier) : entry.Proper earlier where
  offered := fun _ => h.offered
  outdated := fun _ _ _ _ _ => h.outdated
  wanted := fun _ => h.wanted
  kept := fun _ => h.kept
  edited := fun _ _ => h.edited
  late := h.late

end Entry.Fits

namespace Daemon

theorem tracks_ofQueue (queue : List Prepared) (limit : Option Nat) (options : WriteOptions) :
    (ofClient (Client.ofChannel (PreparedChannel.ofQueue queue) limit) options).Tracks options
      queue [] :=
  ⟨rfl, rfl, rfl, rfl, fun _ => rfl, rfl, rfl, rfl⟩

/-- Whatever a daemon is asked for, and whatever responses are prepared for it, its requests are
numbered from one on and take the responses in order, and every entry of its log is what it has to
be after those before it. -/
theorem log_proper (queue : List Prepared) (limit : Option Nat) (options : WriteOptions)
    (events : List Event) :
    let start := ofClient (Client.ofChannel (PreparedChannel.ofQueue queue) limit) options
    let log := (start.play events).1
    let last := (start.play events).2
    log.map Entry.event = events ∧
      last.client.channel.requests = log.requests ∧
      log.requests.map Request.id =
        (List.range' 1 log.requests.length).map (fun id => .number id) ∧
      last.client.channel.queue = queue.drop log.requests.length ∧
      last.client.info = log.profile? ∧ last.metadata = log.metadata? ∧
      ∀ before entry after, log = before ++ entry :: after →
        entry.Fits options queue before ∧ entry.Proper before := by
  intro start log last
  obtain ⟨hevents, htracks, hfits⟩ := play_fits (tracks_ofQueue queue limit options) events
  exact ⟨hevents, htracks.requests, htracks.ids, htracks.queue, htracks.info, htracks.metadata,
    fun before entry after hlog =>
      ⟨hfits before entry after hlog, (hfits before entry after hlog).proper⟩⟩

/-- The first request for the property metadata gets no response, the second one does, and there is
no third. -/
example : ((ofClient (Client.ofChannel (PreparedChannel.ofQueue
      [.silence, .response ⟨"2.0", .number 7, some (.obj []), none⟩, .silence]) none) ⟨false⟩).play
        [.describe, .describe, .describe]).1.map (fun entry => entry.sent.map Request.id) =
    [[.number 1], [.number 2], []] := by
  decide

end Daemon

end DataflowEditor

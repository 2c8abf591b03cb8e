import DataflowEditor.Proofs.Toolkit.Dialogue
import DataflowEditor.Toolkit.Client

/-! # Calls on a prepared channel

A client turns the calls of a dialogue into requests. An analysis that the toolkit is known not to
offer is refused by the client itself, and a closed channel refuses everything else. As long as the
channel is open, every other call is one request: it has the next number, is recorded, and is
answered by the next of the responses that are prepared.
-/

namespace DataflowEditor

/-! ## Calls -/

/-- The method tells which call was made. -/
theorem Call.eq_analyze {call : Call} (h : call.method = "analyze") :
    ∃ query, call = .analyze query := by
  cases call with
  | analyze query => exact ⟨query, rfl⟩
  | _ => revert h; simp [Call.method]

theorem Call.eq_describeProperties {call : Call} (h : call.method = "property_metadata") :
    call = .describeProperties := by
  cases call with
  | describeProperties => rfl
  | _ => revert h; simp [Call.method]

theorem Fields.append?_cons (member : String × Json) (fields : Fields) (key : String)
    (value : Option Json) :
    Fields.append? (member :: fields) key value = member :: fields.append? key value := by
  cases value <;> rfl

/-- A request for an analysis names it. -/
theorem AnalysisQuery.kind_toJson (query : AnalysisQuery) :
    query.toJson.member? "kind" = some (.str query.analysis.name) := by
  rw [toJson, toFields]
  simp only [Fields.append?_cons]
  rfl

/-! ## Calls that are served -/

/-- The analysis needs no capability, or one that the toolkit states, or the toolkit has not said
anything about itself. -/
def Analysis.OfferedBy (analysis : Analysis) (info : Option ToolkitProfile) : Prop :=
  ∀ capability profile, analysis.needs? = some capability → info = some profile →
    capability ∈ profile.capabilities

/-- The call may be made, as far as is known about the toolkit. -/
def Call.AllowedBy (call : Call) (info : Option ToolkitProfile) : Prop :=
  ∀ analysis, call.analysis? = some analysis → analysis.OfferedBy info

/-- What the next response that is prepared says, if there is any. -/
def Prepared.read {α : Type} (decode : Decoder α) (next : Option Prepared) :
    Except ToolkitFault α := do
  let response ← (next.map PreparedChannel.outcome).getD (.error .noResult)
  let result ← Client.resultOf response
  (result.decodeAs decode).mapError .decode

/-- Calls and their answers, with the requests that are recorded for them. The toolkit has said so
much about itself, the channel is open or not, these responses are left and this is the number of
the next request. -/
inductive Served (info : Option ToolkitProfile) (connected : Bool) :
    List Prepared → Nat → List Answered → List Request → Prop where
  | done {queue : List Prepared} {next : Nat} : Served info connected queue next [] []
  | unsupported {queue : List Prepared} {next : Nat} {call : Call} {analysis : Analysis}
      {said : List Answered} {sent : List Request} (hanalysis : call.analysis? = some analysis)
      (hoffered : ¬ analysis.OfferedBy info) (hrest : Served info connected queue next said sent) :
      Served info connected queue next
        (⟨call, .error (.unsupported analysis.title)⟩ :: said) sent
  | closed {queue : List Prepared} {next : Nat} {call : Call} {said : List Answered}
      {sent : List Request} (hconnected : connected = false) (hallowed : call.AllowedBy info)
      (hrest : Served info connected queue next said sent) :
      Served info connected queue next (⟨call, .error .connectionClosed⟩ :: said) sent
  | answered {queue : List Prepared} {next : Nat} {call : Call} {said : List Answered}
      {sent : List Request} (hconnected : connected = true) (hallowed : call.AllowedBy info)
      (hrest : Served info connected queue.tail (next + 1) said sent) :
      Served info connected queue next
        (⟨call, Prepared.read call.decodeAnswer queue.head?⟩ :: said)
        (⟨"2.0", .number next, call.method, some call.params⟩ :: sent)

namespace Served

variable {info : Option ToolkitProfile} {connected : Bool} {queue : List Prepared} {next : Nat}
  {said : List Answered} {sent : List Request}

/-- The requests are numbered from the next number on. -/
theorem ids (h : Served info connected queue next said sent) :
    sent.map Request.id = (List.range' next sent.length).map fun id => .number id := by
  induction h with
  | done => rfl
  | unsupported _ _ _ ih | closed _ _ _ ih => exact ih
  | answered _ _ _ ih => rw [List.map_cons, ih, List.length_cons, List.range'_succ, List.map_cons]

/-- Every request that is recorded stands for a call that was made and may be made. -/
theorem exists_call (h : Served info connected queue next said sent) {request : Request}
    (hrequest : request ∈ sent) : ∃ call answer, ⟨call, answer⟩ ∈ said ∧ call.AllowedBy info ∧
      request.method = call.method ∧ request.params = some call.params := by
  induction h with
  | done => cases hrequest
  | unsupported _ _ _ ih | closed _ _ _ ih =>
      obtain ⟨call, answer, hcall, hrest⟩ := ih hrequest
      exact ⟨call, answer, List.mem_cons_of_mem _ hcall, hrest⟩
  | answered _ hallowed _ ih =>
      rcases List.mem_cons.mp hrequest with rfl | hrequest
      · exact ⟨_, _, List.mem_cons_self, hallowed, rfl, rfl⟩
      · obtain ⟨call, answer, hcall, hrest⟩ := ih hrequest
        exact ⟨call, answer, List.mem_cons_of_mem _ hcall, hrest⟩

/-- A closed channel records nothing and gives no answers. -/
theorem of_closed (h : Served info false queue next said sent) : sent = [] ∧
    ∀ answered ∈ said, (∃ analysis, answered.1.analysis? = some analysis ∧
      ¬ analysis.OfferedBy info ∧ answered.2 = .error (.unsupported analysis.title)) ∨
      answered.2 = .error .connectionClosed := by
  induction h with
  | done => exact ⟨rfl, by simp⟩
  | unsupported hanalysis hoffered _ ih =>
      exact ⟨ih.1, List.forall_mem_cons.mpr ⟨.inl ⟨_, hanalysis, hoffered, rfl⟩, ih.2⟩⟩
  | closed _ _ _ ih => exact ⟨ih.1, List.forall_mem_cons.mpr ⟨.inr rfl, ih.2⟩⟩
  | answered hconnected _ _ _ => cases hconnected

end Served

/-! ## Clients -/

namespace Client

variable {client next last : Client PreparedChannel} {sent more : List Request}

/-- A client allows an analysis exactly if the toolkit has stated the capability for it. -/
theorem allows_iff {analysis : Analysis} :
    client.allows analysis = true ↔ analysis.OfferedBy client.info := by
  unfold allows Analysis.OfferedBy
  cases analysis.needs? <;> cases client.info <;> simp [ToolkitProfile.offers]

/-- What a client becomes when it sends requests. -/
structure Sent (client next : Client PreparedChannel) (sent : List Request) : Prop where
  info : next.info = client.info
  connected : next.channel.connected = client.channel.connected
  requests : next.channel.requests = client.channel.requests ++ sent
  queue : next.channel.queue = client.channel.queue.drop sent.length
  /-- On a closed channel numbers are given away for nothing. -/
  numbered : client.channel.connected = true → next.nextId = client.nextId + sent.length

theorem Sent.refl (client : Client PreparedChannel) : client.Sent client [] where
  info := rfl
  connected := rfl
  requests := (List.append_nil _).symm
  queue := rfl
  numbered := fun _ => rfl

/-- What is sent first and what is sent then are sent in turn. -/
theorem Sent.trans (h : client.Sent next sent) (hmore : next.Sent last more) :
    client.Sent last (sent ++ more) where
  info := hmore.info.trans h.info
  connected := hmore.connected.trans h.connected
  requests := by rw [hmore.requests, h.requests, List.append_assoc]
  queue := by rw [hmore.queue, h.queue, List.drop_drop, List.length_append]
  numbered := fun hconnected => by
    rw [hmore.numbered (h.connected.trans hconnected), h.numbered hconnected, List.length_append,
      Nat.add_assoc]

section Exchange

variable {α : Type} (client : Client PreparedChannel) (method : String) (params : Json)
  (decode : Decoder α)

/-- Nothing is sent over a connection that is closed. -/
theorem exchange_closed (hconnected : client.channel.connected = false) :
    (client.exchange method params decode).1 = .error .connectionClosed ∧
      client.Sent (client.exchange method params decode).2 [] := by
  have hrefused : Channel.request client.channel ⟨protocolVersion, .number client.nextId, method,
      some params⟩ client.limit = (.error .connectionClosed, client.channel) := by
    simp [Channel.request, PreparedChannel.request, hconnected]
  rw [exchange, hrefused]
  refine ⟨rfl, rfl, rfl, (List.append_nil _).symm, rfl, fun hopen => ?_⟩
  rw [hconnected] at hopen
  cases hopen

/-- Over an open connection one request is sent, and the next response in the queue is read. -/
theorem exchange_open (hconnected : client.channel.connected = true) :
    (client.exchange method params decode).1 = Prepared.read decode client.channel.queue.head? ∧
      client.Sent (client.exchange method params decode).2
        [⟨"2.0", .number client.nextId, method, some params⟩] := by
  have hrecorded : Channel.request client.channel ⟨protocolVersion, .number client.nextId, method,
      some params⟩ client.limit =
        ((client.channel.queue.head?.map PreparedChannel.outcome).getD (.error .noResult),
          { client.channel with
            requests := client.channel.requests ++
              [⟨"2.0", .number client.nextId, method, some params⟩]
            queue := client.channel.queue.tail }) := by
    cases hqueue : client.channel.queue <;>
      simp [Channel.request, PreparedChannel.request, hconnected, hqueue, protocolVersion]
  rw [exchange, hrecorded]
  exact ⟨rfl, rfl, rfl, rfl, List.drop_one.symm, fun _ => rfl⟩

end Exchange

/-! ### Answers -/

/-- An analysis that the toolkit has not offered is refused without a request. -/
theorem answer_unsupported {call : Call} {analysis : Analysis}
    (hanalysis : call.analysis? = some analysis) (hoffered : ¬ analysis.OfferedBy client.info) :
    client.answer call = (.error (.unsupported analysis.title), client) := by
  have hallows : client.allows analysis = false := by
    rw [← Bool.not_eq_true, allows_iff]
    exact hoffered
  rw [answer, hanalysis, Option.filter_some, hallows]
  rfl

/-- A call that is allowed is sent, and its answer decoded. -/
theorem answer_allowed {call : Call} (hallowed : call.AllowedBy client.info) :
    client.answer call = client.exchange call.method call.params call.decodeAnswer := by
  have hnone : (call.analysis?.filter fun analysis => !client.allows analysis) = none := by
    rw [Option.filter_eq_none_iff]
    intro analysis hanalysis
    simp [allows_iff.mpr (hallowed analysis hanalysis)]
  rw [answer, hnone]

end Client

namespace Dialogue

/-- However a dialogue goes on, its calls are served in turn. -/
theorem served {α : Type} (dialogue : Dialogue α) (client : Client PreparedChannel)
    (number : Nat) (hnumber : client.channel.connected = true → number = client.nextId) : ∃ sent,
    Served client.info client.channel.connected client.channel.queue number
      (dialogue.trace Client.answer client) sent ∧
    client.Sent (dialogue.run Client.answer client).2 sent := by
  induction dialogue generalizing client number with
  | done result => exact ⟨[], .done, .refl client⟩
  | ask call next ih =>
      rw [trace, Dialogue.run]
      by_cases hallowed : call.AllowedBy client.info
      case neg =>
        obtain ⟨analysis, hanalysis, hoffered⟩ : ∃ analysis, call.analysis? = some analysis ∧
            ¬ analysis.OfferedBy client.info := by
          simpa [Call.AllowedBy] using hallowed
        rw [Client.answer_unsupported hanalysis hoffered]
        obtain ⟨sent, hserved, hsent⟩ := ih (.error (.unsupported analysis.title)) client number
          hnumber
        exact ⟨sent, .unsupported hanalysis hoffered hserved, hsent⟩
      -- Both outcomes of an exchange are stated before the exchange is hidden behind a name.
      rw [Client.answer_allowed hallowed]
      have hclosed := client.exchange_closed call.method call.params call.decodeAnswer
      have hopen := client.exchange_open call.method call.params call.decodeAnswer
      generalize client.exchange call.method call.params call.decodeAnswer = exchanged
        at hclosed hopen ⊢
      obtain ⟨answer, after⟩ := exchanged
      dsimp only at hclosed hopen ⊢
      cases hconnected : client.channel.connected with
      | false =>
          obtain ⟨rfl, hfirst⟩ := hclosed hconnected
          have hlater := hfirst.connected.trans hconnected
          obtain ⟨sent, hserved, hsent⟩ := ih (.error .connectionClosed) after number
            fun hafter => by rw [hlater] at hafter; cases hafter
          rw [hfirst.info, hlater, hfirst.queue] at hserved
          exact ⟨sent, .closed rfl hallowed hserved, hfirst.trans hsent⟩
      | true =>
          obtain ⟨rfl, hfirst⟩ := hopen hconnected
          obtain rfl := hnumber hconnected
          have hlater := hfirst.connected.trans hconnected
          obtain ⟨sent, hserved, hsent⟩ := ih (Prepared.read call.decodeAnswer
            client.channel.queue.head?) after _ fun _ => (hfirst.numbered hconnected).symm
          rw [hfirst.info, hlater, hfirst.queue] at hserved
          exact ⟨_ :: sent, .answered rfl hallowed (by simpa using hserved), hfirst.trans hsent⟩

end Dialogue

end DataflowEditor

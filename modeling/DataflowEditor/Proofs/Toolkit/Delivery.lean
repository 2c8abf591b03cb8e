import DataflowEditor.Proofs.Text.Utf8
import DataflowEditor.Proofs.Toolkit.Correlation
import DataflowEditor.Toolkit.Pipe

/-! # A request that is answered

A request over a pipe is sent, the worker answers it on one line, and the response on that line is
what the request comes to, whether the worker goes on afterwards or exits, and whatever other
requests the link has seen. The turns of the request are followed through the view that the link
has of it.
-/

namespace DataflowEditor

namespace Link

/-- What was left for a request is not lost when the output ends. -/
theorem waiter?_endOutput {link : Link} {id : Nat} (hreading : link.reader = .reading)
    (hpending : id ∉ link.pending) : (Pipe.endOutput link).waiter? id = link.waiter? id := by
  have hrun : Pipe.endOutput link = { Link.dropPending
      { link with reader := .ended, connected := false } with reader := .finished } := by
    simp [Pipe.endOutput, run, step, hreading]
  rw [hrun]
  exact congrArg View.waiter (view_dropPending_of_notMem hpending)


/-! ## Room for the next request -/

/-- Requests may be made from a number on: the link is connected and read, and has not seen any of
these numbers. -/
structure Awaits (link : Link) (first : Nat) : Prop where
  connected : link.connected = true
  reading : link.reader = .reading
  unused : ∀ id, first ≤ id → link.waiter? id = none

theorem Awaits.mono {link : Link} {first later : Nat} (h : link.Awaits first)
    (hle : first ≤ later) : link.Awaits later :=
  ⟨h.connected, h.reading, fun id hid => h.unused id (Nat.le_trans hle hid)⟩

/-- The step neither ends the connection nor brings a new request from a number on. -/
def Step.Quiet (first : Nat) : Step → Prop
  | .check id => id < first
  | .endOutput => False
  | .close => False
  | _ => True

theorem Effect.connected_of_quiet {id first : Nat} {view after : View} {step : Step}
    (h : Effect id view step after) (hquiet : step.Quiet first)
    (hconnected : view.connected = true) : after.connected = true := by
  cases h with
  | ended => cases hquiet
  | closed => cases hquiet
  | _ => exact hconnected

theorem Effect.reading_of_quiet {id first : Nat} {view after : View} {step : Step}
    (h : Effect id view step after) (hquiet : step.Quiet first)
    (hreading : view.reader = .reading) : after.reader = .reading := by
  cases h with
  | ended => cases hquiet
  | finished hended => simp [hreading] at hended
  | dropped hended => simp [hreading] at hended
  | _ => exact hreading

/-- A quiet step leaves the numbers unused from which requests may be made. -/
theorem Effect.unused_of_quiet {id first : Nat} {view after : View} {step : Step}
    (h : Effect id view step after) (hquiet : step.Quiet first) (hid : first ≤ id)
    (hunused : view.waiter = none) : after.waiter = none := by
  cases h with
  | checked => exact absurd hquiet (Nat.not_lt.mpr hid)
  | refused => exact absurd hquiet (Nat.not_lt.mpr hid)
  | registered hwaiter => simp [hunused] at hwaiter
  | cleared hwaiter => simp [hunused] at hwaiter
  | sent hwaiter => simp [hunused] at hwaiter
  | completed hwaiter => simp [hunused] at hwaiter
  | cancelled hwaiter => simp [hunused] at hwaiter
  | delivered => simp [hunused]
  | dropped => simp [hunused]
  | _ => exact hunused

/-- What one step preserves. -/
theorem Awaits.step {link : Link} {first : Nat} {step : Step} (h : link.Awaits first)
    (hquiet : step.Quiet first) : (link.step step).Awaits first where
  connected := (step_effect link step first).connected_of_quiet hquiet h.connected
  reading := (step_effect link step first).reading_of_quiet hquiet h.reading
  unused id hid := (step_effect link step id).unused_of_quiet hquiet hid (h.unused id hid)

/-- What a run preserves. -/
theorem Awaits.run {link : Link} {first : Nat} {steps : List Step} (h : link.Awaits first)
    (hquiet : ∀ step ∈ steps, step.Quiet first) : (link.run steps).Awaits first := by
  induction steps generalizing link with
  | nil => exact h
  | cons step rest ih =>
      obtain ⟨hstep, hrest⟩ := List.forall_mem_cons.mp hquiet
      exact ih (h.step hstep) hrest

theorem Awaits.forget {link : Link} {first : Nat} (h : link.Awaits first) (id : Nat) :
    (link.forget id).Awaits first := by
  refine ⟨h.connected, h.reading, fun other hother => ?_⟩
  have hunused := h.unused other hother
  rw [waiter?, List.find?_eq_none] at hunused ⊢
  intro waiter hwaiter
  exact hunused waiter ((List.mem_filter.mp hwaiter).1)

/-- The link when a worker reads a request. A limit of nothing has passed by then. -/
def sending (link : Link) (id : Nat) (limit : Option Nat) : Link :=
  let sent := (link.run [.check id, .act id .register, .act id .recheck]).step
    (.act id (.send none))
  if limit = some 0 then sent.step (.act id .cancel) else sent

/-- A request that may be made is sent, and a response to it may come. -/
theorem Awaits.view_sending {link : Link} {id : Nat} {limit : Option Nat} (h : link.Awaits id)
    (hlimit : limit ≠ some 0) :
    (link.sending id limit).view id = ⟨true, .reading, True, some ⟨id, .sent, .empty⟩⟩ := by
  have hchecked := view_check (h.unused id (Nat.le_refl id)) h.connected
  have hregistered := view_register (congrArg View.waiter hchecked)
  have hcleared := view_recheck (congrArg View.waiter hregistered)
    ((congrArg View.connected hregistered).trans
      ((congrArg View.connected hchecked).trans h.connected))
  have hsent := view_send (congrArg View.waiter hcleared)
  rw [hcleared, hregistered, hchecked] at hsent
  rw [sending, if_neg hlimit]
  refine hsent.trans ?_
  rw [view, h.connected, h.reading]

/-- After a request is sent, the next number is free for another one. -/
theorem Awaits.sending {link : Link} {id : Nat} (h : link.Awaits id) (limit : Option Nat) :
    (link.sending id limit).Awaits (id + 1) := by
  have hsent : ((link.run [.check id, .act id .register, .act id .recheck]).step
      (.act id (.send none))).Awaits (id + 1) := by
    apply Awaits.step
    · apply (h.mono (Nat.le_succ id)).run
      simp [Step.Quiet]
    · trivial
  rw [Link.sending]
  split
  · exact hsent.step trivial
  · exact hsent

/-- The response that was left for a request is what the request comes to. -/
theorem outcome?_collect {link : Link} {id : Nat} {response : Response}
    (h : link.waiter? id = some ⟨id, .sent, .response response⟩) :
    (link.run [.act id .collect, .act id .cancel]).outcome? id = some (.ok response) := by
  have hcollected := congrArg View.waiter (view_collect h)
  obtain ⟨later, hlater, hprogress⟩ := over_run hcollected rfl [.act id .cancel]
  exact outcome?_eq_some.mpr ⟨later, hlater, hprogress⟩

end Link

/-! ## Lines of a worker -/

namespace Pipe

/-- The octets of a text that is written on a line of its own. -/
def lineOf (text : String) : List UInt8 :=
  Text.octets text ++ [0x0a]

/-- A line of its own ends the text, and nothing is left over. -/
theorem splitOn_lineOf {text : String} (h : '\n' ∉ text.toList) :
    (lineOf text).splitOn 0x0a = [Text.octets text, []] := by
  have hoctets : ∀ octet ∈ Text.octets text, (octet == 0x0a) = false := by
    intro octet hmem
    rw [beq_eq_false_iff_ne]
    rintro rfl
    exact Text.lineBreak_notMem_octets h hmem
  rw [lineOf, List.splitOn, List.splitOnP_append_cons_of_forall_mem hoctets _ (beq_self_eq_true _),
    List.splitOnP_nil]

variable {ω : Type} {pipe : Pipe ω} {text : String}

/-- A line is taken by the link, and the output is at its end if the worker exits. -/
theorem hear_lineOf (pipe : Pipe ω) (hreading : pipe.link.reader = .reading)
    (hunread : pipe.unread = []) (h : '\n' ∉ text.toList) (next : Option ω) :
    pipe.hear (lineOf text) next = ⟨next, [], if next.isSome then pipe.link.step (.line text)
        else endOutput (pipe.link.step (.line text))⟩ := by
  have htaken : takeLines pipe.link [Text.octets text] = pipe.link.step (.line text) := by
    rw [takeLines, Text.ofOctets?_octets]
    rfl
  rw [hear, if_neg (by simp [hreading]), hunread, List.nil_append, splitOn_lineOf h]
  cases next <;> simp [htaken]

/-- The response on a line is left for the request that waits for it, even if the worker exits. -/
theorem waiter?_hear (pipe : Pipe ω) {id : Nat} {response : Response}
    (hsent : pipe.link.view id = ⟨true, .reading, True, some ⟨id, .sent, .empty⟩⟩)
    (hunread : pipe.unread = []) (hline : '\n' ∉ text.toList)
    (hresponse : Link.response? text = some response)
    (hanswers : response.id.asIndex? = some id) (next : Option ω) :
    (pipe.hear (lineOf text) next).link.waiter? id = some ⟨id, .sent, .response response⟩ := by
  have hreading : pipe.link.reader = .reading := congrArg Link.View.reader hsent
  have hpending : id ∈ pipe.link.pending := of_eq_true (congrArg Link.View.awaited hsent)
  have hwaiter : pipe.link.waiter? id = some ⟨id, .sent, .empty⟩ :=
    congrArg Link.View.waiter hsent
  have hview := Link.view_line hreading hresponse hanswers hpending
  have hleft : (pipe.link.step (.line text)).waiter? id = some ⟨id, .sent, .response response⟩ := by
    refine (congrArg Link.View.waiter hview).trans ?_
    rw [hwaiter]
    rfl
  rw [hear_lineOf pipe hreading hunread hline next]
  dsimp only
  split
  next => exact hleft
  next =>
    -- The requests still in waiting are dropped, but this one is no longer among them.
    have hstill : (pipe.link.step (.line text)).reader = .reading :=
      (congrArg Link.View.reader hview).trans hreading
    have htaken : id ∉ (pipe.link.step (.line text)).pending :=
      of_eq_false (congrArg Link.View.awaited hview)
    rw [Link.waiter?_endOutput hstill htaken, hleft]

/-- The pipe may be used for the requests from a number on, and the worker has left no line
unfinished. -/
structure Idle (pipe : Pipe ω) (first : Nat) : Prop where
  link : pipe.link.Awaits first
  unread : pipe.unread = []

theorem Idle.mono {first later : Nat} (h : pipe.Idle first) (hle : first ≤ later) :
    pipe.Idle later :=
  ⟨h.link.mono hle, h.unread⟩

theorem idle_toWorker (worker : ω) : (toWorker worker).Idle 0 :=
  ⟨⟨rfl, rfl, fun _ _ => rfl⟩, rfl⟩

section Requests

variable [Worker ω] {message : Request} {limit : Option Nat} {id : Nat} {worker again : ω}
  {next : Option ω} {response : Response}

/-- Sending is a run of the link: the request is sent, the output is heard, the result collected. -/
theorem send_eq {output : List UInt8} (hworker : pipe.worker = some worker)
    (hreply : Worker.read worker message.toJson.print = (output, next)) :
    pipe.send id message limit =
      let heard := Pipe.hear ⟨some worker, pipe.unread, pipe.link.sending id limit⟩ output next
      { heard with link := heard.link.run [.act id .collect, .act id .cancel] } := by
  obtain ⟨_, unread, link⟩ := pipe
  obtain rfl := hworker
  simp only [send, hreply, Link.sending]

/-- A request that the worker answers on a line comes to the response on the line. -/
theorem request_answered (hidle : pipe.Idle id) (hworker : pipe.worker = some worker)
    (hid : message.id.asIndex? = some id) (hlimit : limit ≠ some 0)
    (hreply : Worker.read worker message.toJson.print = (lineOf text, next))
    (hline : '\n' ∉ text.toList) (hresponse : Link.response? text = some response)
    (hanswers : response.id.asIndex? = some id) :
    (pipe.request message limit).1 = .ok response := by
  have hwaiter := waiter?_hear ⟨some worker, pipe.unread, pipe.link.sending id limit⟩
    (hidle.link.view_sending hlimit) hidle.unread hline hresponse hanswers next
  have houtcome : (pipe.send id message limit).link.outcome? id = some (.ok response) := by
    rw [send_eq hworker hreply]
    exact Link.outcome?_collect hwaiter
  rw [request, hidle.link.connected, hid]
  simp only [Bool.not_true, Bool.false_eq_true, if_false, houtcome, Option.getD_some]

/-- A pipe whose worker answers a request and goes on is idle again. -/
theorem request_idle (hidle : pipe.Idle id) (hworker : pipe.worker = some worker)
    (hid : message.id.asIndex? = some id)
    (hreply : Worker.read worker message.toJson.print = (lineOf text, some again))
    (hline : '\n' ∉ text.toList) :
    (pipe.request message limit).2.Idle (id + 1) ∧
      (pipe.request message limit).2.worker = some again := by
  have hsending := hidle.link.sending limit
  have htaken : ((pipe.link.sending id limit).step (.line text)).Awaits (id + 1) :=
    hsending.step trivial
  have hheard := hear_lineOf ⟨some worker, pipe.unread, pipe.link.sending id limit⟩
    hsending.reading hidle.unread hline (some again)
  rw [request, hidle.link.connected, hid]
  simp only [Bool.not_true, Bool.false_eq_true, if_false]
  rw [send_eq hworker hreply, hheard]
  refine ⟨⟨Link.Awaits.forget ?_ id, rfl⟩, rfl⟩
  apply htaken.run
  simp [Link.Step.Quiet]

end Requests

end Pipe

end DataflowEditor

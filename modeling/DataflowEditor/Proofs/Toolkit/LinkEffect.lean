import DataflowEditor.Toolkit.Link

/-! # What a link holds of one request

The requests of a link do not get in each other's way. What the link holds of one of them is changed
by the steps of that request, by a response to it, and by what happens to the connection, but by no
step of another request. The effects that a step can have on one request are told here once, and
whatever holds of a run is proved along them.
-/

namespace DataflowEditor

namespace Link

/-! ## The view of one request -/

/-- What a link holds of one request. -/
structure View where
  connected : Bool
  reader : Reader
  /-- A response may be handed to the request. -/
  awaited : Prop
  waiter : Option Waiter

def view (link : Link) (id : Nat) : View :=
  ⟨link.connected, link.reader, id ∈ link.pending, link.waiter? id⟩

section Views

variable {link : Link} {id other : Nat}

theorem id_of_waiter? {waiter : Waiter} (h : link.waiter? id = some waiter) : waiter.id = id := by
  simpa using List.find?_some h

theorem waiter?_map (waiters : List Waiter) {change : Waiter → Waiter}
    (hchange : ∀ waiter, (change waiter).id = waiter.id) (id : Nat) :
    ((waiters.map change).find? fun waiter => waiter.id = id) =
      (waiters.find? fun waiter => waiter.id = id).map change := by
  simp only [List.find?_map, Function.comp_def, hchange]

/-- A change to one request is seen under its number and under no other. -/
theorem waiter?_modifyWaiter {change : Waiter → Waiter}
    (hchange : ∀ waiter, (change waiter).id = waiter.id) :
    (link.modifyWaiter other change).waiter? id =
      (link.waiter? id).map fun waiter => if id = other then change waiter else waiter := by
  have hkept : ∀ waiter : Waiter,
      (if waiter.id = other then change waiter else waiter).id = waiter.id := by
    intro waiter
    split
    · exact hchange waiter
    · rfl
  rw [waiter?, modifyWaiter, waiter?_map _ hkept]
  cases h : link.waiters.find? fun waiter => waiter.id = id with
  | none => simp [waiter?, h]
  | some waiter =>
      have hid : waiter.id = id := id_of_waiter? h
      simp [waiter?, h, hid]

/-- Only requests that are registered learn that the reader has finished. -/
theorem waiter?_dropPending : link.dropPending.waiter? id = (link.waiter? id).map fun waiter =>
    if waiter.id ∈ link.pending then { waiter with inbox := .dropped } else waiter := by
  rw [waiter?, dropPending]
  apply waiter?_map
  intro waiter
  split <;> rfl

theorem view_modifyWaiter_self {change : Waiter → Waiter}
    (hchange : ∀ waiter, (change waiter).id = waiter.id) :
    (link.modifyWaiter id change).view id =
      { link.view id with waiter := (link.waiter? id).map change } := by
  rw [view, waiter?_modifyWaiter hchange]
  simp [view, modifyWaiter]

theorem view_modifyWaiter_of_ne (h : id ≠ other) {change : Waiter → Waiter}
    (hchange : ∀ waiter, (change waiter).id = waiter.id) :
    (link.modifyWaiter other change).view id = link.view id := by
  rw [view, waiter?_modifyWaiter hchange]
  simp [view, modifyWaiter, h]

theorem view_unregister_self :
    (link.unregister id).view id = { link.view id with awaited := False } := by
  simp [view, unregister, waiter?]

theorem view_unregister_of_ne (h : id ≠ other) :
    (link.unregister other).view id = link.view id := by
  simp [view, unregister, waiter?, h]

theorem view_advance_self (progress : Progress) : (link.advance id progress).view id =
    { link.view id with waiter := (link.waiter? id).map ({ · with progress }) } :=
  view_modifyWaiter_self fun _ => rfl

theorem view_advance_of_ne (h : id ≠ other) (progress : Progress) :
    (link.advance other progress).view id = link.view id :=
  view_modifyWaiter_of_ne h fun _ => rfl

theorem view_complete_self (outcome : Except ToolkitFault Response) :
    (link.complete id outcome).view id = { link.view id with
      awaited := False,
      waiter := (link.waiter? id).map ({ · with progress := .completed outcome }) } := by
  rw [complete, view_unregister_self, view_advance_self]

theorem view_complete_of_ne (h : id ≠ other) (outcome : Except ToolkitFault Response) :
    (link.complete other outcome).view id = link.view id := by
  rw [complete, view_unregister_of_ne h, view_advance_of_ne h]

theorem view_register_self (progress : Progress) :
    Link.view { link.advance id progress with
      pending := link.pending.filter (· ≠ id) ++ [id] } id =
      { link.view id with
        awaited := True, waiter := (link.waiter? id).map ({ · with progress }) } := by
  have hview : (link.advance id progress).waiter? id =
      (link.waiter? id).map ({ · with progress }) :=
    congrArg View.waiter (view_advance_self progress)
  rw [← hview]
  simp [view, waiter?, advance, modifyWaiter]

theorem view_register_of_ne (h : id ≠ other) (progress : Progress) :
    Link.view { link.advance other progress with
      pending := link.pending.filter (· ≠ other) ++ [other] } id = link.view id := by
  have hview : (link.advance other progress).waiter? id = link.waiter? id :=
    congrArg View.waiter (view_advance_of_ne h progress)
  have hsame : link.view id = ⟨link.connected, link.reader, id ∈ link.pending,
      (link.advance other progress).waiter? id⟩ := by
    rw [hview]
    rfl
  rw [hsame]
  simp [view, waiter?, advance, modifyWaiter, h]

/-- A new request is found only if its number is new. -/
theorem view_append (waiter : Waiter) :
    Link.view { link with waiters := link.waiters ++ [waiter] } id = { link.view id with
      waiter := (link.waiter? id).or (if waiter.id = id then some waiter else none) } := by
  simp [view, waiter?, List.find?_singleton]

theorem view_dropPending_of_mem (h : id ∈ link.pending) : link.dropPending.view id =
    { link.view id with
      awaited := False, waiter := (link.waiter? id).map ({ · with inbox := .dropped }) } := by
  have hwaiter : link.dropPending.waiter? id =
      (link.waiter? id).map ({ · with inbox := .dropped }) := by
    rw [waiter?_dropPending]
    refine Option.map_congr fun waiter hwaiter => ?_
    rw [id_of_waiter? hwaiter, if_pos h]
  rw [view, hwaiter]
  simp [view, dropPending]

/-- What is left for a request that is no longer registered stays. -/
theorem view_dropPending_of_notMem (h : id ∉ link.pending) : link.dropPending.view id =
    { link.view id with awaited := False } := by
  have hwaiter : link.dropPending.waiter? id = link.waiter? id := by
    rw [waiter?_dropPending]
    cases hwaiter : link.waiter? id with
    | none => rfl
    | some waiter => rw [Option.map_some, id_of_waiter? hwaiter, if_neg h]
  rw [view, hwaiter]
  simp [view, dropPending]

end Views

/-! ## The turns of a request -/

section Turns

variable {link : Link} {id : Nat} {progress : Progress} {inbox : Inbox}

theorem step_act {waiter : Waiter} (h : link.waiter? id = some waiter) (act : Act) :
    link.step (.act id act) = link.act waiter act := by
  rw [step, h]

theorem view_check (hnone : link.waiter? id = none) (hconnected : link.connected = true) :
    (link.step (.check id)).view id =
      { link.view id with waiter := some ⟨id, .checked, .empty⟩ } := by
  have hnew : ¬ (link.waiter? id).isSome := by simp [hnone]
  rw [step, if_neg hnew]
  dsimp only
  rw [view_append, hnone, if_pos hconnected, if_pos rfl]
  rfl

theorem view_register (h : link.waiter? id = some ⟨id, .checked, inbox⟩) :
    (link.step (.act id .register)).view id =
      { link.view id with awaited := True, waiter := some ⟨id, .registered, inbox⟩ } := by
  rw [step_act h]
  dsimp only [Link.act]
  rw [view_register_self, h]
  rfl

theorem view_recheck (h : link.waiter? id = some ⟨id, .registered, inbox⟩)
    (hconnected : link.connected = true) : (link.step (.act id .recheck)).view id =
      { link.view id with waiter := some ⟨id, .cleared, inbox⟩ } := by
  rw [step_act h]
  dsimp only [Link.act]
  rw [if_pos hconnected, view_advance_self, h]
  rfl

theorem view_send (h : link.waiter? id = some ⟨id, .cleared, inbox⟩) :
    (link.step (.act id (.send none))).view id =
      { link.view id with waiter := some ⟨id, .sent, inbox⟩ } := by
  rw [step_act h]
  dsimp only [Link.act]
  rw [view_advance_self, h]
  rfl

theorem view_collect {response : Response}
    (h : link.waiter? id = some ⟨id, .sent, .response response⟩) :
    (link.step (.act id .collect)).view id = { link.view id with
      awaited := False, waiter := some ⟨id, .completed (.ok response), .response response⟩ } := by
  rw [step_act h]
  dsimp only [Link.act, collect]
  rw [view_complete_self, h]
  rfl

/-- A response is left for the request that waits for it. -/
theorem view_line {text : String} {response : Response} (hreading : link.reader = .reading)
    (hresponse : response? text = some response) (hid : response.id.asIndex? = some id)
    (hpending : id ∈ link.pending) : (link.step (.line text)).view id = { link.view id with
      awaited := False,
      waiter := (link.waiter? id).map ({ · with inbox := .response response }) } := by
  rw [step, if_pos hreading, takeLine, hresponse]
  dsimp only
  rw [deliver, hid]
  dsimp only
  rw [if_pos hpending, view_modifyWaiter_self (by intro; rfl), view_unregister_self]
  rfl

end Turns

/-! ## Effects of steps -/

/-- Why a request comes to an end, from where it stands and what the reader left for it. -/
inductive Ends (connected : Bool) : Progress → Inbox → Except ToolkitFault Response → Prop
  | closed {inbox : Inbox} : connected = false →
      Ends connected .registered inbox (.error .connectionClosed)
  | unsent {inbox : Inbox} (fault : FileFault) :
      Ends connected .cleared inbox (.error (.file fault))
  | answered (response : Response) : Ends connected .sent (.response response) (.ok response)
  | dropped : Ends connected .sent .dropped (.error .connectionClosed)

/-- What a step makes of what a link holds of one request. -/
inductive Effect (id : Nat) (view : View) : Step → View → Prop
  | idle {step : Step} : Effect id view step view
  | checked : view.waiter = none → view.connected = true →
      Effect id view (.check id) { view with waiter := some ⟨id, .checked, .empty⟩ }
  | refused : view.waiter = none → view.connected = false →
      Effect id view (.check id)
        { view with waiter := some ⟨id, .completed (.error .connectionClosed), .empty⟩ }
  | registered {inbox : Inbox} : view.waiter = some ⟨id, .checked, inbox⟩ →
      Effect id view (.act id .register)
        { view with awaited := True, waiter := some ⟨id, .registered, inbox⟩ }
  | cleared {inbox : Inbox} : view.waiter = some ⟨id, .registered, inbox⟩ →
      view.connected = true →
      Effect id view (.act id .recheck) { view with waiter := some ⟨id, .cleared, inbox⟩ }
  | sent {inbox : Inbox} : view.waiter = some ⟨id, .cleared, inbox⟩ →
      Effect id view (.act id (.send none)) { view with waiter := some ⟨id, .sent, inbox⟩ }
  | completed {act : Act} {progress : Progress} {inbox : Inbox}
      {outcome : Except ToolkitFault Response} : view.waiter = some ⟨id, progress, inbox⟩ →
      Ends view.connected progress inbox outcome →
      Effect id view (.act id act)
        { view with awaited := False, waiter := some ⟨id, .completed outcome, inbox⟩ }
  | cancelled {progress : Progress} {inbox : Inbox} : view.waiter = some ⟨id, progress, inbox⟩ →
      (∀ outcome, progress ≠ .completed outcome) →
      Effect id view (.act id .cancel)
        { view with awaited := False, waiter := some ⟨id, .cancelled, inbox⟩ }
  | delivered {text : String} {response : Response} : view.reader = .reading →
      response? text = some response → response.id.asIndex? = some id → view.awaited →
      Effect id view (.line text) { view with
        awaited := False, waiter := view.waiter.map ({ · with inbox := .response response }) }
  | ended : view.reader = .reading →
      Effect id view .endOutput { view with connected := false, reader := .ended }
  | finished : view.reader = .ended → ¬ view.awaited →
      Effect id view .dropWaiters { view with reader := .finished, awaited := False }
  | dropped : view.reader = .ended → view.awaited →
      Effect id view .dropWaiters { view with
        reader := .finished, awaited := False,
        waiter := view.waiter.map ({ · with inbox := .dropped }) }
  | closed : Effect id view .close { view with connected := false }

section Effects

variable {link : Link} {id : Nat}

/-- The steps of other requests do not touch this one. -/
theorem view_act_of_ne {waiter : Waiter} (h : id ≠ waiter.id) (act : Act) :
    (link.act waiter act).view id = link.view id := by
  unfold Link.act
  split
  · exact view_register_of_ne h _
  · split
    · exact view_advance_of_ne h _
    · exact view_complete_of_ne h _
  · exact view_advance_of_ne h _
  · exact view_complete_of_ne h _
  · unfold collect
    split
    · rfl
    · exact view_complete_of_ne h _
    · exact view_complete_of_ne h _
  · rfl
  · rw [view_unregister_of_ne h, view_advance_of_ne h]
  · rfl

/-- What a request does for itself, from where it stands. -/
theorem act_effect {progress : Progress} {inbox : Inbox}
    (h : link.waiter? id = some ⟨id, progress, inbox⟩) (act : Act) :
    Effect id (link.view id) (.act id act) ((link.act ⟨id, progress, inbox⟩ act).view id) := by
  cases act with
  | register =>
      cases progress with
      | checked =>
          dsimp only [Link.act]
          rw [view_register_self, h]
          exact .registered h
      | _ => exact .idle
  | recheck =>
      cases progress with
      | registered =>
          dsimp only [Link.act]
          split
          next hconnected =>
            rw [view_advance_self, h]
            exact .cleared h hconnected
          next hclosed =>
            rw [view_complete_self, h]
            exact .completed h (.closed ((Bool.not_eq_true _).mp hclosed))
      | _ => exact .idle
  | send fault =>
      cases progress with
      | cleared =>
          cases fault with
          | none =>
              dsimp only [Link.act]
              rw [view_advance_self, h]
              exact .sent h
          | some fault =>
              dsimp only [Link.act]
              rw [view_complete_self, h]
              exact .completed h (.unsent fault)
      | _ => cases fault <;> exact .idle
  | collect =>
      cases progress with
      | sent =>
          cases inbox with
          | empty => exact .idle
          | response response =>
              dsimp only [Link.act, collect]
              rw [view_complete_self, h]
              exact .completed h (.answered response)
          | dropped =>
              dsimp only [Link.act, collect]
              rw [view_complete_self, h]
              exact .completed h .dropped
      | _ => exact .idle
  -- Cancelling is the one act that is open to a request wherever it stands.
  | cancel =>
      have hcancelled : ((link.advance id .cancelled).unregister id).view id = { link.view id with
          awaited := False, waiter := some ⟨id, .cancelled, inbox⟩ } := by
        rw [view_unregister_self, view_advance_self, h]
        rfl
      cases progress with
      | completed outcome => exact .idle
      | _ =>
          dsimp only [Link.act]
          rw [hcancelled]
          exact .cancelled h nofun

theorem check_effect (other : Nat) :
    Effect id (link.view id) (.check other) ((link.step (.check other)).view id) := by
  dsimp only [step]
  split
  · exact .idle
  next hnew =>
    rw [view_append]
    by_cases hid : other = id
    · subst hid
      have hnone : link.waiter? other = none := by simpa using hnew
      rw [if_pos rfl, hnone, Option.none_or]
      split
      next hconnected => exact .checked hnone hconnected
      next hclosed => exact .refused hnone ((Bool.not_eq_true _).mp hclosed)
    · rw [if_neg hid, Option.or_none]
      exact .idle

/-- A line reaches the request that its response is for, if that one is registered. -/
theorem line_effect (text : String) :
    Effect id (link.view id) (.line text) ((link.step (.line text)).view id) := by
  dsimp only [step]
  split
  next hreading =>
    unfold takeLine
    cases hresponse : response? text with
    | none => exact .idle
    | some response =>
        dsimp only
        unfold deliver
        cases hindex : response.id.asIndex? with
        | none => exact .idle
        | some other =>
            dsimp only
            split
            next hpending =>
              by_cases hid : id = other
              · subst hid
                rw [view_modifyWaiter_self (by intro; rfl), view_unregister_self]
                exact .delivered hreading hresponse hindex hpending
              · rw [view_modifyWaiter_of_ne hid (by intro; rfl), view_unregister_of_ne hid]
                exact .idle
            next => exact .idle
  next => exact .idle

/-- When the reader finishes, it lets go of a request that is registered. -/
theorem dropWaiters_effect :
    Effect id (link.view id) .dropWaiters ((link.step .dropWaiters).view id) := by
  dsimp only [step]
  split
  next hended =>
    have hview : Link.view { link.dropPending with reader := .finished } id =
        { link.dropPending.view id with reader := .finished } := rfl
    rw [hview]
    by_cases hpending : id ∈ link.pending
    · rw [view_dropPending_of_mem hpending]
      exact .dropped hended hpending
    · rw [view_dropPending_of_notMem hpending]
      exact .finished hended hpending
  next => exact .idle

/-- Every step has one of the effects on a request. -/
theorem step_effect (link : Link) (step : Step) (id : Nat) :
    Effect id (link.view id) step ((link.step step).view id) := by
  cases step with
  | check other => exact check_effect other
  | act other act =>
      dsimp only [Link.step]
      cases hwaiter : link.waiter? other with
      | none => exact .idle
      | some waiter =>
          have hother := id_of_waiter? hwaiter
          -- The request that acts is found under the number that is asked for.
          by_cases hid : id = waiter.id
          · rw [← hother, ← hid] at hwaiter ⊢
            rcases waiter with ⟨number, progress, inbox⟩
            obtain rfl : id = number := hid
            exact act_effect hwaiter act
          · dsimp only
            rw [view_act_of_ne hid]
            exact .idle
  | line text => exact line_effect text
  | endOutput =>
      dsimp only [Link.step]
      split
      next hreading => exact .ended hreading
      next => exact .idle
  | dropWaiters => exact dropWaiters_effect
  | close => exact .closed

end Effects

end Link

end DataflowEditor

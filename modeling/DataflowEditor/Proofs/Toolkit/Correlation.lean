import DataflowEditor.Proofs.Toolkit.LinkEffect
import Mathlib.Data.List.Induction

/-! # Responses find their requests

Whatever the requests, the worker and the reader of its output do, in whatever order, a response
only ever reaches the request with its number, while that request is registered. There it is left
until the request collects it. A request that was given up is out of reach. Once the reader has
finished, no request waits for a response that cannot come: those that were registered have been
told, and those that come later see that the connection is down when they look again.
-/

namespace DataflowEditor

/-- A response that is matched by an index has that index as its number. -/
theorem MessageId.eq_number {id : Nat} {message : MessageId} (h : message.asIndex? = some id) :
    message = .number id := by
  cases message with
  | number value =>
      simp only [asIndex?] at h
      split at h
      next hnonneg =>
        cases h
        rw [Int.toNat_of_nonneg hnonneg]
      next => cases h
  | text value => cases h

namespace Link

/-! ## What holds of a request after any run -/

/-- The request is registered, and has neither ended nor been given up. -/
def Progress.waits : Progress → Bool
  | .registered => true
  | .cleared => true
  | .sent => true
  | _ => false

/-- A request that waits is registered until the reader leaves something for it. -/
structure Waiter.Fits (waiter : Waiter) (awaited : Prop) (answers : Response → Prop) : Prop where
  awaited : awaited ↔ waiter.progress.waits = true ∧ waiter.inbox = .empty
  fresh : waiter.progress = .checked → waiter.inbox = .empty
  inbox : ∀ response, waiter.inbox = .response response → answers response
  outcome : ∀ response, waiter.progress = .completed (.ok response) → answers response

structure View.Sound (view : View) (answers : Response → Prop) : Prop where
  shut : view.reader ≠ .reading → view.connected = false
  absent : view.waiter = none → ¬ view.awaited
  present : ∀ waiter, view.waiter = some waiter → waiter.Fits view.awaited answers
  settled : view.reader = .finished → ∀ waiter, view.waiter = some waiter →
    waiter.progress = .cleared ∨ waiter.progress = .sent → waiter.inbox ≠ .empty

/-- What holds of the responses read so far holds of them later on. -/
theorem View.Sound.mono {view : View} {answers later : Response → Prop} (h : view.Sound answers)
    (hlater : ∀ response, answers response → later response) : view.Sound later where
  shut := h.shut
  absent := h.absent
  settled := h.settled
  present waiter hwaiter :=
    have hfits := h.present waiter hwaiter
    ⟨hfits.awaited, hfits.fresh, fun response hinbox => hlater _ (hfits.inbox response hinbox),
      fun response houtcome => hlater _ (hfits.outcome response houtcome)⟩

/-- Another progress of one request changes nothing else. -/
theorem View.Sound.renew {view : View} {answers : Response → Prop} (h : view.Sound answers)
    {waiter : Waiter} {awaited : Prop} (hfits : waiter.Fits awaited answers)
    (hsettled : view.reader = .finished → waiter.progress = .cleared ∨ waiter.progress = .sent →
      waiter.inbox ≠ .empty) :
    View.Sound { view with awaited := awaited, waiter := some waiter } answers := by
  refine ⟨h.shut, nofun, ?_, ?_⟩
  · rintro _ ⟨⟩
    exact hfits
  · rintro hfinished _ ⟨⟩
    exact hsettled hfinished

/-- What the reader leaves for a request that waits ends the waiting. -/
theorem Waiter.Fits.filled {waiter : Waiter} {awaited : Prop} {answers : Response → Prop}
    (h : waiter.Fits awaited answers) (hawaited : awaited) {inbox : Inbox} (hfull : inbox ≠ .empty)
    (hanswers : ∀ response, inbox = .response response → answers response) :
    Waiter.Fits { waiter with inbox := inbox } False answers := by
  have hwaits := (h.awaited.mp hawaited).1
  refine ⟨by simp [hfull], ?_, hanswers, h.outcome⟩
  intro hchecked
  rw [hchecked] at hwaits
  cases hwaits

/-- What one step preserves. -/
theorem Effect.sound {id : Nat} {view after : View} {step : Step} {answers : Response → Prop}
    (h : Effect id view step after) (hsound : view.Sound answers)
    (hnew : ∀ text response, step = .line text → response? text = some response →
      response.id.asIndex? = some id → view.awaited → answers response) : after.Sound answers := by
  cases h with
  | idle => exact hsound
  | checked hnone _ =>
      have habsent := hsound.absent hnone
      exact hsound.renew ⟨by simp [habsent, Progress.waits], fun _ => rfl, nofun, nofun⟩ (by simp)
  | refused hnone _ =>
      have habsent := hsound.absent hnone
      exact hsound.renew ⟨by simp [habsent, Progress.waits], fun _ => rfl, nofun, nofun⟩ (by simp)
  | registered hwaiter =>
      have hfits := hsound.present _ hwaiter
      have hempty := hfits.fresh rfl
      exact hsound.renew ⟨by simpa [Progress.waits] using hempty, nofun, hfits.inbox, nofun⟩
        (by simp)
  | cleared hwaiter hconnected =>
      have hfits := hsound.present _ hwaiter
      refine hsound.renew ⟨hfits.awaited, nofun, hfits.inbox, nofun⟩ fun hfinished => ?_
      -- A reader that has finished took the connection down before.
      cases (hsound.shut (by simp [hfinished])).symm.trans hconnected
  | sent hwaiter =>
      have hfits := hsound.present _ hwaiter
      refine hsound.renew ⟨hfits.awaited, nofun, hfits.inbox, nofun⟩ fun hfinished _ => ?_
      have hsettled := hsound.settled hfinished _ hwaiter (.inl rfl)
      exact hsettled
  | completed hwaiter hends =>
      have hfits := hsound.present _ hwaiter
      refine hsound.renew ⟨by simp [Progress.waits], nofun, hfits.inbox, ?_⟩ (by simp)
      rintro response ⟨⟩
      cases hends
      exact hfits.inbox response rfl
  | cancelled hwaiter _ =>
      have hfits := hsound.present _ hwaiter
      exact hsound.renew ⟨by simp [Progress.waits], nofun, hfits.inbox, nofun⟩ (by simp)
  | delivered hreading hresponse hindex hawaited =>
      have hanswers := hnew _ _ rfl hresponse hindex hawaited
      refine ⟨hsound.shut, fun _ => not_false, ?_, ?_⟩
      · intro waiter hwaiter
        rcases Option.map_eq_some_iff.mp hwaiter with ⟨before, hbefore, rfl⟩
        refine (hsound.present before hbefore).filled hawaited nofun ?_
        rintro _ ⟨⟩
        exact hanswers
      · rw [hreading]
        nofun
  | ended _ => exact ⟨fun _ => rfl, hsound.absent, hsound.present, nofun⟩
  | finished hended hawaited =>
      have hclosed := hsound.shut (by simp [hended])
      have hnone : view.awaited = False := eq_false hawaited
      rw [← hnone]
      -- One that still waits would be registered, and then it would not be passed over.
      refine ⟨fun _ => hclosed, hsound.absent, hsound.present, ?_⟩
      intro _ waiter hwaiter hprogress hempty
      refine hawaited ((hsound.present waiter hwaiter).awaited.mpr ⟨?_, hempty⟩)
      rcases hprogress with h | h <;> rw [h] <;> rfl
  | dropped hended hawaited =>
      have hclosed := hsound.shut (by simp [hended])
      refine ⟨fun _ => hclosed, fun _ => not_false, ?_, ?_⟩
      · intro waiter hwaiter
        rcases Option.map_eq_some_iff.mp hwaiter with ⟨before, hbefore, rfl⟩
        exact (hsound.present before hbefore).filled hawaited nofun nofun
      · intro _ waiter hwaiter _
        rcases Option.map_eq_some_iff.mp hwaiter with ⟨before, _, rfl⟩
        nofun
  | closed => exact ⟨fun _ => rfl, hsound.absent, hsound.present, hsound.settled⟩

/-! ## Runs -/

theorem run_append (link : Link) (front back : List Step) :
    link.run (front ++ back) = (link.run front).run back :=
  List.foldl_append

theorem run_concat (link : Link) (front : List Step) (step : Step) :
    link.run (front ++ [step]) = (link.run front).step step :=
  link.run_append front [step]

/-- The response was read, for the request and while it was registered. -/
def Answers (steps : List Step) (id : Nat) (response : Response) : Prop :=
  response.id = .number id ∧ ∃ front text back, steps = front ++ .line text :: back ∧
    response? text = some response ∧ id ∈ (opened.run front).pending

/-- Before the first step there is no request. -/
theorem opened_sound (id : Nat) : (opened.view id).Sound (Answers [] id) where
  shut h := absurd rfl h
  absent _ := by simp [view, opened]
  present _ := nofun
  settled _ _ := nofun

/-- What every run preserves, by induction on its last step. -/
theorem run_sound (steps : List Step) (id : Nat) :
    ((opened.run steps).view id).Sound (Answers steps id) := by
  induction steps using List.reverseRecOn with
  | nil => exact opened_sound id
  | append_singleton front step ih =>
    rw [run_concat]
    have hlater : ∀ response,
        Answers front id response → Answers (front ++ [step]) id response := by
      rintro response ⟨hid, before, text, back, rfl, hresponse, hpending⟩
      exact ⟨hid, before, text, back ++ [step], by simp, hresponse, hpending⟩
    refine (step_effect _ step id).sound (ih.mono hlater) ?_
    rintro text response rfl hresponse hindex hpending
    exact ⟨MessageId.eq_number hindex, front, text, [], rfl, hresponse, hpending⟩

/-! ## What is left for a request -/

/-- What was left for a request is not replaced, since the request is no longer registered. -/
theorem Effect.keeps_response {id : Nat} {view after : View} {step : Step}
    (h : Effect id view step after) (hclosed : ¬ view.awaited) {waiter : Waiter}
    (hwaiter : view.waiter = some waiter) {response : Response}
    (hleft : waiter.inbox = .response response) :
    ∃ later, after.waiter = some later ∧ later.inbox = .response response := by
  cases h with
  | checked hnone _ => cases hnone.symm.trans hwaiter
  | refused hnone _ => cases hnone.symm.trans hwaiter
  | registered hbefore =>
      cases hbefore.symm.trans hwaiter
      exact ⟨_, rfl, hleft⟩
  | cleared hbefore _ =>
      cases hbefore.symm.trans hwaiter
      exact ⟨_, rfl, hleft⟩
  | sent hbefore =>
      cases hbefore.symm.trans hwaiter
      exact ⟨_, rfl, hleft⟩
  | completed hbefore _ =>
      cases hbefore.symm.trans hwaiter
      exact ⟨_, rfl, hleft⟩
  | cancelled hbefore _ =>
      cases hbefore.symm.trans hwaiter
      exact ⟨_, rfl, hleft⟩
  | delivered _ _ _ hawaited => exact absurd hawaited hclosed
  | dropped _ hawaited => exact absurd hawaited hclosed
  | _ => exact ⟨waiter, hwaiter, hleft⟩

/-- What was left for a request is there as long as the run goes on. -/
theorem kept_run {steps : List Step} {id : Nat} {waiter : Waiter} {response : Response}
    (h : (opened.run steps).waiter? id = some waiter) (hleft : waiter.inbox = .response response)
    (more : List Step) : ∃ later, (opened.run (steps ++ more)).waiter? id = some later ∧
      later.inbox = .response response := by
  induction more generalizing steps waiter with
  | nil => exact ⟨waiter, by rwa [List.append_nil], hleft⟩
  | cons step rest ih =>
      have hclosed : ¬ ((opened.run steps).view id).awaited := by
        intro hawaited
        have hempty := (((run_sound steps id).present waiter h).awaited.mp hawaited).2
        cases hleft.symm.trans hempty
      obtain ⟨next, hnext, hstill⟩ := (step_effect _ step id).keeps_response hclosed h hleft
      rw [List.append_cons]
      exact ih (by rw [run_concat]; exact hnext) hstill

/-! ## How far a request has come -/

/-- The number of turns that a request has taken. One that is over has taken all. -/
def Progress.rank : Progress → Nat
  | .checked => 1
  | .registered => 2
  | .cleared => 3
  | .sent => 4
  | .completed _ => 5
  | .cancelled => 5

def View.rank (view : View) : Nat :=
  view.waiter.elim 0 fun waiter => waiter.progress.rank

theorem View.rank_of_waiter {view : View} {waiter : Waiter} (h : view.waiter = some waiter) :
    view.rank = waiter.progress.rank := by
  rw [rank, h, Option.elim_some]

theorem Ends.rank {connected : Bool} {progress : Progress} {inbox : Inbox}
    {outcome : Except ToolkitFault Response} (h : Ends connected progress inbox outcome) :
    progress.rank < 5 := by
  cases h <;> simp [Progress.rank]

/-- A request stays where it is, or it moves on. -/
theorem Effect.advances {id : Nat} {view after : View} {step : Step}
    (h : Effect id view step after) {waiter : Waiter} (hwaiter : view.waiter = some waiter) :
    ∃ later, after.waiter = some later ∧
      (later.progress = waiter.progress ∨ waiter.progress.rank < later.progress.rank) := by
  cases h with
  | idle => exact ⟨waiter, hwaiter, .inl rfl⟩
  | checked hnone _ => cases hnone.symm.trans hwaiter
  | refused hnone _ => cases hnone.symm.trans hwaiter
  | registered hbefore =>
      cases hbefore.symm.trans hwaiter
      exact ⟨_, rfl, .inr (by simp [Progress.rank])⟩
  | cleared hbefore _ =>
      cases hbefore.symm.trans hwaiter
      exact ⟨_, rfl, .inr (by simp [Progress.rank])⟩
  | sent hbefore =>
      cases hbefore.symm.trans hwaiter
      exact ⟨_, rfl, .inr (by simp [Progress.rank])⟩
  | completed hbefore hends =>
      cases hbefore.symm.trans hwaiter
      exact ⟨_, rfl, .inr hends.rank⟩
  | @cancelled progress _ hbefore hopen =>
      cases hbefore.symm.trans hwaiter
      refine ⟨_, rfl, ?_⟩
      cases progress with
      | completed outcome => exact absurd rfl (hopen outcome)
      | cancelled => exact .inl rfl
      | _ => exact .inr (by simp [Progress.rank])
  | @delivered _ response _ _ _ _ =>
      exact ⟨{ waiter with inbox := .response response }, by simp [hwaiter], .inl rfl⟩
  | ended _ => exact ⟨waiter, hwaiter, .inl rfl⟩
  | finished _ _ => exact ⟨waiter, hwaiter, .inl rfl⟩
  | dropped _ _ => exact ⟨{ waiter with inbox := .dropped }, by simp [hwaiter], .inl rfl⟩
  | closed => exact ⟨waiter, hwaiter, .inl rfl⟩

/-- A request never goes back. -/
theorem Effect.rank_le {id : Nat} {view after : View} {step : Step}
    (h : Effect id view step after) : view.rank ≤ after.rank := by
  cases hwaiter : view.waiter with
  | none => simp [View.rank, hwaiter]
  | some waiter =>
      rcases h.advances hwaiter with ⟨later, hlater, hprogress⟩
      rw [View.rank_of_waiter hwaiter, View.rank_of_waiter hlater]
      rcases hprogress with hsame | hmore
      · exact Nat.le_of_eq (congrArg Progress.rank hsame.symm)
      · exact Nat.le_of_lt hmore

theorem Progress.rank_le (progress : Progress) : progress.rank ≤ 5 := by
  cases progress <;> simp [Progress.rank]

/-- A request that is over stays as it is. -/
theorem over_run {link : Link} {id : Nat} {waiter : Waiter} (h : link.waiter? id = some waiter)
    (hover : waiter.progress.rank = 5) (more : List Step) :
    ∃ later, (link.run more).waiter? id = some later ∧ later.progress = waiter.progress := by
  induction more generalizing link waiter with
  | nil => exact ⟨waiter, h, rfl⟩
  | cons step rest ih =>
      rcases (step_effect link step id).advances h with ⟨next, hnext, hsame | hmore⟩
      · rcases ih hnext (by rw [hsame, hover]) with ⟨later, hlater, hprogress⟩
        exact ⟨later, hlater, hprogress.trans hsame⟩
      · have hle := next.progress.rank_le
        omega

theorem Effect.stays_finished {id : Nat} {view after : View} {step : Step}
    (h : Effect id view step after) (hfinished : view.reader = .finished) :
    after.reader = .finished := by
  cases h with
  | ended hreading => cases hfinished.symm.trans hreading
  | finished _ _ => rfl
  | dropped _ _ => rfl
  | _ => exact hfinished

/-! ## Requests that come too late -/

/-- The reader has finished before the request looked for a second time. -/
structure View.Late (view : View) : Prop where
  finished : view.reader = .finished
  closed : view.connected = false
  refused : ∀ waiter, view.waiter = some waiter →
    waiter.progress = .checked ∨ waiter.progress = .registered ∨ waiter.progress = .cancelled ∨
      waiter.progress = .completed (.error .connectionClosed)

/-- No step lets a request in that comes too late. -/
theorem Effect.late {id : Nat} {view after : View} {step : Step} (h : Effect id view step after)
    (hlate : view.Late) : after.Late := by
  cases h with
  | idle => exact hlate
  -- Steps that need the connection, or the reader at work, are out.
  | checked _ hconnected => cases hlate.closed.symm.trans hconnected
  | refused _ _ =>
      refine ⟨hlate.finished, hlate.closed, ?_⟩
      rintro _ ⟨⟩
      exact .inr (.inr (.inr rfl))
  | registered _ =>
      refine ⟨hlate.finished, hlate.closed, ?_⟩
      rintro _ ⟨⟩
      exact .inr (.inl rfl)
  | cleared _ hconnected => cases hlate.closed.symm.trans hconnected
  | sent hwaiter => rcases hlate.refused _ hwaiter with h | h | h | h <;> cases h
  | completed hwaiter hends =>
      refine ⟨hlate.finished, hlate.closed, ?_⟩
      rintro _ ⟨⟩
      have hbefore := hlate.refused _ hwaiter
      cases hends with
      | closed _ => exact .inr (.inr (.inr rfl))
      | unsent _ => rcases hbefore with h | h | h | h <;> cases h
      | answered _ => rcases hbefore with h | h | h | h <;> cases h
      | dropped => rcases hbefore with h | h | h | h <;> cases h
  | cancelled _ _ =>
      refine ⟨hlate.finished, hlate.closed, ?_⟩
      rintro _ ⟨⟩
      exact .inr (.inr (.inl rfl))
  | delivered hreading _ _ _ => cases hlate.finished.symm.trans hreading
  | ended hreading => cases hlate.finished.symm.trans hreading
  | finished hended _ => cases hlate.finished.symm.trans hended
  | dropped hended _ => cases hlate.finished.symm.trans hended
  | closed => exact ⟨hlate.finished, rfl, hlate.refused⟩

/-- A request that comes too late stays out, by induction on the run. -/
theorem late_run {link : Link} {id : Nat} (h : (link.view id).Late) (more : List Step) :
    ((link.run more).view id).Late := by
  induction more generalizing link with
  | nil => exact h
  | cons step rest ih => exact ih ((step_effect link step id).late h)

/-! ## A request takes its turns -/

/-- The turns of a request, from the first to the last. -/
def turns (id : Nat) (fault : Option FileFault) : List Step :=
  [.check id, .act id .register, .act id .recheck, .act id (.send fault), .act id .collect]

/-- After the first look a request is known. -/
theorem check_rank (link : Link) (id : Nat) : 1 ≤ ((link.step (.check id)).view id).rank := by
  dsimp only [step]
  split
  next hknown =>
    rcases Option.isSome_iff_exists.mp hknown with ⟨⟨_, progress, _⟩, hwaiter⟩
    cases progress <;> simp [View.rank, view, hwaiter, Progress.rank]
  next hnew =>
    have hnone : link.waiter? id = none := by simpa using hnew
    rw [view_append, hnone, Option.none_or, if_pos rfl]
    split <;> simp [View.rank, Progress.rank]

/-- A request that takes the turn it has come to moves on, once the reader has finished. -/
theorem turn_rank {link : Link} {id : Nat} {waiter : Waiter} {turn : Step}
    {fault : Option FileFault} (h : link.waiter? id = some waiter)
    (hturn : (turns id fault)[waiter.progress.rank]? = some turn) (hclosed : link.connected = false)
    (hsettled : waiter.progress = .sent → waiter.inbox ≠ .empty) :
    waiter.progress.rank < ((link.step turn).view id).rank := by
  rcases waiter with ⟨number, progress, inbox⟩
  obtain rfl : number = id := id_of_waiter? h
  cases progress with
  | checked =>
      cases hturn
      rw [view_register h]
      simp [View.rank, Progress.rank]
  | registered =>
      cases hturn
      simp only [step, h, Link.act, hclosed, Bool.false_eq_true, if_false]
      rw [view_complete_self, h]
      simp [View.rank, Progress.rank]
  | cleared =>
      cases hturn
      cases fault with
      | none =>
          rw [view_send h]
          simp [View.rank, Progress.rank]
      | some fault =>
          simp only [step, h, Link.act]
          rw [view_complete_self, h]
          simp [View.rank, Progress.rank]
  -- Only this turn can leave a request where it is, and only while its inbox is empty.
  | sent =>
      cases hturn
      have hends : ∃ outcome, ((link.step (.act number .collect)).view number).waiter =
          some ⟨number, .completed outcome, inbox⟩ := by
        simp only [step, h, Link.act, collect]
        cases inbox with
        | empty => exact absurd rfl (hsettled rfl)
        | response response => exact ⟨.ok response, by rw [view_complete_self, h]; rfl⟩
        | dropped => exact ⟨.error .connectionClosed, by rw [view_complete_self, h]; rfl⟩
      rcases hends with ⟨outcome, hends⟩
      simp [View.rank, hends, Progress.rank]
  | completed outcome => cases hturn
  | cancelled => cases hturn

/-- The next turn of a request takes it past the turns that it has taken. -/
theorem rank_of_turn {steps : List Step} {id count : Nat} {fault : Option FileFault} {turn : Step}
    (hfinished : (opened.run steps).reader = .finished)
    (hcount : count ≤ ((opened.run steps).view id).rank)
    (hturn : (turns id fault)[count]? = some turn) :
    count < (((opened.run steps).step turn).view id).rank := by
  have hle := (step_effect (opened.run steps) turn id).rank_le
  rcases Nat.lt_or_eq_of_le hcount with hlt | heq
  · omega
  · cases hwaiter : (opened.run steps).waiter? id with
    | none =>
        have hrank : ((opened.run steps).view id).rank = 0 := by
          simp [View.rank, view, hwaiter]
        rw [heq, hrank] at hturn ⊢
        cases hturn
        exact check_rank _ id
    | some waiter =>
        have hsound := run_sound steps id
        have hrank : ((opened.run steps).view id).rank = waiter.progress.rank :=
          View.rank_of_waiter hwaiter
        rw [heq, hrank] at hturn ⊢
        refine turn_rank hwaiter hturn (hsound.shut (by simp [view, hfinished])) ?_
        intro hsent
        exact hsound.settled hfinished waiter hwaiter (.inr hsent)

/-- A request ends if it takes its turns after the reader has finished, whatever else happens in
between. The induction is on the run, which skips a step or takes the next turn. -/
theorem rank_of_turns {steps more : List Step} {id count : Nat} {fault : Option FileFault}
    (hfinished : (opened.run steps).reader = .finished)
    (hcount : count ≤ ((opened.run steps).view id).rank)
    (hturns : ((turns id fault).drop count).Sublist more) :
    5 ≤ ((opened.run (steps ++ more)).view id).rank := by
  induction more generalizing steps count with
  | nil =>
      have hlength : 5 ≤ count := by simpa [turns] using hturns
      rw [List.append_nil]
      exact Nat.le_trans hlength hcount
  | cons step rest ih =>
      have heffect := step_effect (opened.run steps) step id
      have hstep := run_concat opened steps step
      have hstays : (opened.run (steps ++ [step])).reader = .finished := by
        rw [hstep]
        exact heffect.stays_finished hfinished
      rw [List.append_cons]
      rcases List.sublist_cons_iff.mp hturns with hskip | ⟨left, hleft, htaken⟩
      · refine ih hstays ?_ hskip
        rw [hstep]
        exact Nat.le_trans hcount heffect.rank_le
      · -- The step is the next turn. A request that is further ahead does not need it.
        have hturn : (turns id fault)[count]? = some step := by
          rw [← List.head?_drop, hleft]
          rfl
        have hrest : (turns id fault).drop (count + 1) = left := by
          rw [← List.drop_drop, hleft]
          rfl
        have hnext : count + 1 ≤ ((opened.run (steps ++ [step])).view id).rank := by
          rw [hstep]
          exact rank_of_turn hfinished hcount hturn
        exact ih hstays hnext (hrest ▸ htaken)

/-! ## Correlation -/

theorem outcome?_eq_some {link : Link} {id : Nat} {outcome : Except ToolkitFault Response} :
    link.outcome? id = some outcome ↔
      ∃ waiter, link.waiter? id = some waiter ∧ waiter.progress = .completed outcome := by
  unfold outcome?
  cases hwaiter : link.waiter? id with
  | none => simp
  | some waiter =>
      rcases waiter with ⟨number, progress, inbox⟩
      cases progress <;> simp

/-- What a run of steps comes to for the requests that take part in it. -/
structure Correlates (steps : List Step) : Prop where
  /-- A response is to the request that gets it, and was read while the request was registered. -/
  answered : ∀ id response, (opened.run steps).outcome? id = some (.ok response) →
    Answers steps id response
  /-- A request completes once. -/
  once : ∀ id outcome more, (opened.run steps).outcome? id = some outcome →
    (opened.run (steps ++ more)).outcome? id = some outcome
  /-- A response may only be handed to a request that is registered and not over. -/
  pending : ∀ id ∈ (opened.run steps).pending, ∃ waiter,
    (opened.run steps).waiter? id = some waiter ∧ waiter.progress.waits = true
  /-- A response that is read while its request is registered is left for that request. -/
  delivered : (opened.run steps).reader = .reading → ∀ id ∈ (opened.run steps).pending,
    ∀ text response, response? text = some response → response.id = .number id →
      ∃ waiter, (opened.run steps).waiter? id = some waiter ∧
        ((opened.run steps).step (.line text)).waiter? id =
          some { waiter with inbox := .response response }
  /-- What was left for a request stays there, and is what the request collects. -/
  collected : ∀ id waiter response, (opened.run steps).waiter? id = some waiter →
    waiter.inbox = .response response → ∀ more, ∃ later,
      (opened.run (steps ++ more)).waiter? id = some later ∧ later.inbox = .response response ∧
        (later.progress = .sent →
          ((opened.run (steps ++ more)).step (.act id .collect)).outcome? id =
            some (.ok response))
  /-- A request that was given up never completes, and a response to it goes nowhere. -/
  cancelled : ∀ id waiter more, (opened.run steps).waiter? id = some waiter →
    waiter.progress = .cancelled → (opened.run (steps ++ more)).outcome? id = none ∧
      ∀ text response, response? text = some response → response.id = .number id →
        (opened.run (steps ++ more)).step (.line text) = opened.run (steps ++ more)
  /-- When the reader finishes, every request that still waits learns it. -/
  released : (opened.run steps).reader = .ended → ∀ id waiter,
    (opened.run steps).waiter? id = some waiter → waiter.progress.waits = true →
      waiter.inbox = .empty →
        ((opened.run steps).step .dropWaiters).waiter? id = some { waiter with inbox := .dropped }
  /-- A request that is not registered by then, or not yet sure of it, is refused. -/
  late : (opened.run steps).reader = .finished → ∀ id,
    (∀ waiter, (opened.run steps).waiter? id = some waiter →
      waiter.progress = .checked ∨ waiter.progress = .registered) →
    ∀ more outcome, (opened.run (steps ++ more)).outcome? id = some outcome →
      outcome = .error .connectionClosed
  /-- No request waits for good: it is over once it has taken the turns that it has left. -/
  ends : (opened.run steps).reader = .finished → ∀ id fault more,
    ((turns id fault).drop ((opened.run steps).view id).rank).Sublist more →
      (∃ outcome, (opened.run (steps ++ more)).outcome? id = some outcome) ∨
        ∃ waiter, (opened.run (steps ++ more)).waiter? id = some waiter ∧
          waiter.progress = .cancelled

/-- Every run of steps, by any number of requests and in any order, keeps responses and requests
together. -/
theorem run_correlates (steps : List Step) : Correlates steps where
  answered id response h := by
    rcases outcome?_eq_some.mp h with ⟨waiter, hwaiter, hprogress⟩
    exact ((run_sound steps id).present waiter hwaiter).outcome response hprogress
  once id outcome more h := by
    rcases outcome?_eq_some.mp h with ⟨waiter, hwaiter, hprogress⟩
    rcases over_run hwaiter (by rw [hprogress]; rfl) more with ⟨later, hlater, hsame⟩
    rw [run_append]
    exact outcome?_eq_some.mpr ⟨later, hlater, hsame.trans hprogress⟩
  pending id h := by
    have hsound := run_sound steps id
    cases hwaiter : (opened.run steps).waiter? id with
    | none => exact absurd h (hsound.absent hwaiter)
    | some waiter => exact ⟨waiter, rfl, ((hsound.present waiter hwaiter).awaited.mp h).1⟩
  delivered hreading id hpending text response hresponse hid := by
    have hindex : response.id.asIndex? = some id := by simp [hid, MessageId.asIndex?]
    -- Soundness rules out that the number is pending without a request.
    have hview := congrArg View.waiter (view_line hreading hresponse hindex hpending)
    cases hwaiter : (opened.run steps).waiter? id with
    | none => exact absurd hpending ((run_sound steps id).absent hwaiter)
    | some waiter =>
        rw [hwaiter] at hview
        exact ⟨waiter, rfl, hview⟩
  collected id waiter response hwaiter hleft more := by
    obtain ⟨later, hlater, hstill⟩ := kept_run hwaiter hleft more
    refine ⟨later, hlater, hstill, fun hsent => ?_⟩
    obtain ⟨number, progress, inbox⟩ := later
    obtain rfl : number = id := id_of_waiter? hlater
    obtain rfl : progress = .sent := hsent
    obtain rfl : inbox = .response response := hstill
    exact outcome?_eq_some.mpr ⟨_, congrArg View.waiter (view_collect hlater), rfl⟩
  cancelled id waiter more hwaiter hprogress := by
    -- A request that was cancelled stays so, and soundness then keeps its number out of the pending
    -- ones.
    rcases over_run hwaiter (by rw [hprogress]; rfl) more with ⟨later, hlater, hsame⟩
    rw [← run_append] at hlater
    rw [hprogress] at hsame
    constructor
    · simp [outcome?, hlater, hsame]
    · intro text response hresponse hid
      have hawaited := ((run_sound (steps ++ more) id).present later hlater).awaited
      have hpending : id ∉ (opened.run (steps ++ more)).pending := by
        intro hpending
        have hwaits := (hawaited.mp hpending).1
        rw [hsame] at hwaits
        cases hwaits
      simp [step, takeLine, hresponse, deliver, hid, MessageId.asIndex?, hpending]
  released hended id waiter hwaiter hwaits hempty := by
    have hpending : id ∈ (opened.run steps).pending :=
      ((run_sound steps id).present waiter hwaiter).awaited.mpr ⟨hwaits, hempty⟩
    have hview := congrArg View.waiter (view_dropPending_of_mem hpending)
    rw [hwaiter] at hview
    simp only [step, hended, if_true]
    exact hview
  late hfinished id hearly more outcome h := by
    -- Being late is an invariant of the rest of the run, and a late request can only be refused.
    have hlate : ((opened.run steps).view id).Late := by
      refine ⟨hfinished, (run_sound steps id).shut (by simp [view, hfinished]), ?_⟩
      intro waiter hwaiter
      rcases hearly waiter hwaiter with h | h
      · exact .inl h
      · exact .inr (.inl h)
    rw [run_append] at h
    rcases outcome?_eq_some.mp h with ⟨waiter, hwaiter, hprogress⟩
    rcases (late_run hlate more).refused waiter hwaiter with h | h | h | h <;> rw [hprogress] at h
      <;> cases h
    rfl
  ends hfinished id fault more hturns := by
    -- Each turn raises the rank, and past the last turn there are only the two final stages.
    have hrank := rank_of_turns hfinished (Nat.le_refl _) hturns
    cases hwaiter : (opened.run (steps ++ more)).waiter? id with
    | none => simp [View.rank, view, hwaiter] at hrank
    | some waiter =>
        cases hprogress : waiter.progress with
        | completed outcome =>
            exact .inl ⟨outcome, outcome?_eq_some.mpr ⟨waiter, hwaiter, hprogress⟩⟩
        | cancelled => exact .inr ⟨waiter, rfl, hprogress⟩
        | _ => simp [View.rank, view, hwaiter, hprogress, Progress.rank] at hrank

/-- The worker's answer to the second request. -/
def secondAnswer : String :=
  "\x7b\"jsonrpc\":\"2.0\",\"id\":1,\"result\":true\x7d"

/-- Of four requests the first is given up, the second answered, the third still waits when the
worker's output ends, and the fourth has only looked for the first time. -/
def mingledSteps : List Step :=
  [.check 0, .check 1, .act 1 .register, .act 0 .register, .check 2, .act 1 .recheck,
    .act 0 .recheck, .act 1 (.send none), .act 0 .cancel, .line secondAnswer, .line secondAnswer,
    .act 2 .register, .act 2 .recheck, .check 3, .act 1 .collect, .act 2 (.send none), .endOutput,
    .dropWaiters]

/-- The response is for the second request. The third one is told that there will be none, and the
fourth is refused whatever it does from then on. -/
theorem mingledSteps_correlate :
    Answers mingledSteps 1 (.success (.number 1) (.bool true)) ∧
    (opened.run (mingledSteps ++ [.act 2 .collect])).outcome? 2 =
      some (.error .connectionClosed) ∧
    ∀ more outcome, (opened.run (mingledSteps ++ more)).outcome? 3 = some outcome →
      outcome = .error .connectionClosed := by
  have hfinished : (opened.run mingledSteps).reader = .finished := by decide +kernel
  have hlate : ((opened.run mingledSteps).waiter? 3).map (·.progress.rank) = some 1 := by
    decide +kernel
  refine ⟨(run_correlates mingledSteps).answered 1 _ (by decide +kernel), by decide +kernel,
    (run_correlates mingledSteps).late hfinished 3 ?_⟩
  intro waiter hwaiter
  rw [hwaiter] at hlate
  cases hprogress : waiter.progress with
  | checked => exact .inl rfl
  | _ => simp [hprogress, Progress.rank] at hlate

end Link

end DataflowEditor

import BrokerTrial.Proofs.Workflow

/-! Who owes the next event. As long as the run loop goes on, something is under way that will put
an event on the queue, with one exception: a publish at QoS 0 whose own call ends in a timeout asks
for a resend that no session listens to (`Session.Plan.Stuck`). What is owed stays owed through
background work (`Owed.change`) and through every turn (`Live.turn`), so nothing else can leave the
run loop waiting. -/

namespace BrokerTrial

open Mark (exchange)
open Transport (View)

/-- The client does not end what it was asked for from outside. -/
def Reply.Audible (r : Reply) : Prop := ∀ f, r.fault = some f → f.kind.silent = false

/-- A client whose operations return or fail by themselves, and whose answers to subscriptions are
numbers. -/
structure Script.Audible (s : Script) : Prop where
  enter : s.enter.Audible
  subscribe : ∀ r ∈ s.subscribe, r.Audible ∧ r.granted.Readable
  publish : ∀ r ∈ s.publish, r.Audible

theorem Suback.readable_default : ({} : Reply).granted.Readable :=
  ⟨[0, 1], [.plain (.int 0), .plain (.int 1)], rfl, .cons rfl (.cons rfl .nil)⟩

namespace Script

theorem draw_mem (replies : List Reply) :
    ((draw replies).1 ∈ replies ∨ (draw replies).1 = {}) ∧
      ∀ r ∈ (draw replies).2, r ∈ replies := by
  unfold draw
  split
  · exact ⟨.inr rfl, fun _ h => h⟩
  · exact ⟨.inl List.mem_cons_self, fun _ h => h⟩
  · exact ⟨.inl List.mem_cons_self, fun _ h => List.mem_cons_of_mem _ h⟩

variable {s : Script}

theorem Audible.drawSubscribe (h : s.Audible) :
    s.drawSubscribe.1.Audible ∧ s.drawSubscribe.1.granted.Readable ∧ s.drawSubscribe.2.Audible := by
  obtain ⟨hdrawn, hrest⟩ := draw_mem s.subscribe
  have hreply : s.drawSubscribe.1.Audible ∧ s.drawSubscribe.1.granted.Readable := by
    rcases hdrawn with hmem | hdefault
    · exact h.subscribe _ hmem
    · rw [show s.drawSubscribe.1 = {} from hdefault]
      exact ⟨nofun, Suback.readable_default⟩
  exact ⟨hreply.1, hreply.2, h.enter, fun r hr => h.subscribe r (hrest r hr), h.publish⟩

theorem Audible.drawPublish (h : s.Audible) :
    s.drawPublish.1.Audible ∧ s.drawPublish.2.Audible := by
  obtain ⟨hdrawn, hrest⟩ := draw_mem s.publish
  refine ⟨?_, h.enter, h.subscribe, fun r hr => h.publish r (hrest r hr)⟩
  rcases hdrawn with hmem | hdefault
  · exact h.publish _ hmem
  · rw [show s.drawPublish.1 = {} from hdefault]
    exact nofun

end Script

/-- The event calls for a reaction: it moves the workflow on, or reports that the connection is
over. -/
def Event.Urgent (e : Event) : Prop := e.ofWorkflow = true ∨ e.loss?.isSome = true

structure Operation.Audible (op : Operation) : Prop where
  cancelled : op.cancelled = false
  reply : op.reply.Audible
  readable : ∀ topics, op.task = .subscribe topics → op.reply.granted.Readable
  guarding : ∀ attempt call, op.phase = .guarding attempt call →
    call.cancelled = false ∧ ∀ ending, call.ending = some ending → ending = op.reply.ending
  givingUp : ∀ attempt call why, op.phase = .givingUp attempt call why → why = .outOfTime

namespace Operation

variable {op op' : Operation} {marks : List Mark}

theorem Audible.faithful (h : op.Audible) : op.Faithful False := by
  refine ⟨fun hc => absurd (h.cancelled.symm.trans hc) nofun, h.guarding, ?_⟩
  rintro attempt call why hp rfl
  exact absurd (h.givingUp _ _ _ hp) nofun

theorem Audible.of_faithful (h : op.Faithful False) (hreply : op.reply.Audible)
    (hreadable : ∀ topics, op.task = .subscribe topics → op.reply.granted.Readable) :
    op.Audible := by
  refine ⟨Bool.eq_false_iff.2 h.cancelled, hreply, hreadable, h.guarding, ?_⟩
  intro attempt call why hp
  cases why with
  | outOfTime => rfl
  | closing => exact (h.givingUp _ _ _ hp rfl).elim

theorem Audible.act (h : op.Audible) (ha : op.Act op' marks) : op'.Audible := by
  refine .of_faithful (h.faithful.act ha) ?_ ?_
  · rw [ha.reply_eq]
    exact h.reply
  · rw [ha.reply_eq, ha.task_eq]
    exact h.readable

def audibleEnding : Ending → Prop
  | .returned => True
  | .failed f => f.kind.silent = false
  | .cancelled => False

theorem audibleEnding_of_reply {r : Reply} (h : r.Audible) : audibleEnding r.ending := by
  unfold Reply.ending
  cases hf : r.fault with
  | none => trivial
  | some f =>
    have hsilent := h f hf
    have hk : f.kind ≠ .cancelled := fun hk => by simp [hk, FaultKind.silent] at hsilent
    dsimp only
    rw [if_neg hk]
    exact hsilent

theorem Audible.ends (h : op.Audible) {attempt : Int} {ending : Ending}
    (he : op.Ends attempt ending) : audibleEnding ending := by
  rcases h.faithful.ends he with hreply | ⟨-, htimeout⟩ | ⟨htold, -⟩
  · rw [hreply]
    exact audibleEnding_of_reply h.reply
  · rw [htimeout]
    rfl
  · exact htold.elim

theorem Audible.report (h : op.Audible) {attempt : Int} {ending : Ending}
    (he : op.Ends attempt ending) : ∃ e ∈ op.report attempt ending, e.Urgent := by
  have hending := h.ends he
  cases ht : op.task with
  | subscribe topics =>
    rw [report_of_subscribe ht]
    obtain ⟨refused, hrefused⟩ := Transport.refusedTopics_isOk topics (h.readable topics ht)
    cases ending with
    | returned =>
      cases refused with
      | nil => exact ⟨.subscribed, by simp [subscribeReport, hrefused], .inl rfl⟩
      | cons topic rest =>
        let message := s!"subscribe refused for {Transport.shownTopics (topic :: rest)}"
        exact ⟨.connectionFailed message, by simp [subscribeReport, hrefused, message], .inr rfl⟩
    | cancelled => exact hending.elim
    | failed f =>
      have hsilent : f.kind.silent = false := hending
      cases hk : f.kind <;> simp_all [subscribeReport, Event.Urgent, Event.ofWorkflow,
        Event.loss?, FaultKind.silent]
  | publish topic qos payload =>
    rw [report_of_publish ht]
    cases ending with
    | returned => exact ⟨.acknowledged, List.mem_singleton_self _, .inl rfl⟩
    | cancelled => exact hending.elim
    | failed f =>
      have hsilent : f.kind.silent = false := hending
      cases hk : f.kind <;> simp_all [publishReport, Event.Urgent, Event.ofWorkflow,
        Event.loss?, FaultKind.silent]

end Operation

/-- Once, the publish at QoS 0 was ended by a timeout of its own call. -/
def Session.Plan.Stuck (plan : Session.Plan) (history : List Mark) : Prop :=
  ∃ id message, exchange id (plan.publication 0).call (.failed ⟨.timeout, message⟩) <:+: history

namespace Session.Plan

variable {plan : Plan} {granted : Suback} {stage : Stage} {n : Nat} {past : List Mark}

/-- The second of two marks is not the timeout of the publish at QoS 0 that the first one calls. -/
def Smooth (plan : Plan) (a b : Mark) : Prop :=
  ∀ i j message, a = .called i (plan.publication 0).call →
    b ≠ .ended j (.failed ⟨.timeout, message⟩)

theorem not_stuck_of_isChain {history : List Mark} (h : history.IsChain plan.Smooth) :
    ¬ plan.Stuck history := by
  rintro ⟨id, message, hinfix⟩
  have hpart := List.IsChain.infix h hinfix
  have hpair := List.isChain_pair.1 hpart
  exact hpair id id message rfl rfl

/-- What lies behind a session goes on smoothly. -/
theorem Past.isChain_append (h : Past plan granted stage n past) {more : List Mark}
    (hmore : more.IsChain plan.Smooth) : (past ++ more).IsChain plan.Smooth := by
  have hended (id : Nat) (ending : Ending) {more : List Mark} (hmore : more.IsChain plan.Smooth) :
      (.ended id ending :: more).IsChain plan.Smooth := by
    cases more with
    | nil => exact List.isChain_singleton _
    | cons b rest => exact List.isChain_cons_cons.2 ⟨nofun, hmore⟩
  have hreturned (id : Nat) (call : ClientCall) {more : List Mark}
      (hmore : more.IsChain plan.Smooth) :
      (exchange id call .returned ++ more).IsChain plan.Smooth :=
    List.isChain_cons_cons.2 ⟨nofun, hended id .returned hmore⟩
  induction h generalizing more with
  | begun => exact hmore
  | subscribed id hg => exact hreturned id _ hmore
  | firstWritten _ ih => exact ih hmore
  | firstAcknowledged id _ ih =>
    rw [List.append_assoc]
    exact ih (hreturned id _ hmore)
  | secondWritten _ ih => exact ih hmore
  | timedOut _ hlast _ ih =>
    rw [List.append_assoc]
    cases hlast with
    | called id message =>
      refine ih (List.isChain_cons_cons.2 ⟨?_, hended id _ hmore⟩)
      intro i j m hcall
      simp [publication, Task.call] at hcall
    | uncalled id hl => exact ih (hended id _ hmore)
  | finished id _ ih =>
    rw [List.append_assoc]
    exact ih (hreturned id _ hmore)

end Session.Plan

namespace Transport.View

variable {plan : Session.Plan} {v w : View}

structure Audible (v : View) : Prop where
  link : ∀ l, v.link = some l → l.phase.opening → l.cancelled = false ∧ l.enter.Audible
  operations : ∀ op ∈ v.operations, op.Audible

/-- Something will still call for a reaction, unless the publish at QoS 0 timed out. -/
def Owed (plan : Session.Plan) (v : View) : Prop :=
  (∃ l, v.link = some l ∧ l.phase.opening) ∨ v.operations ≠ [] ∨ (∃ e ∈ v.events, e.Urgent) ∨
    plan.Stuck v.history

theorem Owed.of_urgent {e : Event} (he : e.Urgent) (h : e ∈ v.events) : v.Owed plan :=
  .inr (.inr (.inl ⟨e, h, he⟩))

theorem Owed.of_operation {op : Operation} (h : op ∈ v.operations) : v.Owed plan :=
  .inr (.inl (List.ne_nil_of_mem h))

/-- What is owed stays owed while nothing of it is taken away. -/
theorem Owed.mono (h : v.Owed plan)
    (hlink : ∀ l, v.link = some l → l.phase.opening → ∃ l', w.link = some l' ∧ l'.phase.opening)
    (hops : w.operations = v.operations) (hevents : ∀ e ∈ v.events, e.Urgent → e ∈ w.events)
    (hhistory : w.history = v.history) : w.Owed plan := by
  rcases h with ⟨l, hl, ho⟩ | hsome | ⟨e, he, hurgent⟩ | hstuck
  · exact .inl (hlink l hl ho)
  · exact .inr (.inl (hops ▸ hsome))
  · exact .of_urgent hurgent (hevents e he hurgent)
  · exact .inr (.inr (.inr (hhistory ▸ hstuck)))

theorem Audible.withLink (h : v.Audible) {l : Link} (hl : ¬ l.phase.opening) :
    (v.withLink l).Audible := by
  refine ⟨fun l' hl' ho => ?_, h.operations⟩
  obtain rfl := Option.some.inj hl'
  exact absurd ho hl

theorem Audible.change (h : v.Audible) (hc : v.Change w) : w.Audible := by
  cases hc with
  | act hop hact =>
    refine ⟨h.link, fun o ho => ?_⟩
    obtain ⟨p, hp, rfl⟩ := List.mem_map.1 ho
    split_ifs
    · exact (h.operations _ hop).act hact
    · exact h.operations p hp
  | ends hop hends =>
    refine ⟨h.link, fun o ho => ?_⟩
    exact h.operations o (List.mem_of_mem_filter ho)
  | connecting hl hp =>
    have hold := h.link _ hl (by rw [hp]; rfl)
    refine ⟨fun l' hl' _ => ?_, h.operations⟩
    obtain rfl := Option.some.inj hl'
    exact hold
  | established hl ho hcancelled hfault hup =>
    have hw := h.withLink (LinkPhase.not_opening_of_up hup)
    exact ⟨hw.link, hw.operations⟩
  | message topic payload hl hup => exact ⟨h.link, h.operations⟩
  | parked hl hup hup' => exact h.withLink (LinkPhase.not_opening_of_up hup')
  | failed message hl hp =>
    have hw := h.withLink (LinkPhase.not_opening_of_ended hp)
    exact ⟨hw.link, hw.operations⟩
  | closed hl hup hp =>
    have hw := h.withLink (LinkPhase.not_opening_of_ended hp)
    exact ⟨hw.link, hw.operations⟩
  | stopped hl hp hwhy =>
    have hw := h.withLink (LinkPhase.not_opening_of_ended hp)
    exact ⟨hw.link, hw.operations⟩

/-- Background work hands on what is owed. -/
theorem Owed.change (ho : v.Owed plan) (h : v.Audible) (hc : v.Change w) : w.Owed plan := by
  cases hc with
  | act hop hact => exact .of_operation (mem_replace hop hact.id_eq.symm)
  | ends hop hends =>
    obtain ⟨e, he, hurgent⟩ := (h.operations _ hop).report hends
    exact .of_urgent hurgent (List.mem_append_right _ he)
  | connecting hl hp => exact .inl ⟨_, rfl, rfl⟩
  | established hl ho hcancelled hfault hup =>
    exact .of_urgent (.inl rfl) (List.mem_append_right _ (List.mem_singleton_self _))
  | message topic payload hl hup =>
    exact ho.mono (fun l hl ho => ⟨l, hl, ho⟩) rfl (fun e he _ => List.mem_append_left _ he) rfl
  | parked hl hup hup' =>
    refine ho.mono (fun l hl' ho => ?_) rfl (fun e he _ => he) rfl
    obtain rfl := Option.some.inj (hl.symm.trans hl')
    exact absurd ho (LinkPhase.not_opening_of_up hup)
  | failed message hl hp =>
    exact .of_urgent (.inr rfl) (List.mem_append_right _ (List.mem_singleton_self _))
  | closed hl hup hp =>
    exact .of_urgent (.inr rfl) (List.mem_append_right _ (List.mem_singleton_self _))
  | stopped hl hp hwhy =>
    refine ho.mono (fun l hl' ho => ?_) rfl (fun e he _ => he) rfl
    obtain rfl := Option.some.inj (hl.symm.trans hl')
    obtain ⟨hcancelled, haudible⟩ := h.link _ hl ho
    rcases hwhy ho with hyes | ⟨f, hf, hsilent⟩
    · exact absurd (hcancelled.symm.trans hyes) nofun
    · exact absurd ((haudible f hf).symm.trans hsilent) nofun

end Transport.View

namespace Trial

def Phase.running : Phase → Bool
  | .starting | .serving | .waiting => true
  | _ => false

theorem Phase.running_of_looping {p : Phase} (h : p.looping) : p.running := by
  cases p <;> simp_all [looping, running]

namespace Scene

variable {s s' : Scene} {first : Reply}

/-- The run goes on: something is owed to a run loop that has not been interrupted. -/
structure Live (s : Scene) : Prop where
  script : s.script.Audible
  shut : s.phase = .starting → s.gate.opened = false
  view : s.phase.running → s.view.Audible
  finished : s.standing.session.stage = .finish → s.standing.verdict.interrupted = true
  owed : s.phase.looping → s.standing.verdict.interrupted = false → s.view.Owed s.plan

/-- An event that calls for a reaction gets one, but for a resend of the publish at QoS 0. -/
theorem stuck_of_idle {e : Event} (h : s.Orderly first)
    (hc : Coupled s.plan s.standing.session s.view) (he : e ∈ s.view.events) (hurgent : e.Urgent)
    (hn : s.standing.terminated = false) (hidle : e.Idle s.standing) :
    s.plan.Stuck s.view.history := by
  have htimely := hc.timely e he
  have hfinish : s.standing.session.stage ≠ .finish :=
    ((Standing.terminated_eq_false_iff _).1 hn).1
  have hterm : ¬ s.standing.terminated = true := by simp [hn]
  cases e with
  | connectionEstablished => exact hidle.elim
  | connectionFailed message => exact absurd hidle hfinish
  | connectionClosed => exact absurd hidle hfinish
  | subscribed =>
    rcases hidle with ht | hs | hp
    · exact absurd ht hterm
    · exact absurd htimely.1 hs
    · exact absurd (hp.symm.trans htimely.2) nofun
  | writeOpportunity =>
    have hw : s.standing.session.writes = true := htimely
    unfold Session.writes at hw
    rcases hidle with ht | ⟨hs, hp⟩ | ⟨hs, hq⟩
    · exact absurd ht hterm
    · rw [hs] at hw
      simp [hp] at hw
    · revert hs hw hq
      cases s.standing.session.stage <;> simp [Stage.publishQos?]
  | acknowledged => exact absurd hidle hterm
  | resendRequested attempt =>
    have hs : s.standing.session.stage = .waitAck0 := by
      rcases hidle with ht | hne
      · exact absurd ht hterm
      · exact htimely.resolve_right hne
    obtain ⟨past, now, n, hhistory, hpast, hn, hp⟩ := h.told
    obtain ⟨task, htask, hout⟩ := hp.timedOut attempt he
    obtain rfl := Option.some.inj (htask.symm.trans (s.plan.awaited_of_waitAck0 hs))
    cases hout with
    | called id message => exact ⟨id, message, past, [], by rw [hhistory, List.append_nil]⟩
    | uncalled id hlimited => simp [Session.Plan.publication, Task.limited] at hlimited
  | messageReceived topic payload => rcases hurgent with hu | hu <;> cases hu
  | serviceCancelled => rcases hurgent with hu | hu <;> cases hu
  | unspecific => rcases hurgent with hu | hu <;> cases hu

theorem not_finish_of_running (h : s.Live) (hi : s.standing.verdict.interrupted = false) :
    s.standing.session.stage ≠ .finish :=
  fun hs => absurd (hi.symm.trans (h.finished hs)) nofun

/-- An event that is only noted takes nothing away that is owed. -/
theorem noted_owed (h : s.Live) (ho : s.Orderly first)
    (hc : Coupled s.plan s.standing.session s.view) (hl : s.phase.looping)
    (hi : s.standing.verdict.interrupted = false) {e : Event} {rest : List Event}
    (he : s.view.events = e :: rest) (hidle : e.Idle s.standing) :
    ({ s.view with events := rest } : View).Owed s.plan := by
  have hmem : e ∈ s.view.events := by simp [he]
  have hn : s.standing.terminated = false :=
    (Standing.terminated_eq_false_iff _).2 ⟨not_finish_of_running h hi, hi⟩
  by_cases hurgent : e.Urgent
  · exact .inr (.inr (.inr (stuck_of_idle ho hc hmem hurgent hn hidle)))
  · refine (h.owed hl hi).mono (fun l hl ho => ⟨l, hl, ho⟩) rfl ?_ rfl
    intro e' he' hu
    rw [he] at he'
    rcases List.mem_cons.1 he' with rfl | hrest
    · exact absurd hu hurgent
    · exact hrest

theorem Live.turn {e : Event} {rest : List Event} (h : s.Live) (ho : s.Orderly first)
    (hc : Coupled s.plan s.standing.session s.view) (hl : s.phase.looping)
    (he : s.view.events = e :: rest) (ht : s.Turn rest e s') : s'.Live := by
  have hview := h.view (Phase.running_of_looping hl)
  have hstage (hn : s.standing.terminated = false) : s.standing.session.stage ≠ .finish :=
    ((Standing.terminated_eq_false_iff _).1 hn).1
  have hwrite {events : List Event} : Event.writeOpportunity ∈ events ++ [.writeOpportunity] :=
    List.mem_append_right _ (List.mem_singleton_self _)
  cases ht with
  | noted hidle =>
    exact ⟨h.script, nofun, fun _ => ⟨hview.link, hview.operations⟩, h.finished,
      fun _ hi => noted_owed h ho hc hl hi he hidle⟩
  | established =>
    exact ⟨h.script, nofun, fun _ => ⟨hview.link, hview.operations⟩, h.finished,
      fun _ _ => .of_urgent (.inl rfl) hwrite⟩
  | lost _ _ =>
    exact ⟨h.script, nofun, fun _ => ⟨hview.link, hview.operations⟩, fun _ => rfl, fun _ => nofun⟩
  | rejected _ _ =>
    exact ⟨h.script, nofun, fun _ => ⟨hview.link, hview.operations⟩, fun _ => rfl, fun _ => nofun⟩
  | subscribes id hn hs =>
    obtain ⟨hreply, hreadable, hscript⟩ := h.script.drawSubscribe
    refine ⟨hscript, nofun, fun _ => ⟨hview.link, fun op hop => ?_⟩, ?_, fun _ _ => ?_⟩
    · rcases List.mem_append.1 hop with hold | hnew
      · exact hview.operations op hold
      · rw [List.mem_singleton.1 hnew]
        exact ⟨rfl, hreply, fun _ _ => hreadable, nofun, nofun⟩
    · exact fun hf => absurd hf (hstage hn)
    · exact .of_operation (List.mem_append_right _ (List.mem_singleton_self _))
  | completes id hn hq hnext =>
    obtain ⟨hreply, hscript⟩ := h.script.drawPublish
    refine ⟨hscript, nofun, fun _ => ⟨hview.link, fun op hop => ?_⟩, ?_, fun _ _ => ?_⟩
    · rcases List.mem_append.1 hop with hold | hnew
      · exact hview.operations op hold
      · rw [List.mem_singleton.1 hnew]
        exact ⟨rfl, hreply, nofun, nofun, nofun⟩
    · exact fun hf => absurd hf (Stage.ne_finish_of_written hq hnext)
    · exact .of_operation (List.mem_append_right _ (List.mem_singleton_self _))
  | confirmed hn hs =>
    exact ⟨h.script, nofun, fun _ => ⟨hview.link, hview.operations⟩, nofun,
      fun _ _ => .of_urgent (.inl rfl) hwrite⟩
  | collects hn hq hp hf =>
    exact ⟨h.script, nofun, fun _ => ⟨hview.link, hview.operations⟩,
      fun hf => absurd hf (hstage hn), fun _ _ => .of_urgent (.inl rfl) hwrite⟩
  | acknowledged hn hs =>
    exact ⟨h.script, nofun, fun _ => ⟨hview.link, hview.operations⟩, nofun,
      fun _ _ => .of_urgent (.inl rfl) hwrite⟩
  | finished hn hs =>
    exact ⟨h.script, nofun, fun _ => ⟨hview.link, hview.operations⟩, fun _ => rfl, fun _ => nofun⟩
  | resends hn hs ha =>
    exact ⟨h.script, nofun, fun _ => ⟨hview.link, hview.operations⟩, nofun,
      fun _ _ => .of_urgent (.inl rfl) hwrite⟩
  | givesUp hn hs =>
    exact ⟨h.script, nofun, fun _ => ⟨hview.link, hview.operations⟩, fun _ => rfl, fun _ => nofun⟩

theorem Live.change (h : s.Live) (ho : s.Orderly first) (hs : s.InStep) (hc : s.Change s') :
    s'.Live := by
  cases hc with
  | work hl hwork =>
    refine ⟨h.script, h.shut, fun hr => (h.view hr).change hwork, h.finished, fun hp hi => ?_⟩
    exact (h.owed hp hi).change (h.view (Phase.running_of_looping hp)) hwork
  | connect hp hgate hnone =>
    have hview := h.view (by rw [hp]; rfl)
    refine ⟨h.script, nofun, fun _ => ⟨fun l hl _ => ?_, hview.operations⟩, h.finished,
      fun _ _ => .inl ⟨_, rfl, rfl⟩⟩
    obtain rfl := Option.some.inj hl
    exact ⟨rfl, h.script.enter⟩
  | refuse hp hgate =>
    exact ⟨h.script, nofun, fun _ => h.view (by rw [hp]; rfl), fun _ => rfl, fun _ => nofun⟩
  | raise hp hgate => exact ⟨h.script, nofun, nofun, h.finished, nofun⟩
  | skip hp hgate => exact absurd ((h.shut hp).symm.trans hgate) nofun
  | interrupt hl =>
    exact ⟨h.script, h.shut, fun hr => ⟨(h.view hr).link, (h.view hr).operations⟩, fun _ => rfl,
      fun _ => nofun⟩
  | wait hp he =>
    exact ⟨h.script, nofun, fun _ => h.view (Phase.running_of_looping hp), h.finished,
      fun _ => h.owed hp⟩
  | handle hp he hr hpass =>
    exact h.turn ho hs.coupled hp he (turn_of_reacts hs.coupled he hr hpass)
  | spoil hp he =>
    have hview := h.view (Phase.running_of_looping hp)
    exact ⟨h.script, nofun, fun _ => ⟨hview.link, hview.operations⟩, fun _ => rfl, fun _ => nofun⟩
  | overrun hp he hraises => exact ⟨h.script, nofun, nofun, h.finished, nofun⟩
  | close hl hw => exact ⟨h.script, nofun, nofun, h.finished, nofun⟩
  | finish hp => exact ⟨h.script, nofun, nofun, h.finished, nofun⟩
  | crash hl => exact ⟨h.script, nofun, nofun, h.finished, nofun⟩

theorem live_initial (plan : Session.Plan) {script : Script} (h : script.Audible) :
    (initial plan script).Live := by
  refine ⟨h, fun _ => rfl, fun _ => ⟨?_, ?_⟩, nofun, nofun⟩
  · simp [initial]
  · simp [initial]

/-- While an operation is under way, or the connection still to come up, nothing has gone wrong. -/
theorem not_stuck_of_underway (h : s.Orderly first) (hs : s.InStep) (hl : s.phase.live)
    (hunderway : (∃ l, s.view.link = some l ∧ l.phase.opening) ∨ s.view.operations ≠ []) :
    ¬ s.plan.Stuck s.view.history := by
  obtain ⟨past, now, n, hhistory, hpast, hn, hp⟩ := h.told
  have hnow : now.IsChain s.plan.Smooth := by
    rcases hunderway with ⟨l, hlink, ho⟩ | hsome
    · have hunlinked : s.view.Unlinked := by
        intro l' hl'
        obtain rfl := Option.some.inj (hlink.symm.trans hl')
        exact ho
      have hidle : s.standing.session.awaited? s.plan = none := by
        rw [(hs.untouched hl hunlinked).1]
        rfl
      rw [hp.idle hidle]
      exact .nil
    · obtain ⟨op, hop⟩ := List.exists_mem_of_ne_nil _ hsome
      have htraced := hp.traced op hop
      unfold Operation.Traced at htraced
      split at htraced
      · rw [htraced]
        exact .nil
      · rw [htraced]
        exact List.isChain_singleton _
      all_goals
        rcases htraced.2.ended with hmade | ⟨hnone, -⟩
        · rw [hmade]
          exact List.isChain_singleton _
        · rw [hnone]
          exact .nil
  rw [hhistory]
  exact Session.Plan.not_stuck_of_isChain (hpast.isChain_append hnow)

end Scene

section Possible

variable {settings : Settings} {script : Script} {signals : List Signal} {t : Trial}

theorem Possible.live (h : (ofSettings settings script signals).Possible t)
    (hscript : script.Audible) : t.scene.Live := by
  have horderly := (Scene.orderly_initial settings.plan script).1
  have hlive := Scene.live_initial settings.plan hscript
  have hall := h.scene_of_inStep (P := fun s => s.Orderly script.drawSubscribe.1 ∧ s.Live) ?_
    ⟨horderly, hlive⟩
  · exact hall.2.2
  · rintro s s' hs ⟨horderly, hlive⟩ hc
    exact ⟨horderly.change hs hc, hlive.change horderly hs hc⟩

/-- With a client that answers, in whatever order: while the run loop goes on with nothing in its
queue, the connection is still to come up or an operation is under way, so that an event will come;
unless the publish at QoS 0 once ended in a timeout, and then nothing is, and none will. -/
theorem waits_on_something_iff (h : (ofSettings settings script signals).Possible t)
    (hscript : script.Audible) (hloop : t.phase.looping)
    (hinterrupted : t.standing.verdict.interrupted = false) (hevents : t.transport.events = []) :
    ((∃ l, t.transport.link = some l ∧ l.phase.opening) ∨ t.transport.operations ≠ []) ↔
      ¬ ∃ id message, exchange id
        (.publish settings.publishTopic 0 settings.chunker.payload)
        (.failed ⟨.timeout, message⟩) <:+: t.transport.history := by
  have hplan : t.scene.plan = settings.plan := h.plan_eq
  have hstuck : t.scene.plan.Stuck t.scene.view.history ↔ ∃ id message, exchange id
      (.publish settings.publishTopic 0 settings.chunker.payload)
      (.failed ⟨.timeout, message⟩) <:+: t.transport.history := by
    rw [hplan]
    rfl
  rw [← hstuck]
  refine ⟨?_, ?_⟩
  · intro hunderway
    exact Scene.not_stuck_of_underway h.orderly.1 h.inStep (Phase.live_of_looping hloop) hunderway
  · intro hsmooth
    rcases (h.live hscript).owed hloop hinterrupted with hlink | hops | ⟨e, he, hurgent⟩ | hs
    · exact .inl hlink
    · exact .inr hops
    · have he : e ∈ t.transport.events := he
      simp [hevents] at he
    · exact absurd hs hsmooth

/-- The run loop waits while the subscription is under way. -/
theorem waits_on_subscription :
    ∃ settings t, Settings.ofConfig [1, 2, 3] (.mapping []) false = .ok settings ∧
      (ofSettings settings {} []).Possible t ∧ ({} : Script).Audible ∧ t.phase = .waiting ∧
      t.standing.verdict.interrupted = false ∧ t.transport.events = [] ∧
      ((∃ l, t.transport.link = some l ∧ l.phase.opening) ∨ t.transport.operations ≠ []) := by
  have hscript : ({} : Script).Audible := ⟨nofun, nofun, nofun⟩
  refine ⟨_, _, rfl, possible_runFor 6 (ofSettings _ {} []), hscript, rfl, rfl, rfl, ?_⟩
  refine (waits_on_something_iff (possible_runFor 6 _) hscript rfl rfl rfl).2 ?_
  rintro ⟨id, message, hinfix⟩
  exact absurd (List.infix_nil.1 hinfix) nofun

/-- A publish at QoS 0 whose call raises a timeout leaves the run loop waiting for ever: nothing is
under way, and there is no further step. -/
theorem waits_on_nothing :
    ∃ settings t, Settings.ofConfig [1, 2, 3] (.mapping []) false = .ok settings ∧
      (ofSettings settings { publish := [{ fault := some ⟨.timeout, none⟩ }] } []).Possible t ∧
      ({ publish := [{ fault := some ⟨.timeout, none⟩ }] } : Script).Audible ∧
      t.phase = .waiting ∧ t.standing.verdict.interrupted = false ∧ t.transport.events = [] ∧
      ¬ ((∃ l, t.transport.link = some l ∧ l.phase.opening) ∨ t.transport.operations ≠ []) ∧
      t.step.isNone := by
  have hscript : ({ publish := [{ fault := some ⟨.timeout, none⟩ }] } : Script).Audible := by
    refine ⟨nofun, nofun, ?_⟩
    intro r hr f hf
    obtain rfl := List.mem_singleton.1 hr
    obtain rfl := Option.some.inj hf
    rfl
  refine ⟨_, _, rfl, possible_runFor 30 (ofSettings _ _ []), hscript, rfl, rfl, rfl, ?_, rfl⟩
  rintro (⟨l, hl, ho⟩ | hsome)
  · obtain rfl := Option.some.inj hl
    exact absurd ho nofun
  · exact hsome rfl

end Possible

end Trial

end BrokerTrial

import BrokerTrial.Proofs.History
import BrokerTrial.Proofs.Reading

/-! The workflow of a trial, end to end. The history of every state is what the session has behind
it and what has happened since (`Scene.Orderly`), whatever the client does and in whatever order. So
the calls of a client are in order (`Orderly.calls_prefix`), and a run that ends well has the whole
workflow behind it (`Orderly.past_of_finish`). -/

namespace BrokerTrial

open Mark (calls exchange)
open Transport (View)

def Event.ofOperation : Event → Bool
  | .subscribed | .acknowledged | .resendRequested _ => true
  | _ => false

theorem Event.ofWorkflow_of_ofOperation {e : Event} (h : e.ofOperation = true) :
    e.ofWorkflow = true := by
  cases e <;> first | rfl | cases h

namespace Operation

variable {op : Operation} {attempt : Int} {ending : Ending}

theorem returned_of_mem_report {e : Event} (h : e ∈ op.report attempt ending)
    (he : e = .subscribed ∨ e = .acknowledged) : ending = .returned := by
  cases ht : op.task with
  | subscribe topics =>
    rw [report_of_subscribe ht] at h
    rcases subscribeReport_cases topics op.reply.granted ending with
      hr | ⟨hending, -, -⟩ | ⟨message, hr⟩
    · simp [hr] at h
    · exact hending
    · simp_all
  | publish topic qos payload =>
    rw [report_of_publish ht] at h
    rcases publishReport_cases attempt ending with
      hr | ⟨hending, -⟩ | ⟨message, -, hr⟩ | ⟨message, hr⟩
    · simp [hr] at h
    · exact hending
    · simp_all
    · simp_all

theorem granted_of_mem_report (h : .subscribed ∈ op.report attempt ending) :
    ∃ topics, op.task = .subscribe topics ∧ topics.Granted op.reply.granted := by
  cases ht : op.task with
  | subscribe topics =>
    rw [report_of_subscribe ht] at h
    rcases subscribeReport_cases topics op.reply.granted ending with
      hr | ⟨-, hgranted, -⟩ | ⟨message, hr⟩
    · simp [hr] at h
    · exact ⟨topics, rfl, (Transport.refusedTopics_eq_nil_iff _ _).1 hgranted⟩
    · simp [hr] at h
  | publish topic qos payload =>
    rw [report_of_publish ht] at h
    rcases publishReport_cases attempt ending with
      hr | ⟨-, hr⟩ | ⟨message, -, hr⟩ | ⟨message, hr⟩ <;> simp [hr] at h

theorem timeout_of_mem_report {a : Int} (h : .resendRequested a ∈ op.report attempt ending) :
    ∃ message, ending = .failed ⟨.timeout, message⟩ := by
  cases ht : op.task with
  | subscribe topics =>
    rw [report_of_subscribe ht] at h
    rcases subscribeReport_cases topics op.reply.granted ending with
      hr | ⟨-, -, hr⟩ | ⟨message, hr⟩ <;> simp [hr] at h
  | publish topic qos payload =>
    rw [report_of_publish ht] at h
    rcases publishReport_cases attempt ending with
      hr | ⟨-, hr⟩ | ⟨message, hending, -⟩ | ⟨message, hr⟩
    · simp [hr] at h
    · simp [hr] at h
    · exact ⟨message, hending⟩
    · simp [hr] at h

end Operation

/-- What has happened since the session moved last: nothing, unless it waits for a task. `first` is
the client's first answer to a subscription. -/
structure Present (plan : Session.Plan) (first : Reply) (s : Session) (v : View)
    (now : List Mark) : Prop where
  idle : s.awaited? plan = none → now = []
  calls : calls now = [] ∨ ∃ task, s.awaited? plan = some task ∧ calls now = [task.call]
  traced : ∀ op ∈ v.operations, op.Traced now
  replies : ∀ op ∈ v.operations, op.task = plan.subscription → op.reply = first
  returned : ∀ e ∈ v.events, e = .subscribed ∨ e = .acknowledged →
    ∃ task id, s.awaited? plan = some task ∧ now = exchange id task.call .returned
  granted : .subscribed ∈ v.events → plan.topics.Granted first.granted
  timedOut : ∀ attempt, .resendRequested attempt ∈ v.events →
    ∃ task, s.awaited? plan = some task ∧ task.TimedOut now

namespace Present

variable {plan : Session.Plan} {first : Reply} {s : Session} {v : View} {now : List Mark}

theorem of_unreported (hevents : ∀ e ∈ v.events, e.ofWorkflow = false)
    (hidle : s.awaited? plan = none → now = [])
    (hcalls : Mark.calls now = [] ∨
      ∃ task, s.awaited? plan = some task ∧ Mark.calls now = [task.call])
    (htraced : ∀ op ∈ v.operations, op.Traced now)
    (hreplies : ∀ op ∈ v.operations, op.task = plan.subscription → op.reply = first) :
    Present plan first s v now := by
  have hnone (e : Event) (he : e ∈ v.events) (ho : e.ofOperation = true) : False :=
    absurd ((hevents e he).symm.trans (Event.ofWorkflow_of_ofOperation ho)) nofun
  refine ⟨hidle, hcalls, htraced, hreplies, ?_, ?_, ?_⟩
  · rintro e he (rfl | rfl)
    · exact (hnone _ he rfl).elim
    · exact (hnone _ he rfl).elim
  · intro he
    exact (hnone _ he rfl).elim
  · intro attempt he
    exact (hnone _ he rfl).elim

theorem of_operation {op : Operation} (hops : v.operations = [op])
    (hevents : ∀ e ∈ v.events, e.ofWorkflow = false) (htask : s.awaited? plan = some op.task)
    (ht : op.Traced now) (hreply : op.task = plan.subscription → op.reply = first) :
    Present plan first s v now := by
  refine of_unreported hevents ?_ ?_ ?_ ?_
  · intro h
    rw [htask] at h
    cases h
  · rcases ht.calls_eq with hnow | hnow
    · exact .inl hnow
    · exact .inr ⟨op.task, htask, hnow⟩
  · intro o ho
    rw [hops] at ho
    rwa [List.mem_singleton.1 ho]
  · intro o ho
    rw [hops] at ho
    rwa [List.mem_singleton.1 ho]

theorem of_outstanding_eq_zero (h0 : v.outstanding = 0) : Present plan first s v [] := by
  obtain ⟨hops, hevents⟩ := View.outstanding_eq_zero h0
  exact of_unreported hevents (fun _ => rfl) (.inl rfl) (by simp [hops]) (by simp [hops])

theorem of_events (h : Present plan first s v now) {w : View} (hops : w.operations = v.operations)
    (he : ∀ e ∈ w.events, e.ofOperation = true → e ∈ v.events) : Present plan first s w now := by
  refine ⟨h.idle, h.calls, hops ▸ h.traced, hops ▸ h.replies, ?_, ?_, ?_⟩
  · rintro e hmem (rfl | rfl)
    · exact h.returned _ (he _ hmem rfl) (.inl rfl)
    · exact h.returned _ (he _ hmem rfl) (.inr rfl)
  · intro hmem
    exact h.granted (he _ hmem rfl)
  · intro attempt hmem
    exact h.timedOut attempt (he _ hmem rfl)

theorem taken (h : Present plan first s v now) {e : Event} {rest : List Event}
    (he : v.events = e :: rest) : Present plan first s { v with events := rest } now := by
  refine h.of_events rfl fun e' hmem _ => ?_
  rw [he]
  exact List.mem_cons_of_mem e hmem

theorem emit (h : Present plan first s v now) {w : View} (hops : w.operations = v.operations)
    {e : Event} (hevents : w.events = v.events ++ [e]) (he : e.ofOperation = false) :
    Present plan first s w now := by
  refine h.of_events hops fun e' hmem ho => ?_
  rw [hevents] at hmem
  rcases List.mem_append.1 hmem with hold | hnew
  · exact hold
  · rw [List.mem_singleton.1 hnew] at ho
    exact absurd (he.symm.trans ho) nofun

theorem ends (hc : Coupled plan s v) (h : Present plan first s v now) {op : Operation}
    {attempt : Int} {ending : Ending} (hop : op ∈ v.operations) (he : op.Ends attempt ending) :
    Present plan first s
      (((v.remove op.id).record [.ended op.id ending]).emit (op.report attempt ending))
      (now ++ [.ended op.id ending]) := by
  obtain ⟨hops, hevents⟩ := hc.only hop
  have htask := hc.tasks op hop
  have htraced := h.traced op hop
  obtain ⟨hreturned, htimedOut⟩ := htraced.ends he
  have hreport (e : Event) (ho : e.ofOperation = true)
      (hmem : e ∈ v.events ++ op.report attempt ending) : e ∈ op.report attempt ending := by
    rcases List.mem_append.1 hmem with hold | hnew
    · exact absurd ((hevents e hold).symm.trans (Event.ofWorkflow_of_ofOperation ho)) nofun
    · exact hnew
  have hnone : (v.remove op.id).operations = [] := by simp [View.remove, hops]
  refine ⟨?_, ?_, ?_, ?_, ?_, ?_, ?_⟩
  · intro hidle
    rw [htask] at hidle
    cases hidle
  · rw [Mark.calls_append, Mark.calls_ended, Mark.calls_nil, List.append_nil]
    exact h.calls
  · intro o ho
    have ho : o ∈ (v.remove op.id).operations := ho
    simp [hnone] at ho
  · intro o ho
    have ho : o ∈ (v.remove op.id).operations := ho
    simp [hnone] at ho
  · intro e hmem hkind
    have ho : e.ofOperation = true := by rcases hkind with rfl | rfl <;> rfl
    obtain rfl := Operation.returned_of_mem_report (hreport e ho hmem) hkind
    exact ⟨op.task, op.id, htask, hreturned rfl⟩
  · intro hmem
    obtain ⟨topics, ht, hgranted⟩ := Operation.granted_of_mem_report (hreport _ rfl hmem)
    obtain rfl : topics = plan.topics := Session.topics_of_awaited (ht ▸ htask)
    rwa [← h.replies op hop ht]
  · intro a hmem
    obtain ⟨message, rfl⟩ := Operation.timeout_of_mem_report (hreport _ rfl hmem)
    exact ⟨op.task, htask, htimedOut message rfl⟩

/-- What background work adds to the history has happened since. -/
theorem change (hc : Coupled plan s v) (h : Present plan first s v now) {w : View}
    (hw : v.Change w) :
    ∃ more, w.history = v.history ++ more ∧ Present plan first s w (now ++ more) := by
  have hquiet {w : View} (hhistory : w.history = v.history) (hp : Present plan first s w now) :
      ∃ more, w.history = v.history ++ more ∧ Present plan first s w (now ++ more) :=
    ⟨[], by rw [hhistory, List.append_nil], by rwa [List.append_nil]⟩
  cases hw with
  | act hop hact =>
    rename_i op op' marks
    obtain ⟨hops, hevents⟩ := hc.only hop
    have hops' : ((v.replace op').record marks).operations = [op'] := by
      simp [View.replace, View.record, hops, hact.id_eq]
    refine ⟨marks, rfl, of_operation hops' hevents ?_ ?_ ?_⟩
    · rw [hact.task_eq]
      exact hc.tasks op hop
    · exact (h.traced op hop).act hact
    · rw [hact.task_eq, hact.reply_eq]
      exact h.replies op hop
  | ends hop hends => exact ⟨_, rfl, h.ends hc hop hends⟩
  | connecting _ _ => exact hquiet rfl (h.of_events rfl fun _ he _ => he)
  | established _ _ _ _ _ => exact hquiet rfl (h.emit rfl rfl rfl)
  | message topic payload _ _ => exact hquiet rfl (h.emit rfl rfl rfl)
  | parked _ _ _ => exact hquiet rfl (h.of_events rfl fun _ he _ => he)
  | failed message _ _ => exact hquiet rfl (h.emit rfl rfl rfl)
  | closed _ _ _ => exact hquiet rfl (h.emit rfl rfl rfl)
  | stopped _ _ _ => exact hquiet rfl (h.of_events rfl fun _ he _ => he)

theorem cancelled (h : Present plan first s v now) {w : View} (hw : v.Cancelled w) :
    Present plan first s w now := by
  have hevents : w.events = v.events := by rw [hw.others]
  refine ⟨h.idle, h.calls, ?_, ?_, hevents ▸ h.returned, hevents ▸ h.granted,
    hevents ▸ h.timedOut⟩
  · intro op hop
    obtain ⟨o, ho, rfl | rfl⟩ := hw.operations op hop
    · exact h.traced op ho
    · exact h.traced o ho
  · intro op hop
    obtain ⟨o, ho, rfl | rfl⟩ := hw.operations op hop
    · exact h.replies op ho
    · exact h.replies o ho

end Present

namespace Trial.Scene

variable {first : Reply} {s s' : Scene}

/-- The history is what the session has behind it and what has happened since. -/
structure Orderly (first : Reply) (s : Scene) : Prop where
  told : ∃ past now n, s.view.history = past ++ now ∧
    s.plan.Past first.granted s.standing.session.stage n past ∧
    (n : Int) ≤ s.standing.session.resends ∧ Present s.plan first s.standing.session s.view now
  /-- The first answer to a subscription is still to come. -/
  unanswered : s.standing.session.stage = .subscribe →
    s.standing.session.subscribePending = false → s.script.drawSubscribe.1 = first

theorem Orderly.turn {e : Event} {rest : List Event} (h : s.Orderly first)
    (hc : Coupled s.plan s.standing.session s.view) (he : s.view.events = e :: rest)
    (ht : s.Turn rest e s') : s'.Orderly first := by
  obtain ⟨⟨past, now, n, hhistory, hpast, hn, hp⟩, hscript⟩ := h
  have hmem : e ∈ s.view.events := by simp [he]
  have htimely : e.Timely s.standing.session := hc.timely e hmem
  have htaken : Present s.plan first s.standing.session { s.view with events := rest } now :=
    hp.taken he
  have h0 (hw : e.ofWorkflow = true) : ({ s.view with events := rest } : View).outstanding = 0 :=
    hc.taken_outstanding he hw
  have hblank (hw : e.ofWorkflow = true) (session : Session) (outgoing : List UInt8) :
      Present s.plan first session { s.view with events := rest, outgoing } [] :=
    Present.of_outstanding_eq_zero (h0 hw)
  have hnone (hw : e.ofWorkflow = true) : s.view.operations = [] :=
    (View.outstanding_eq_zero (h0 hw)).1
  have hall : s.view.history = (past ++ now) ++ [] := by rw [hhistory, List.append_nil]
  cases ht with
  | noted _ => exact ⟨⟨past, now, n, hhistory, hpast, hn, htaken⟩, hscript⟩
  | established => exact ⟨⟨past, now, n, hhistory, hpast, hn, htaken.emit rfl rfl rfl⟩, hscript⟩
  | lost _ _ => exact ⟨⟨past, now, n, hhistory, hpast, hn, htaken.emit rfl rfl rfl⟩, hscript⟩
  | rejected _ _ => exact ⟨⟨past, now, n, hhistory, hpast, hn, htaken.emit rfl rfl rfl⟩, hscript⟩
  | subscribes id hterm hs =>
    obtain rfl := hp.idle (Session.awaited_of_writes htimely s.plan)
    have hpending : s.standing.session.subscribePending = false :=
      Session.not_pending_of_writes htimely hs
    refine ⟨⟨past, [], n, hhistory, hpast, hn, ?_⟩, nofun⟩
    let op : Operation := { id, task := s.plan.subscription, reply := s.script.drawSubscribe.1 }
    have hops : s.view.operations ++ [op] = [op] := by rw [hnone rfl, List.nil_append]
    exact Present.of_operation hops (View.outstanding_eq_zero (h0 rfl)).2
      (s.plan.awaited_of_subscribing hs rfl) rfl fun _ => hscript hs hpending
  | confirmed hterm hs =>
    obtain ⟨task, id, htask, rfl⟩ := hp.returned _ hmem (.inl rfl)
    have hpending : s.standing.session.subscribePending = true := htimely.2
    obtain rfl := Option.some.inj
      (htask.symm.trans (s.plan.awaited_of_subscribing hs hpending))
    rw [hs] at hpast
    cases hpast
    refine ⟨⟨_, [], 0, hall, .subscribed id (hp.granted hmem), hn, ?_⟩, nofun⟩
    exact (hblank rfl _ _).emit rfl rfl rfl
  | collects hterm hq hpiece hf =>
    obtain rfl := hp.idle (Session.awaited_of_writes htimely s.plan)
    refine ⟨⟨past, [], n, hhistory, hpast, hn, ?_⟩, ?_⟩
    · exact (hblank rfl _ _).emit rfl rfl rfl
    · intro hs
      have hs : s.standing.session.stage = .subscribe := hs
      rw [hs] at hq
      cases hq
  | completes id hterm hq hnext =>
    rename_i qos stage
    obtain rfl := hp.idle (Session.awaited_of_writes htimely s.plan)
    have hwritten : s.plan.Past first.granted stage n past := by
      revert hpast hq hnext
      cases s.standing.session.stage with
      | publishQos0 =>
        rintro hpast - ⟨⟩
        exact .firstWritten hpast
      | publishQos1 =>
        rintro hpast - ⟨⟩
        exact .secondWritten hpast
      | _ => exact fun _ => nofun
    have hsubscribe : stage ≠ .subscribe := by
      rintro rfl
      cases hwritten
      revert hnext
      cases s.standing.session.stage <;> exact nofun
    refine ⟨⟨past, [], n, hhistory, hwritten, hn, ?_⟩, fun hs => absurd hs hsubscribe⟩
    let op : Operation := { id, task := s.plan.publication qos, reply := s.script.drawPublish.1 }
    have hops : s.view.operations ++ [op] = [op] := by rw [hnone rfl, List.nil_append]
    exact Present.of_operation hops (View.outstanding_eq_zero (h0 rfl)).2
      (Session.awaited_of_publish hq hnext) rfl nofun
  | acknowledged hterm hs =>
    obtain ⟨task, id, htask, rfl⟩ := hp.returned _ hmem (.inr rfl)
    obtain rfl := Option.some.inj (htask.symm.trans (s.plan.awaited_of_waitAck0 hs))
    rw [hs] at hpast
    refine ⟨⟨_, [], 0, hall, hpast.firstAcknowledged id, le_rfl, ?_⟩, nofun⟩
    exact (hblank rfl _ _).emit rfl rfl rfl
  | finished hterm hs =>
    obtain ⟨task, id, htask, rfl⟩ := hp.returned _ hmem (.inr rfl)
    obtain rfl := Option.some.inj (htask.symm.trans (s.plan.awaited_of_waitAck1 hs))
    rw [hs] at hpast
    refine ⟨⟨_, [], n, hall, hpast.finished id, hn, ?_⟩, nofun⟩
    exact (hblank rfl _ _).emit rfl rfl rfl
  | resends hterm hs ha =>
    obtain ⟨task, htask, hout⟩ := hp.timedOut _ hmem
    obtain rfl := Option.some.inj (htask.symm.trans (s.plan.awaited_of_waitAck1 hs))
    rw [hs] at hpast
    have hallowed : s.standing.session.resends + 1 < s.plan.limit.cap := of_decide_eq_true ha
    have hcap : ((n + 1 : Nat) : Int) < s.plan.limit.cap := by omega
    refine ⟨⟨_, [], n + 1, hall, hpast.timedOut hout hcap, ?_, ?_⟩, nofun⟩
    · exact (by omega : ((n + 1 : Nat) : Int) ≤ s.standing.session.resends + 1)
    · exact (hblank rfl _ _).emit rfl rfl rfl
  | givesUp hterm hs =>
    have hmore : (n : Int) ≤ s.standing.session.resends + 1 := by omega
    have hsame : Present s.plan first
        { s.standing.session with resends := s.standing.session.resends + 1 }
        { s.view with events := rest } now := { htaken with }
    exact ⟨⟨past, now, n, hhistory, hpast, hmore, hsame.emit rfl rfl rfl⟩, hscript⟩

/-- Every change of a scene keeps its history in order. -/
theorem Orderly.change (h : s.Orderly first) (hs : s.InStep) (hc : s.Change s') :
    s'.Orderly first := by
  obtain ⟨past, now, n, hhistory, hpast, hn, hp⟩ := h.told
  have hscript := h.unanswered
  cases hc with
  | work hl hwork =>
    obtain ⟨more, hmore, hpresent⟩ := hp.change hs.coupled hwork
    refine ⟨⟨past, now ++ more, n, ?_, hpast, hn, hpresent⟩, hscript⟩
    rw [← List.append_assoc, ← hhistory]
    exact hmore
  | connect _ _ _ =>
    exact ⟨⟨past, now, n, hhistory, hpast, hn, hp.of_events rfl fun _ he _ => he⟩, hscript⟩
  | refuse _ _ => exact ⟨⟨past, now, n, hhistory, hpast, hn, hp⟩, hscript⟩
  | raise _ _ => exact ⟨⟨past, now, n, hhistory, hpast, hn, hp⟩, hscript⟩
  | skip _ _ => exact ⟨⟨past, now, n, hhistory, hpast, hn, hp⟩, hscript⟩
  | interrupt _ => exact ⟨⟨past, now, n, hhistory, hpast, hn, hp.emit rfl rfl rfl⟩, hscript⟩
  | wait _ _ => exact ⟨⟨past, now, n, hhistory, hpast, hn, hp⟩, hscript⟩
  | handle _ he hr hpass => exact h.turn hs.coupled he (turn_of_reacts hs.coupled he hr hpass)
  | spoil _ he => exact ⟨⟨past, now, n, hhistory, hpast, hn, hp.taken he⟩, hscript⟩
  | overrun _ he _ => exact ⟨⟨past, now, n, hhistory, hpast, hn, hp.taken he⟩, hscript⟩
  | close _ hw =>
    refine ⟨⟨past, now, n, ?_, hpast, hn, hp.cancelled hw⟩, hscript⟩
    rw [hw.others]
    exact hhistory
  | finish _ =>
    exact ⟨⟨past, now, n, hhistory, hpast, hn, hp.of_events rfl fun _ he _ => he⟩, hscript⟩
  | crash _ => exact ⟨⟨past, now, n, hhistory, hpast, hn, hp⟩, hscript⟩

/-- Only a session that has finished succeeds, and only the verdict of a session is a result. -/
structure Honest (s : Scene) : Prop where
  verdict : s.standing.verdict.outcome = .success → s.standing.session.stage = .finish
  result : ∀ v, s.phase = .ended (.finished v) → v.outcome = .success →
    s.standing.session.stage = .finish

theorem Honest.turn {e : Event} {rest : List Event} (h : s.Honest) (ht : s.Turn rest e s') :
    s'.Honest := by
  have hterminated {session : Session} (hn : s.standing.terminated = false)
      (hv : s.standing.verdict.outcome = .success) : session.stage = .finish :=
    absurd (h.verdict hv) ((Standing.terminated_eq_false_iff _).1 hn).1
  cases ht with
  | noted _ => exact ⟨h.verdict, nofun⟩
  | established => exact ⟨h.verdict, nofun⟩
  | lost _ _ => exact ⟨nofun, nofun⟩
  | rejected _ _ => exact ⟨nofun, nofun⟩
  | subscribes _ hn _ => exact ⟨hterminated hn, nofun⟩
  | confirmed hn _ => exact ⟨hterminated hn, nofun⟩
  | collects hn _ _ _ => exact ⟨hterminated hn, nofun⟩
  | completes _ hn _ _ => exact ⟨hterminated hn, nofun⟩
  | acknowledged hn _ => exact ⟨hterminated hn, nofun⟩
  | finished _ _ => exact ⟨fun _ => rfl, nofun⟩
  | resends hn _ _ => exact ⟨hterminated hn, nofun⟩
  | givesUp _ _ => exact ⟨nofun, nofun⟩

theorem Honest.change (h : s.Honest) (hs : s.InStep) (hc : s.Change s') : s'.Honest := by
  cases hc with
  | work _ _ => exact ⟨h.verdict, h.result⟩
  | connect _ _ _ => exact ⟨h.verdict, nofun⟩
  | refuse _ _ => exact ⟨nofun, nofun⟩
  | raise _ _ => exact ⟨h.verdict, nofun⟩
  | skip _ _ => exact ⟨h.verdict, nofun⟩
  | interrupt _ => exact ⟨h.verdict, h.result⟩
  | wait _ _ => exact ⟨h.verdict, nofun⟩
  | handle _ he hr hpass => exact h.turn (turn_of_reacts hs.coupled he hr hpass)
  | spoil _ _ => exact ⟨nofun, nofun⟩
  | overrun _ _ _ => exact ⟨h.verdict, nofun⟩
  | close _ _ => exact ⟨h.verdict, nofun⟩
  | finish hp =>
    rename_i escape
    refine ⟨h.verdict, fun v hv hout => ?_⟩
    cases escape with
    | none =>
      have hv : Phase.ended (.finished s.standing.verdict) = .ended (.finished v) := hv
      cases hv
      exact h.verdict hout
    | some e => cases hv
  | crash _ => exact ⟨h.verdict, nofun⟩

/-- Whatever happens, the calls of the client are in the order of the workflow. -/
theorem Orderly.calls_prefix (h : s.Orderly first) : calls s.view.history <+: s.plan.callOrder := by
  obtain ⟨past, now, n, hhistory, hpast, hn, hp⟩ := h.told
  obtain ⟨k, hkn, hk⟩ := hpast.calls_eq
  have hcap : (k : Int) < s.plan.limit.cap := by
    have hlt := hpast.lt_cap
    omega
  rw [hhistory, Mark.calls_append, hk]
  rcases hp.calls with hnow | ⟨task, htask, hnow⟩
  · rw [hnow, List.append_nil]
    exact Session.Plan.callsBehind_prefix hcap _
  · rw [hnow]
    exact Session.Plan.callsBehind_append_prefix hcap htask

/-- Behind a session that has finished lies the whole workflow. -/
theorem Orderly.past_of_finish (h : s.Orderly first) (hs : s.standing.session.stage = .finish) :
    ∃ n, s.plan.Past first.granted .finish n s.view.history := by
  obtain ⟨past, now, n, hhistory, hpast, hn, hp⟩ := h.told
  have hidle : s.standing.session.awaited? s.plan = none := by
    unfold Session.awaited?
    rw [hs]
  rw [hs] at hpast
  rw [hhistory, hp.idle hidle, List.append_nil]
  exact ⟨n, hpast⟩

theorem orderly_initial (plan : Session.Plan) (script : Script) :
    (initial plan script).Orderly script.drawSubscribe.1 ∧ (initial plan script).Honest := by
  refine ⟨⟨⟨[], [], 0, rfl, .begun, le_rfl, ?_⟩, fun _ _ => rfl⟩, ⟨nofun, nofun⟩⟩
  exact Present.of_outstanding_eq_zero rfl

end Trial.Scene

namespace Settings

theorem payload_of_chunkerOf {bytes : List UInt8} {publish : Value} {chunker : Chunker}
    (h : chunkerOf bytes publish = .ok chunker) : chunker.payload = bytes := by
  obtain ⟨size, -, h⟩ := ok_of_bind h
  have hchunker := ok_of_mapError h
  unfold Chunker.ofPayload? at hchunker
  split_ifs at hchunker
  obtain rfl := Except.ok.inj hchunker
  rfl

/-- What is published is the payload that the settings were read with. -/
theorem payload_of_ofConfig {bytes : List UInt8} {config : Value} {tls : Bool}
    {settings : Settings} (h : ofConfig bytes config tls = .ok settings) :
    settings.chunker.payload = bytes := by
  have hread : read bytes config tls = .ok settings := ok_of_mapError h
  obtain ⟨publish, -, hread⟩ := ok_of_bind hread
  obtain ⟨chunker, hchunker, hread⟩ := ok_of_bind hread
  obtain ⟨limit, -, hread⟩ := ok_of_bind hread
  obtain ⟨topics, -, hread⟩ := ok_of_bind hread
  obtain ⟨connection, -, hread⟩ := ok_of_bind hread
  obtain ⟨patience, -, hread⟩ := ok_of_bind hread
  obtain ⟨topic, -, hread⟩ := ok_of_bind hread
  obtain rfl := Except.ok.inj hread
  exact payload_of_chunkerOf hchunker

end Settings

namespace Trial

theorem calls_eq (r : Transport) : r.calls = calls r.history := by
  unfold Transport.calls Transport.history calls
  rw [List.filterMap_filter]
  congr 1
  funext m
  cases m <;> rfl

section Possible

variable {settings : Settings} {script : Script} {signals : List Signal} {t : Trial}

theorem Possible.orderly (h : (ofSettings settings script signals).Possible t) :
    t.scene.Orderly script.drawSubscribe.1 ∧ t.scene.Honest := by
  have hinitial := Scene.orderly_initial settings.plan script
  refine (h.scene_of_inStep (P := fun s => s.Orderly script.drawSubscribe.1 ∧ s.Honest) ?_
    hinitial).2
  rintro s s' hs ⟨horderly, hhonest⟩ hc
  exact ⟨horderly.change hs hc, hhonest.change hs hc⟩

/-- Whatever the client, the broker and the signals do, in whatever order: the client is called in
the order of the workflow, each publish with the whole payload and at most as many at QoS 1 as the
limit allows. A run that ends with exit code 0 has subscribed once, and every code that is paired
with a topic has granted it; behind that, it has published once at QoS 0, and at QoS 1 until the
first attempt that did not time out. -/
theorem exit_zero_sound {bytes : List UInt8} {config : Value} {tls : Bool}
    (hs : Settings.ofConfig bytes config tls = .ok settings)
    (h : (ofSettings settings script signals).Possible t) :
    t.transport.calls <+: .subscribe settings.topics :: .publish settings.publishTopic 0 bytes ::
        List.replicate settings.limit.cap.toNat (.publish settings.publishTopic 1 bytes) ∧
      ∀ v, t.phase = .ended (.finished v) → v.exitCode = 0 →
        settings.topics.Granted script.drawSubscribe.1.granted ∧
        (∃ i j k n resent, settings.plan.TimedOuts n resent ∧ (n : Int) < settings.limit.cap ∧
          t.transport.history = exchange i (.subscribe settings.topics) .returned ++
            exchange j (.publish settings.publishTopic 0 bytes) .returned ++ resent ++
            exchange k (.publish settings.publishTopic 1 bytes) .returned) ∧
        ∃ m : Nat, 1 ≤ m ∧ (m : Int) ≤ settings.limit.cap ∧
          t.transport.calls = .subscribe settings.topics ::
            .publish settings.publishTopic 0 bytes ::
            List.replicate m (.publish settings.publishTopic 1 bytes) := by
  obtain ⟨horderly, hhonest⟩ := h.orderly
  have hplan : t.scene.plan = settings.plan := h.plan_eq
  have hsubscription : settings.plan.subscription.call = .subscribe settings.topics := rfl
  have hpublication (qos : Int) : (settings.plan.publication qos).call =
      .publish settings.publishTopic qos bytes := by
    rw [← Settings.payload_of_ofConfig hs]
    rfl
  have hlimit : settings.plan.limit = settings.limit := rfl
  refine ⟨?_, ?_⟩
  · have hfirst := horderly.calls_prefix
    rw [hplan, Session.Plan.callOrder, hsubscription, hpublication, hpublication, hlimit]
      at hfirst
    rwa [calls_eq]
  · intro v hp hv
    have hout : v.outcome = .success := by
      unfold Verdict.exitCode at hv
      split_ifs at hv with hout
      exact hout
    obtain ⟨n, hpast⟩ := horderly.past_of_finish (hhonest.result v hp hout)
    rw [hplan] at hpast
    obtain ⟨hgranted, i, j, k, resent, hresent, hhistory⟩ := hpast.behind_second
    obtain ⟨m, hmn, hcalls⟩ := hpast.calls_eq
    have hcap := hpast.lt_cap
    rw [hsubscription, hpublication, hpublication] at hhistory
    rw [Session.Plan.callsBehind, hsubscription, hpublication, hpublication] at hcalls
    refine ⟨hgranted, ⟨i, j, k, n, resent, hresent, hcap, hhistory⟩, m + 1, by omega, ?_, ?_⟩
    · rw [hlimit] at hcap
      push_cast
      omega
    · rw [calls_eq]
      exact hcalls

/-- A run with exit code 0: its settings are the usual ones, and its client answers at once. -/
theorem exit_zero_of_usual :
    ∃ settings t, Settings.ofConfig [1, 2, 3] (.mapping []) false = .ok settings ∧
      (ofSettings settings {} []).Possible t ∧
      t.phase = .ended (.finished ⟨true, .success, none⟩) ∧
      ∃ m : Nat, 1 ≤ m ∧ (m : Int) ≤ settings.limit.cap ∧
        t.transport.calls = .subscribe settings.topics ::
          .publish settings.publishTopic 0 [1, 2, 3] ::
          List.replicate m (.publish settings.publishTopic 1 [1, 2, 3]) := by
  refine ⟨_, _, rfl, possible_runFor 30 (ofSettings _ {} []), rfl, ?_⟩
  have hs : Settings.ofConfig [1, 2, 3] (.mapping []) false = .ok _ := rfl
  exact ((exit_zero_sound hs (possible_runFor 30 _)).2 _ rfl rfl).2.2

end Possible

end Trial

end BrokerTrial

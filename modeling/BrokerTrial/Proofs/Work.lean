import BrokerTrial.Proofs.Background
import BrokerTrial.Proofs.Ledger

/-! Background work in full. `Ledger.Change` lists the single changes that a task makes to the
ledger of a transport, with the events that it queues, and `runJob_works` says that every job of a
task is a sequence of such changes. From outside they are changes of the view (`runJob_changes`). -/

namespace BrokerTrial

inductive Source
  | host
  | link
  | operation (id : Nat)
deriving DecidableEq

def Job.source : Job → Source
  | .link => .link
  | .operation id | .call id | .callEnded id => .operation id
  | .host | .taskEnded | .signal _ => .host

namespace OperationPhase

def attempt? : OperationPhase → Option Int
  | .unstarted => none
  | .calling attempt | .guarding attempt _ | .givingUp attempt _ _ => some attempt

theorem attempt?_withCall (p : OperationPhase) (call : GuardedCall) :
    (p.withCall call).attempt? = p.attempt? := by
  cases p <;> rfl

end OperationPhase

namespace Operation

variable {op op' : Operation} {attempt : Int} {ending : Ending}

theorem Act.attempt?_eq {marks : List Mark} (h : op.Act op' marks) (hp : op.phase ≠ .unstarted) :
    op'.phase.attempt? = op.phase.attempt? := by
  cases h with
  | call _ hunstarted _ => exact absurd hunstarted hp
  | guard _ hunstarted _ _ => exact absurd hunstarted hp
  | skip _ hunstarted _ _ => exact absurd hunstarted hp
  | callOut => exact OperationPhase.attempt?_withCall _ _
  | callEnds => exact OperationPhase.attempt?_withCall _ _
  | callStops => exact OperationPhase.attempt?_withCall _ _
  | giveUp hguarding _ _ =>
    rw [hguarding]
    rfl

/-- An operation ends with its own attempt, unless it was cancelled. -/
theorem Ends.attempt_cases (h : op.Ends attempt ending) :
    op.phase.attempt? = some attempt ∨ ending = .cancelled ∧ ∀ n, op.Ends n ending := by
  cases h with
  | cancelled hc => exact .inr ⟨rfl, fun _ => .cancelled hc⟩
  | direct hp _ => exact .inl (by rw [hp]; rfl)
  | guarded hp _ => exact .inl (by rw [hp]; rfl)
  | closing hp => exact .inl (by rw [hp]; rfl)
  | outOfTime hp _ => exact .inl (by rw [hp]; rfl)

end Operation

namespace Task

/-- The number that a task starts with, if `last` is the last one that was given. -/
def attempt (last : Int) : Task → Int
  | .subscribe _ => 0
  | .publish .. => last % Transport.maxAttempt + 1

/-- The last number that was given when a task has started. -/
def lastAttempt (last : Int) : Task → Int
  | .subscribe _ => last
  | .publish .. => last % Transport.maxAttempt + 1

end Task

namespace Link

/-- What the link still has to pass on. -/
def ahead (l : Link) : List Inbound :=
  match l.phase with
  | .listening => l.inbound
  | .ended => []
  | _ => l.stream.map (·.content) ++ l.inbound

/-- The connection is there, and nobody has told the link to stop. -/
structure Up (l : Link) : Prop where
  phase : l.phase.up = true
  cancelled : l.cancelled = false

inductive Ends (l : Link) : Ending → Prop
  | cancelled : l.cancelled = true → l.phase ≠ .ended → Ends l .cancelled
  | refused {f : Fault} : l.phase.opening → l.cancelled = false → l.enter.fault = some f →
      Ends l (.failed f)
  | closed {rest : List Inbound} : l.Up → l.ahead = .ends :: rest → Ends l .returned
  | failed {f : Fault} {rest : List Inbound} : l.Up → l.ahead = .fails f :: rest →
      Ends l (.failed f)

def report : Ending → List Event
  | .returned => [.connectionClosed]
  | .cancelled => []
  | .failed f =>
    match f.kind with
    | .mqtt => [.connectionFailed f.text]
    | .cancelled | .interrupted => []
    | _ => [.connectionFailed s!"connection task failed: {f.shown}"]

theorem report_failed (f : Fault) :
    f.kind.silent = true ∧ report (.failed f) = [] ∨
      f.kind.silent = false ∧
        ∃ message : String, report (.failed f) = [.connectionFailed message] := by
  unfold report
  cases hk : f.kind <;> simp [hk, FaultKind.silent]

end Link

namespace Transport

namespace Ledger

/-- The single changes that the work of a task makes to the ledger, with what it queues. -/
inductive Change (l : Ledger) : Source → List Event → Ledger → Prop
  | starts {op op' : Operation} {marks : List Mark} : op ∈ l.view.operations →
      op.phase = .unstarted → op.Act op' marks →
      op'.phase.attempt? = some (op.task.attempt l.lastAttempt) →
      Change l (.operation op.id) []
        { l.withView ((l.view.replace op').record marks) with
          lastAttempt := op.task.lastAttempt l.lastAttempt }
  | goesOn {op op' : Operation} {marks : List Mark} : op ∈ l.view.operations →
      op.phase ≠ .unstarted → op.Act op' marks →
      Change l (.operation op.id) [] (l.withView ((l.view.replace op').record marks))
  | ends {op : Operation} {attempt : Int} {ending : Ending} : op ∈ l.view.operations →
      op.Ends attempt ending →
      Change l (.operation op.id) (op.report attempt ending)
        ((l.strike op.id ending).emit (op.report attempt ending))
  | connecting {link : Link} : l.view.link = some link → link.phase = .unstarted →
      link.cancelled = false →
      Change l .link [] (l.withLink { link with phase := .connecting })
  | established {link up : Link} : l.view.link = some link → link.phase.opening →
      link.cancelled = false → link.enter.fault = none → up.Up → up.ahead = link.ahead →
      Change l .link [.connectionEstablished]
        ((l.withView { l.view.withLink up with connected := true }).emit [.connectionEstablished])
  | message {link next : Link} {topic : Value} {payload : MessagePayload} :
      l.view.link = some link → link.Up → link.ahead = .message topic payload :: next.ahead →
      next.Up →
      Change l .link [.messageReceived topic.text payload.bytes?]
        ((l.withLink next).emit [.messageReceived topic.text payload.bytes?])
  | parked {link next : Link} : l.view.link = some link → link.Up → next.Up →
      next.ahead = link.ahead → Change l .link [] (l.withLink next)
  | cut {link ended : Link} {ending : Ending} : l.view.link = some link → link.Ends ending →
      ended.phase = .ended → ended.cancelled = link.cancelled →
      Change l .link (Link.report ending)
        ((l.cut ended).emit (Link.report ending))
  | broken {source : Source} {f : Fault} (guarded : Bool) : f.kind = .interrupted →
      Change l source [] { l with breakdown := some ⟨f, guarded⟩ }

/-- The work of a task: what it queues, and the ledger behind it. -/
inductive Works (source : Source) (l : Ledger) : List Event → Ledger → Prop
  | refl : Works source l [] l
  | tail {said events : List Event} {m n : Ledger} : Works source l said m →
      m.Change source events n → Works source l (said ++ events) n

variable {source : Source} {l m n : Ledger} {said events : List Event}

theorem Change.works (h : l.Change source events m) : l.Works source events m := by
  simpa using Works.refl.tail h

theorem Works.trans (h : l.Works source said m) (h' : m.Works source events n) :
    l.Works source (said ++ events) n := by
  induction h' with
  | refl => simpa using h
  | tail _ hchange ih => simpa using ih.tail hchange

theorem Works.silent_tail (h : l.Works source said m) (h' : m.Change source [] n) :
    l.Works source said n := by
  simpa using h.tail h'

/-- What is said is what comes to the queue. -/
theorem Change.events_eq (h : l.Change source events m) :
    m.view.events = l.view.events ++ events := by
  cases h <;> simp [withView, withLink, View.record, View.replace, View.remove, View.withLink,
    View.cut, View.emit, emit]

theorem Works.events_eq (h : l.Works source said m) :
    m.view.events = l.view.events ++ said := by
  induction h with
  | refl => simp
  | tail _ hchange ih => rw [hchange.events_eq, ih, List.append_assoc]

theorem Works.suffer {ending : Ending} {guarded : Bool} (h : l.Works source said m) :
    l.Works source said (m.suffer ending guarded) := by
  unfold Ledger.suffer
  split
  · split_ifs with hk
    · exact h.silent_tail (.broken guarded hk)
    · exact h
  · exact h

end Ledger

section Operations

open Operation

variable (t : Transport)

theorem ledger_breakDown (f : Fault) (guarded : Bool) (h : f.kind = .interrupted) :
    (t.breakDown f guarded).ledger = t.ledger.suffer (.failed f) guarded := by
  simp only [Ledger.suffer, h]
  rfl

theorem suffer_of_ne {l : Ledger} {f : Fault} (h : f.kind ≠ .interrupted) (guarded : Bool) :
    l.suffer (.failed f) guarded = l := by
  simp [Ledger.suffer, h]

theorem ledger_settleSubscribe (topics : Subscription) (granted : Suback) (ending : Ending) :
    (t.settleSubscribe topics granted ending).ledger =
      (t.ledger.emit (subscribeReport topics granted ending)).suffer ending false := by
  cases ending with
  | returned =>
    simp only [settleSubscribe, subscribeReport]
    cases refusedTopics topics granted with
    | error m => simp [Ledger.suffer]
    | ok refused => cases refused <;> simp [Ledger.suffer]
  | cancelled => simp [settleSubscribe, subscribeReport, Ledger.suffer]
  | failed f =>
    cases hk : f.kind <;>
      simp [settleSubscribe, subscribeReport, hk, suffer_of_ne, ledger_breakDown]

theorem ledger_settlePublish (topic : Value) (qos : Int) (payload : List UInt8) (attempt : Int)
    (ending : Ending) :
    (t.settlePublish topic qos payload attempt ending).ledger =
      (t.ledger.emit (publishReport attempt ending)).suffer ending false := by
  cases ending with
  | returned => simp [settlePublish, publishReport, Ledger.suffer]
  | cancelled => simp [settlePublish, publishReport, Ledger.suffer]
  | failed f =>
    cases hk : f.kind <;>
      simp [settlePublish, publishReport, hk, suffer_of_ne, ledger_breakDown]

theorem ledger_endOperation (op : Operation) (ending : Ending) :
    (t.endOperation op ending).ledger = t.ledger.strike op.id ending := by
  simp only [endOperation, ledger_noteEnded, ledger_ended]
  rfl

/-- An operation that ends leaves the transport, and what it reports is queued. -/
theorem ledger_settle (op : Operation) (attempt : Int) (ending : Ending) :
    (t.settle op attempt ending).ledger =
      ((t.ledger.strike op.id ending).emit (op.report attempt ending)).suffer ending false := by
  obtain ⟨id, task, reply, phase, cancelled⟩ := op
  cases task with
  | subscribe topics => simp [settle, report, ledger_endOperation, ledger_settleSubscribe]
  | publish topic qos payload => simp [settle, report, ledger_endOperation, ledger_settlePublish]

variable {t} {l : Ledger} {op op' : Operation} {marks : List Mark} {attempt : Int}

theorem settle_works {ending : Ending} (hop : op ∈ t.view.operations) (h : op.Ends attempt ending) :
    t.ledger.Works (.operation op.id) (op.report attempt ending)
      (t.settle op attempt ending).ledger := by
  rw [ledger_settle]
  exact (Ledger.Change.ends (l := t.ledger) hop h).works.suffer

theorem endOperation_works (hop : op ∈ t.view.operations) (h : op.Ends attempt .cancelled) :
    t.ledger.Works (.operation op.id) [] (t.endOperation op .cancelled).ledger := by
  have hchange := Ledger.Change.ends (l := t.ledger) hop h
  rw [report_cancelled, Ledger.emit_nil] at hchange
  rw [ledger_endOperation]
  exact hchange.works

theorem cancelled_works (hop : op ∈ t.view.operations) (hc : op.cancelled = true) :
    ∃ said, t.ledger.Works (.operation op.id) said (t.endOperation op .cancelled).ledger := by
  have hends : op.Ends 0 .cancelled := .cancelled hc
  exact ⟨_, endOperation_works hop hends⟩

/-- The first change of an operation, when the number of its attempt has been given out. -/
theorem starts_change (hl : t.ledger = { l with lastAttempt := op.task.lastAttempt l.lastAttempt })
    (hop : op ∈ t.view.operations) (hp : op.phase = .unstarted) (h : op.Act op' marks)
    (hattempt : op'.phase.attempt? = some (op.task.attempt l.lastAttempt)) :
    l.Change (.operation op.id) [] (t.ledger.withView ((t.view.replace op').record marks)) := by
  have hview : t.view = l.view := congrArg Ledger.view hl
  have hchange := Ledger.Change.starts (l := l) (hview ▸ hop) hp h hattempt
  rw [hl, hview]
  exact hchange

theorem callDirectly_works
    (hl : t.ledger = { l with lastAttempt := op.task.lastAttempt l.lastAttempt })
    (hop : op ∈ t.view.operations) (hp : op.phase = .unstarted) (hc : op.cancelled = false) :
    ∃ said, l.Works (.operation op.id) said
      (t.callDirectly op (op.task.attempt l.lastAttempt)).ledger := by
  let number := op.task.attempt l.lastAttempt
  have hcall := (starts_change hl hop hp (.call number hp hc) rfl).works
  unfold callDirectly
  dsimp only
  cases op.reply.wait with
  | none =>
    let calling : Operation := { op with phase := .calling number }
    have hdirect : calling.Ends number op.reply.ending := .direct rfl hc
    have hends := Ledger.Change.ends
      (l := t.ledger.withView ((t.view.replace calling).record [.called op.id op.task.call]))
      (View.mem_replace hop rfl) hdirect
    -- what ends is gone, whatever it was replaced by
    have hstrike : (t.mark (.called op.id op.task.call)).ledger.strike op.id op.reply.ending =
        (t.ledger.withView ((t.view.replace calling).record [.called op.id op.task.call])).strike
          calling.id op.reply.ending := by
      simp only [Ledger.strike, ledger_called, Ledger.withView_view, Ledger.withView_withView,
        View.remove_record]
      rw [show calling.id = op.id from rfl, View.remove_replace t.view calling]
    dsimp only
    rw [ledger_settle, hstrike]
    exact ⟨_, (hcall.tail hends).suffer⟩
  | span d => exact ⟨_, by simpa using hcall⟩
  | forever => exact ⟨_, by simpa using hcall⟩

theorem callGuarded_works
    (hl : t.ledger = { l with lastAttempt := op.task.lastAttempt l.lastAttempt })
    (hop : op ∈ t.view.operations) (hp : op.phase = .unstarted) (hc : op.cancelled = false)
    (hlimited : op.task.limited) :
    ∃ said, l.Works (.operation op.id) said
      (t.callGuarded op (op.task.attempt l.lastAttempt)).ledger := by
  have hstarts {op' : Operation} (h : op.Act op' [])
      (hattempt : op'.phase.attempt? = some (op.task.attempt l.lastAttempt)) :
      l.Works (.operation op.id) [] ((t.updateOperation op').enqueue (.call op.id)).ledger := by
    have hchange := starts_change hl hop hp h hattempt
    rw [View.record_nil] at hchange
    simpa using hchange.works
  unfold callGuarded
  split
  · exact ⟨[], hstarts (.skip _ hp hc hlimited) rfl⟩
  · exact ⟨[], hstarts (.guard _ hp hc hlimited) rfl⟩

theorem startOperation_works (hop : op ∈ t.view.operations) (hp : op.phase = .unstarted)
    (hc : op.cancelled = false) :
    ∃ said, t.ledger.Works (.operation op.id) said (t.startOperation op).ledger := by
  unfold startOperation
  cases htask : op.task with
  | subscribe topics =>
    have hworks := callDirectly_works (t := t) (l := t.ledger) (by rw [htask]; rfl) hop hp hc
    rw [htask] at hworks
    exact hworks
  | publish topic qos payload =>
    let t' := { t with lastAttempt := t.nextAttempt }
    have hl : t'.ledger =
        { t.ledger with lastAttempt := op.task.lastAttempt t.ledger.lastAttempt } := by
      rw [htask]
      rfl
    have hnumber : op.task.attempt t.ledger.lastAttempt = t.nextAttempt := by
      rw [htask]
      rfl
    show ∃ said, t.ledger.Works (.operation op.id) said
      (if qos = 0 then t'.callDirectly op t.nextAttempt else t'.callGuarded op t.nextAttempt).ledger
    rw [← hnumber]
    split_ifs with hq
    · exact callDirectly_works hl hop hp hc
    · exact callGuarded_works hl hop hp hc (by simp [htask, Task.limited, hq])

theorem goesOn_works (hop : op ∈ t.view.operations) (hp : op.phase ≠ .unstarted)
    (h : op.Act op' []) :
    t.ledger.Works (.operation op.id) [] (t.ledger.withView (t.view.replace op')) := by
  have hchange := Ledger.Change.goesOn (l := t.ledger) hop hp h
  rw [View.record_nil] at hchange
  exact hchange.works

theorem giveUp_works {call : GuardedCall} {why : GivenUp} (hop : op ∈ t.view.operations)
    (hp : op.phase = .guarding attempt call) (hcall : call.ending = none)
    (hwhy : why = .closing → op.cancelled = true) :
    t.ledger.Works (.operation op.id) [] (t.giveUp op attempt call why).ledger := by
  have h : (t.giveUp op attempt call why).ledger = t.ledger.withView (t.view.replace
      { op with
        phase := .givingUp attempt { call with cancelled := true } why, cancelled := false }) := by
    unfold giveUp cancelCall
    split_ifs <;> simp
  rw [h]
  exact goesOn_works hop (by rw [hp]; nofun) (.giveUp hp hcall hwhy)

theorem mem_of_operation? {id : Nat} (h : t.operation? id = some op) :
    op ∈ t.view.operations ∧ op.id = id :=
  ⟨List.mem_of_find?_eq_some h, by simpa using List.find?_some h⟩

theorem runOperation_works (t : Transport) (id : Nat) :
    ∃ said, t.ledger.Works (.operation id) said (t.runOperation id).ledger := by
  unfold runOperation
  cases hfind : t.operation? id with
  | none => exact ⟨[], .refl⟩
  | some op =>
    obtain ⟨hop, rfl⟩ := mem_of_operation? hfind
    dsimp only
    cases hp : op.phase with
    | unstarted =>
      dsimp only
      split_ifs with hc
      · exact cancelled_works hop hc
      · exact startOperation_works hop hp (by simpa using hc)
    | calling attempt =>
      dsimp only
      split_ifs with hc
      · exact cancelled_works hop hc
      · exact ⟨_, settle_works hop (.direct hp (by simpa using hc))⟩
    | guarding attempt call =>
      dsimp only
      cases he : call.ending with
      | some ending => exact ⟨_, settle_works (t := t.dropTimer _) hop (.guarded hp he)⟩
      | none => exact ⟨_, giveUp_works hop hp he (by split_ifs with hc <;> simp [hc])⟩
    | givingUp attempt call why =>
      dsimp only
      split_ifs with hc
      · rcases Bool.or_eq_true _ _ ▸ hc with hc | hw
        · exact cancelled_works hop hc
        · obtain rfl : why = .closing := by simpa using hw
          exact ⟨_, endOperation_works hop (.closing hp)⟩
      · obtain ⟨hn, hw⟩ : op.cancelled = false ∧ ¬ why = .closing := by simpa using hc
        cases why with
        | closing => exact absurd rfl hw
        | outOfTime => exact ⟨_, settle_works hop (.outOfTime hp hn)⟩

theorem ledger_endCall (op : Operation) (call : GuardedCall) (ending : Ending) :
    (t.endCall op call ending).ledger = (t.ledger.withView (t.view.replace
      { op with
        phase := op.phase.withCall
          { call with progress := .ended, ending := some ending } })).suffer ending true := by
  unfold endCall
  cases ending with
  | failed f =>
    by_cases hk : f.kind = .interrupted
    · simp [hk, ledger_breakDown]
    · simp [hk, suffer_of_ne]
  | returned => simp [Ledger.suffer]
  | cancelled => simp [Ledger.suffer]

theorem ne_unstarted_of_call? {call : GuardedCall} (h : op.phase.call? = some call) :
    op.phase ≠ .unstarted := by
  intro hp
  rw [hp] at h
  cases h

theorem endCall_works {call : GuardedCall} (hop : op ∈ t.view.operations)
    (hp : op.phase.call? = some call) (hg : call.progress = .asleep) :
    t.ledger.Works (.operation op.id) []
      (t.endCall op call (if call.cancelled then .cancelled else op.reply.ending)).ledger := by
  rw [ledger_endCall]
  refine Ledger.Works.suffer (goesOn_works hop (ne_unstarted_of_call? hp) ?_)
  split_ifs with hc
  · exact .callStops hp (by simp [hg]) hc
  · exact .callEnds hp hg (by simpa using hc)

theorem runCall_works (t : Transport) (id : Nat) :
    t.ledger.Works (.operation id) [] (t.runCall id).ledger := by
  unfold runCall
  cases hfind : t.operation? id with
  | none => exact .refl
  | some op =>
    obtain ⟨hop, rfl⟩ := mem_of_operation? hfind
    dsimp only
    cases hp : op.phase.call? with
    | none => exact .refl
    | some call =>
      have hstarted := ne_unstarted_of_call? hp
      dsimp only
      cases hg : call.progress with
      | ended => exact .refl
      | asleep => exact endCall_works hop hp hg
      | unstarted =>
        dsimp only
        split_ifs with hc
        · rw [ledger_endCall]
          exact Ledger.Works.suffer
            (goesOn_works hop hstarted (.callStops hp (by simp [hg]) hc))
        · have hout := (Ledger.Change.goesOn (l := t.ledger) hop hstarted
            (.callOut hp hg (by simpa using hc))).works
          cases op.reply.wait with
          | span d => simpa using hout
          | forever => simpa using hout
          | none =>
            -- the call ends as soon as it has been made
            let asleep : Operation :=
              { op with phase := op.phase.withCall { call with progress := .asleep } }
            have hcall : asleep.phase.call? = some { call with progress := .asleep } :=
              OperationPhase.call?_withCall hp _
            have hends := Ledger.Change.goesOn
              (l := t.ledger.withView ((t.view.replace asleep).record [.called op.id op.task.call]))
              (View.mem_replace hop rfl) (ne_unstarted_of_call? hcall)
              (.callEnds hcall rfl (by simpa using hc))
            rw [ledger_endCall]
            refine Ledger.Works.suffer ?_
            simpa [asleep] using hout.silent_tail hends

end Operations

/-! While the link works its way through its stream, its place in the transport is out of date. So
the lemmas start from the ledger in which the link has all that is still to be passed on. -/

section Link

variable {t : Transport} {link next : Link} {l : Link}

theorem ledger_endLink (l : Link) :
    (t.endLink l).ledger = t.ledger.cut { l with phase := .ended } :=
  ledger_noteEnded _

theorem ledger_failLink (l : Link) (f : Fault) :
    (t.failLink l f).ledger =
      ((t.ledger.cut { l with phase := .ended }).emit (Link.report (.failed f))).suffer
        (.failed f) false := by
  cases hk : f.kind <;>
    simp [failLink, Link.report, hk, ledger_endLink, suffer_of_ne, ledger_breakDown]

theorem cut_works {m : Ledger} {ending : Ending} (hm : m.view.link = some link)
    (h : link.Ends ending) (hl : l.cancelled = link.cancelled) : m.Works .link (Link.report ending)
      ((m.cut { l with phase := .ended }).emit (Link.report ending)) := by
  have hended : ({ l with phase := .ended } : Link).phase = .ended := rfl
  exact (Ledger.Change.cut hm h hended hl).works

theorem failLink_works {f : Fault} (h : link.Ends (.failed f)) (hl : l.cancelled = link.cancelled) :
    (t.ledger.withLink link).Works .link (Link.report (.failed f)) (t.failLink l f).ledger := by
  rw [ledger_failLink]
  exact (cut_works (m := t.ledger.withLink link) rfl h hl).suffer

/-- Something of the stream is passed on; if that ends the stream, it ends the link. -/
theorem receive_works (item : Inbound) (hlink : link.Up) (hnext : next.Up)
    (hahead : link.ahead = item :: next.ahead) (hl : l.cancelled = link.cancelled) :
    ∃ said, (t.ledger.withLink link).Works .link said
      (if (t.receive l item).2 then (t.receive l item).1.ledger.withLink next
        else (t.receive l item).1.ledger) := by
  cases item with
  | message topic payload =>
    have h := (Ledger.Change.message (l := t.ledger.withLink link) rfl hlink hahead hnext).works
    exact ⟨_, by simpa [receive] using h⟩
  | ends =>
    have h := cut_works (m := t.ledger.withLink link) rfl (.closed hlink hahead) hl
    have hcut : ({ t with connected := false } : Transport).ledger.cut { l with phase := .ended } =
        t.ledger.cut { l with phase := .ended } := rfl
    exact ⟨_, by simpa [receive, ledger_endLink, Link.report, hcut] using h⟩
  | fails f => exact ⟨_, failLink_works (.failed hlink hahead) hl⟩

theorem listen_works (l : Link) (items : List Inbound) (hc : l.cancelled = false) :
    ∃ said, (t.ledger.withLink { l with phase := .listening, inbound := items }).Works .link said
      (t.listen l items).ledger := by
  induction items generalizing t with
  | nil => exact ⟨[], .refl⟩
  | cons item rest ih =>
    have hlink : Link.Up { l with phase := .listening, inbound := item :: rest } := ⟨rfl, hc⟩
    have hnext : Link.Up { l with phase := .listening, inbound := rest } := ⟨rfl, hc⟩
    obtain ⟨said, h⟩ := receive_works (t := t) (l := { l with inbound := rest }) item hlink hnext
      rfl rfl
    unfold listen
    cases hr : t.receive { l with inbound := rest } item with
    | mk t' goesOn =>
      rw [hr] at h
      cases goesOn with
      | true =>
        obtain ⟨more, hmore⟩ := ih (t := t')
        exact ⟨_, h.trans hmore⟩
      | false => exact ⟨said, h⟩

theorem follow_works (l : Link) (items : List StreamItem) (hc : l.cancelled = false) :
    ∃ said, (t.ledger.withLink { l with phase := .awaitingItem, stream := items }).Works .link said
      (t.follow l items).ledger := by
  induction items generalizing t with
  | nil =>
    have hlink : Link.Up { l with phase := .awaitingItem, stream := [] } := ⟨rfl, hc⟩
    have hnext : Link.Up { l with phase := .listening, stream := [] } := ⟨rfl, hc⟩
    have hparked := (Ledger.Change.parked
      (l := t.ledger.withLink { l with phase := .awaitingItem, stream := [] })
      rfl hlink hnext rfl).works
    obtain ⟨said, h⟩ := listen_works (t := t) { l with stream := [] } l.inbound hc
    exact ⟨_, hparked.trans h⟩
  | cons item rest ih =>
    have hlink : Link.Up { l with phase := .awaitingItem, stream := item :: rest } := ⟨rfl, hc⟩
    have hnext : Link.Up { l with phase := .awaitingItem, stream := rest } := ⟨rfl, hc⟩
    obtain ⟨said, h⟩ := receive_works (t := t) (l := { l with stream := rest }) item.content hlink
      hnext rfl rfl
    unfold follow
    split_ifs
    · cases hr : t.receive { l with stream := rest } item.content with
      | mk t' goesOn =>
        rw [hr] at h
        cases goesOn with
        | true =>
          obtain ⟨more, hmore⟩ := ih (t := t')
          exact ⟨_, h.trans hmore⟩
        | false => exact ⟨said, h⟩
    · exact ⟨[], .refl⟩

theorem ledger_withLink (hl : t.link = some l) : t.ledger.withLink l = t.ledger := by
  have hview : t.view.withLink l = t.view := by simp only [View.withLink, view, hl]
  rw [Ledger.withLink, ledger_view, hview]
  rfl

theorem entered_works (hl : t.link = some l) (ho : l.phase.opening) (hc : l.cancelled = false) :
    ∃ said, t.ledger.Works .link said (t.entered l).ledger := by
  unfold entered
  cases hf : l.enter.fault with
  | some f =>
    rw [← ledger_withLink hl]
    exact ⟨_, failLink_works (.refused ho hc hf) rfl⟩
  | none =>
    have hahead : { l with phase := .awaitingItem : Link }.ahead = l.ahead := by
      unfold Link.ahead
      revert ho
      cases l.phase <;> simp [LinkPhase.opening]
    have hup : Link.Up { l with phase := .awaitingItem } := ⟨rfl, hc⟩
    have h := (Ledger.Change.established (l := t.ledger) hl ho hc hf hup hahead).works
    obtain ⟨said, hmore⟩ := follow_works
      (t := { t with connected := true }.emit .connectionEstablished) l l.stream hc
    rw [ledger_emit] at hmore
    exact ⟨_, h.trans hmore⟩

theorem startLink_works (hl : t.link = some l) (hp : l.phase = .unstarted)
    (hc : l.cancelled = false) : ∃ said, t.ledger.Works .link said (t.startLink l).ledger := by
  have hconnecting := (Ledger.Change.connecting (l := t.ledger) hl hp hc).works
  unfold startLink
  cases l.enter.wait with
  | none => exact entered_works hl (by rw [hp]; rfl) hc
  | span d => exact ⟨_, hconnecting⟩
  | forever => exact ⟨_, hconnecting⟩

theorem runLink_works (t : Transport) : ∃ said, t.ledger.Works .link said t.runLink.ledger := by
  unfold runLink
  cases hl : t.link with
  | none => exact ⟨[], .refl⟩
  | some l =>
    dsimp only
    split_ifs with hc
    · obtain ⟨hcancelled, hp⟩ : l.cancelled = true ∧ l.phase ≠ .ended := by simpa using hc
      have h := cut_works (m := t.ledger) (l := l) hl (.cancelled hcancelled hp) rfl
      rw [ledger_endLink]
      exact ⟨_, by simpa [Link.report] using h⟩
    · have hc (hne : l.phase ≠ .ended) : l.cancelled = false := by simpa [hne] using hc
      cases hp : l.phase with
      | unstarted => exact startLink_works hl hp (hc (by simp [hp]))
      | connecting => exact entered_works hl (by rw [hp]; rfl) (hc (by simp [hp]))
      | awaitingItem =>
        have h := follow_works (t := t) l l.stream (hc (by simp [hp]))
        rw [← hp] at h
        rwa [← ledger_withLink hl]
      | listening =>
        have h := listen_works (t := t) l l.inbound (hc (by simp [hp]))
        rw [← hp] at h
        rwa [← ledger_withLink hl]
      | ended => exact ⟨[], .refl⟩

end Link

theorem ledger_countEnded (t : Transport) :
    t.countEnded.ledger = { t.ledger with
      closing := t.closing - 1, turns := t.ledger.turns + if t.closing - 1 = 0 then 1 else 0 } := by
  unfold countEnded
  dsimp only
  split_ifs <;> simp [ledger, enqueue, view, history]

/-- Every job of a task is a sequence of single changes. -/
theorem runJob_works (t : Transport) {job : Job} (h : job ≠ .taskEnded) :
    ∃ said, t.ledger.Works job.source said (t.runJob job).ledger := by
  cases job with
  | host => exact ⟨[], .refl⟩
  | link => exact runLink_works t
  | operation id => exact runOperation_works t id
  | call id => exact ⟨[], runCall_works t id⟩
  | callEnded id => exact ⟨[], (ledger_wakeOperation t id).symm ▸ .refl⟩
  | taskEnded => exact absurd rfl h
  | signal name => exact ⟨[], .refl⟩

theorem cut_changes {v : View} {link ended : Link} {ending : Ending} (hl : v.link = some link)
    (h : link.Ends ending) (hp : ended.phase = .ended) :
    v.Changes ((v.cut ended).emit (Link.report ending)) := by
  have hfailed {f : Fault} (hsilent : f.kind.silent → link.phase.opening →
      link.cancelled = true ∨ ∃ f, link.enter.fault = some f ∧ f.kind.silent) :
      v.Changes ((v.cut ended).emit (Link.report (.failed f))) := by
    rcases Link.report_failed f with ⟨hs, hreport⟩ | ⟨-, message, hreport⟩
    · rw [hreport, View.emit_nil]
      exact (View.Change.stopped hl hp (hsilent hs)).changes
    · rw [hreport]
      exact (View.Change.failed message hl hp).changes
  cases h with
  | cancelled hc _ =>
    rw [Link.report, View.emit_nil]
    exact (View.Change.stopped hl hp fun _ => .inl hc).changes
  | refused _ _ hf => exact hfailed fun hs _ => .inr ⟨_, hf, hs⟩
  | closed hup _ => exact (View.Change.closed hl hup.phase hp).changes
  | failed hup _ =>
    refine hfailed fun _ ho => ?_
    have hphase := hup.phase
    revert hphase ho
    cases link.phase <;> simp [LinkPhase.up, LinkPhase.opening]

/-- What is seen of a change from outside. -/
theorem Ledger.Change.view_changes {source : Source} {events : List Event} {l m : Ledger}
    (h : l.Change source events m) : l.view.Changes m.view := by
  cases h with
  | starts hop _ hact _ => exact (View.Change.act hop hact).changes
  | goesOn hop _ hact => exact (View.Change.act hop hact).changes
  | ends hop hends =>
    rw [emit_view, strike_view]
    exact (View.Change.ends hop hends).changes
  | connecting hl hp _ => exact (View.Change.connecting hl hp).changes
  | established hl ho hc hf hup _ =>
    exact (View.Change.established hl ho hc hf hup.phase).changes
  | @message link next topic payload hl hup _ hnext =>
    have hmessage := (View.Change.message topic.text payload.bytes? hl hup.phase).changes
    exact hmessage.tail (.parked hl hup.phase hnext.phase)
  | parked hl hup hnext _ => exact (View.Change.parked hl hup.phase hnext.phase).changes
  | cut hl hends hp _ =>
    rw [emit_view, cut_view]
    exact cut_changes hl hends hp
  | broken _ _ => exact .refl _

theorem Ledger.Works.view_changes {source : Source} {said : List Event} {l m : Ledger}
    (h : l.Works source said m) : l.view.Changes m.view := by
  induction h with
  | refl => exact .refl _
  | tail _ hchange ih => exact ih.trans hchange.view_changes

theorem runJob_changes (t : Transport) (job : Job) : t.view.Changes (t.runJob job).view := by
  by_cases hjob : job = .taskEnded
  · rw [hjob]
    exact (view_countEnded t).symm ▸ .refl _
  · obtain ⟨said, h⟩ := t.runJob_works hjob
    exact h.view_changes

end Transport

end BrokerTrial

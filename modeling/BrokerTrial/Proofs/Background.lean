import BrokerTrial.Proofs.View

/-! Background work, seen from outside. `View.Change` lists the single changes that the link and the
operations can make to the view of a transport. The end of an operation queues what
`Operation.report` says, no more. -/

namespace BrokerTrial

namespace LinkPhase

def opening : LinkPhase → Bool
  | .unstarted | .connecting => true
  | _ => false

def up : LinkPhase → Bool
  | .awaitingItem | .listening => true
  | _ => false

theorem not_opening_of_up {p : LinkPhase} (h : p.up = true) : ¬ p.opening = true := by
  cases p <;> simp_all [up, opening]

theorem not_opening_of_ended {p : LinkPhase} (h : p = .ended) : ¬ p.opening = true := by
  simp [h, opening]

theorem ne_ended_of_up {p : LinkPhase} (h : p.up = true) : p ≠ .ended := by
  rintro rfl
  cases h

end LinkPhase

namespace OperationPhase

@[simp] theorem withCall_withCall (p : OperationPhase) (first second : GuardedCall) :
    (p.withCall first).withCall second = p.withCall second := by
  cases p <;> rfl

theorem call?_withCall {p : OperationPhase} {call : GuardedCall} (h : p.call? = some call)
    (call' : GuardedCall) : (p.withCall call').call? = some call' := by
  cases p <;> first | rfl | simp [call?] at h

end OperationPhase

/-- Faults that end a task without a word of its own. -/
def FaultKind.silent : FaultKind → Bool
  | .cancelled | .interrupted => true
  | _ => false

def Task.publishes : Task → Bool
  | .subscribe _ => false
  | .publish .. => true

def Task.limited : Task → Bool
  | .subscribe _ => false
  | .publish _ qos _ => qos ≠ 0

namespace Operation

def subscribeReport (topics : Subscription) (granted : Suback) : Ending → List Event
  | .returned =>
    match Transport.refusedTopics topics granted with
    | .error _ => []
    | .ok [] => [.subscribed]
    | .ok refused =>
      [.connectionFailed s!"subscribe refused for {Transport.shownTopics refused}"]
  | .cancelled => []
  | .failed f =>
    match f.kind with
    | .mqtt => [.connectionFailed s!"subscribe failed: {f.text}"]
    | .cancelled | .interrupted => []
    | _ => [.connectionFailed s!"subscribe failed: {f.shown}"]

def publishReport (attempt : Int) : Ending → List Event
  | .returned => [.acknowledged]
  | .cancelled => []
  | .failed f =>
    match f.kind with
    | .timeout => [.resendRequested attempt]
    | .mqtt => [.connectionFailed s!"publish failed: {f.text}"]
    | .cancelled | .interrupted => []
    | _ => [.connectionFailed s!"publish failed: {f.shown}"]

def report (op : Operation) (attempt : Int) (ending : Ending) : List Event :=
  match op.task with
  | .subscribe topics => subscribeReport topics op.reply.granted ending
  | .publish .. => publishReport attempt ending

@[simp] theorem report_cancelled (op : Operation) (attempt : Int) :
    op.report attempt .cancelled = [] := by
  unfold report; split <;> rfl

theorem report_of_subscribe {op : Operation} {topics : Subscription}
    (h : op.task = .subscribe topics) (attempt : Int) (ending : Ending) :
    op.report attempt ending = subscribeReport topics op.reply.granted ending := by
  rw [report, h]

theorem report_of_publish {op : Operation} {topic : Value} {qos : Int} {payload : List UInt8}
    (h : op.task = .publish topic qos payload) (attempt : Int) (ending : Ending) :
    op.report attempt ending = publishReport attempt ending := by
  rw [report, h]

theorem subscribeReport_cases (topics : Subscription) (granted : Suback) (ending : Ending) :
    subscribeReport topics granted ending = [] ∨
      ending = .returned ∧ Transport.refusedTopics topics granted = .ok [] ∧
        subscribeReport topics granted ending = [.subscribed] ∨
      ∃ message, subscribeReport topics granted ending = [.connectionFailed message] := by
  cases ending with
  | returned =>
    simp only [subscribeReport]
    cases hr : Transport.refusedTopics topics granted with
    | error m => exact .inl rfl
    | ok refused =>
      cases refused with
      | nil => exact .inr (.inl ⟨trivial, rfl, rfl⟩)
      | cons topic rest => exact .inr (.inr ⟨_, rfl⟩)
  | cancelled => exact .inl rfl
  | failed f =>
    cases hk : f.kind <;> simp [subscribeReport, hk]

theorem publishReport_cases (attempt : Int) (ending : Ending) :
    publishReport attempt ending = [] ∨
      ending = .returned ∧ publishReport attempt ending = [.acknowledged] ∨
      (∃ message, ending = .failed ⟨.timeout, message⟩ ∧
        publishReport attempt ending = [.resendRequested attempt]) ∨
      ∃ message, publishReport attempt ending = [.connectionFailed message] := by
  cases ending with
  | returned => exact .inr (.inl ⟨rfl, rfl⟩)
  | cancelled => exact .inl rfl
  | failed f =>
    obtain ⟨kind, message⟩ := f
    cases kind <;> simp [publishReport]

/-- What an operation does on its way, with the calls that it makes. -/
inductive Act (op : Operation) : Operation → List Mark → Prop
  | call (attempt : Int) : op.phase = .unstarted → op.cancelled = false →
      Act op { op with phase := .calling attempt } [.called op.id op.task.call]
  | guard (attempt : Int) : op.phase = .unstarted → op.cancelled = false → op.task.limited →
      Act op { op with phase := .guarding attempt {} } []
  | skip (attempt : Int) : op.phase = .unstarted → op.cancelled = false → op.task.limited →
      Act op { op with phase := .givingUp attempt { cancelled := true } .outOfTime } []
  | callOut {call : GuardedCall} : op.phase.call? = some call → call.progress = .unstarted →
      call.cancelled = false →
      Act op { op with phase := op.phase.withCall { call with progress := .asleep } }
        [.called op.id op.task.call]
  | callEnds {call : GuardedCall} : op.phase.call? = some call → call.progress = .asleep →
      call.cancelled = false →
      Act op { op with
        phase := op.phase.withCall
          { call with progress := .ended, ending := some op.reply.ending } } []
  | callStops {call : GuardedCall} : op.phase.call? = some call → call.progress ≠ .ended →
      call.cancelled = true →
      Act op { op with
        phase := op.phase.withCall { call with progress := .ended, ending := some .cancelled } } []
  | giveUp {attempt : Int} {call : GuardedCall} {why : GivenUp} :
      op.phase = .guarding attempt call → call.ending = none →
      (why = .closing → op.cancelled = true) →
      Act op { op with
        phase := .givingUp attempt { call with cancelled := true } why, cancelled := false } []

inductive Ends (op : Operation) (attempt : Int) : Ending → Prop
  | cancelled : op.cancelled = true → Ends op attempt .cancelled
  | direct : op.phase = .calling attempt → op.cancelled = false → Ends op attempt op.reply.ending
  | guarded {call : GuardedCall} {ending : Ending} : op.phase = .guarding attempt call →
      call.ending = some ending → Ends op attempt ending
  | closing {call : GuardedCall} : op.phase = .givingUp attempt call .closing →
      Ends op attempt .cancelled
  | outOfTime {call : GuardedCall} : op.phase = .givingUp attempt call .outOfTime →
      op.cancelled = false → Ends op attempt (.failed ⟨.timeout, none⟩)

theorem Act.id_eq {op op' : Operation} {marks : List Mark} (h : op.Act op' marks) :
    op'.id = op.id := by cases h <;> rfl

theorem Act.task_eq {op op' : Operation} {marks : List Mark} (h : op.Act op' marks) :
    op'.task = op.task := by cases h <;> rfl

theorem Act.reply_eq {op op' : Operation} {marks : List Mark} (h : op.Act op' marks) :
    op'.reply = op.reply := by cases h <;> rfl

theorem Act.call_eq {op op' : Operation} {marks : List Mark} (h : op.Act op' marks) {id : Nat}
    {call : ClientCall} (hm : .called id call ∈ marks) : call = op.task.call := by
  cases h <;> simp_all

/-- Unless it has been told to stop, an operation does not give up before its time, and what it
learns of its call is how the client ends it. -/
structure Faithful (op : Operation) (told : Prop) : Prop where
  cancelled : op.cancelled = true → told
  guarding : ∀ attempt call, op.phase = .guarding attempt call →
    call.cancelled = false ∧ ∀ ending, call.ending = some ending → ending = op.reply.ending
  givingUp : ∀ attempt call why, op.phase = .givingUp attempt call why → why = .closing → told

/-- Only a task with a limit makes its call in a task of its own. -/
def Limited (op : Operation) : Prop := op.phase.call?.isSome → op.task.limited

section

variable {op op' : Operation} {marks : List Mark} {told : Prop}

theorem faithful_fresh (id : Nat) (task : Task) (reply : Reply) (told : Prop) :
    ({ id, task, reply } : Operation).Faithful told := by
  constructor
  · rintro ⟨⟩
  · rintro _ _ ⟨⟩
  · rintro _ _ _ ⟨⟩

theorem Faithful.withCall (h : op.Faithful told) {call call' : GuardedCall}
    (hp : op.phase.call? = some call)
    (hcall : call.cancelled = false → (∀ ending, call.ending = some ending →
        ending = op.reply.ending) →
      call'.cancelled = false ∧ ∀ ending, call'.ending = some ending → ending = op.reply.ending) :
    Faithful { op with phase := op.phase.withCall call' } told := by
  refine ⟨h.cancelled, ?_, ?_⟩
  · intro attempt c hphase
    cases hop : op.phase with
    | guarding a c' =>
      rw [hop] at hp
      obtain rfl := Option.some.inj hp
      have hc : OperationPhase.guarding a call' = .guarding attempt c := by
        simpa [hop, OperationPhase.withCall] using hphase
      cases hc
      obtain ⟨hcancelled, hending⟩ := h.guarding _ _ hop
      exact hcall hcancelled hending
    | _ => simp [hop, OperationPhase.withCall] at hphase
  · intro attempt c why hphase
    cases hop : op.phase with
    | givingUp a c' w =>
      have hw : OperationPhase.givingUp a call' w = .givingUp attempt c why := by
        simpa [hop, OperationPhase.withCall] using hphase
      cases hw
      exact h.givingUp _ c' _ hop
    | _ => simp [hop, OperationPhase.withCall] at hphase

theorem Faithful.act (h : op.Faithful told) (ha : op.Act op' marks) : op'.Faithful told := by
  cases ha with
  | call attempt _ _ =>
    constructor
    · exact h.cancelled
    · rintro _ _ ⟨⟩
    · rintro _ _ _ ⟨⟩
  | guard attempt _ _ _ =>
    constructor
    · exact h.cancelled
    · rintro _ _ ⟨⟩
      exact ⟨rfl, nofun⟩
    · rintro _ _ _ ⟨⟩
  | skip attempt _ _ _ =>
    constructor
    · exact h.cancelled
    · rintro _ _ ⟨⟩
    · rintro _ _ _ ⟨⟩ ⟨⟩
  | callOut hp _ _ => exact h.withCall hp fun hcancelled hending => ⟨hcancelled, hending⟩
  | callEnds hp _ _ =>
    refine h.withCall hp fun hcancelled _ => ⟨hcancelled, ?_⟩
    rintro _ ⟨⟩
    rfl
  | callStops hp _ hc =>
    exact h.withCall hp fun hcancelled _ => absurd (hc.symm.trans hcancelled) nofun
  | giveUp hp hn hwhy =>
    constructor
    · rintro ⟨⟩
    · rintro _ _ ⟨⟩
    · rintro _ _ _ ⟨⟩ hclosing
      exact h.cancelled (hwhy hclosing)

/-- An operation ends as its client does, runs out of time, or was told to stop. -/
theorem Faithful.ends (h : op.Faithful told) {attempt : Int} {ending : Ending}
    (he : op.Ends attempt ending) :
    ending = op.reply.ending ∨
      op.phase.call?.isSome ∧ ending = .failed ⟨.timeout, none⟩ ∨ told ∧ ending = .cancelled := by
  cases he with
  | cancelled hc => exact .inr (.inr ⟨h.cancelled hc, rfl⟩)
  | direct _ _ => exact .inl rfl
  | guarded hp hcall => exact .inl ((h.guarding _ _ hp).2 _ hcall)
  | closing hp => exact .inr (.inr ⟨h.givingUp _ _ _ hp rfl, rfl⟩)
  | outOfTime hp _ => exact .inr (.inl ⟨by rw [hp]; rfl, rfl⟩)

theorem Faithful.mono {told' : Prop} (h : op.Faithful told) (ht : told → told') :
    op.Faithful told' :=
  ⟨fun hc => ht (h.cancelled hc), h.guarding, fun a c w hp hw => ht (h.givingUp a c w hp hw)⟩

theorem Limited.act (h : op.Limited) (ha : op.Act op' marks) : op'.Limited := by
  have hkeeps {call : GuardedCall} (hp : op.phase.call? = some call) : op.task.limited :=
    h (Option.isSome_of_eq_some hp)
  cases ha with
  | call attempt _ _ => exact nofun
  | guard attempt _ _ hl => exact fun _ => hl
  | skip attempt _ _ hl => exact fun _ => hl
  | callOut hp _ _ => exact fun _ => hkeeps hp
  | callEnds hp _ _ => exact fun _ => hkeeps hp
  | callStops hp _ _ => exact fun _ => hkeeps hp
  | giveUp hp _ _ => exact fun _ => hkeeps (by rw [hp]; rfl)

end

end Operation

namespace Transport

/-- The single changes that background work makes to the view of a transport. -/
inductive View.Change (v : View) : View → Prop
  | act {op op' : Operation} {marks : List Mark} : op ∈ v.operations → op.Act op' marks →
      Change v ((v.replace op').record marks)
  | ends {op : Operation} {attempt : Int} {ending : Ending} : op ∈ v.operations →
      op.Ends attempt ending →
      Change v (((v.remove op.id).record [.ended op.id ending]).emit (op.report attempt ending))
  | connecting {l : Link} : v.link = some l → l.phase = .unstarted →
      Change v (v.withLink { l with phase := .connecting })
  | established {l l' : Link} : v.link = some l → l.phase.opening → l.cancelled = false →
      l.enter.fault = none → l'.phase.up →
      Change v ({ v.withLink l' with connected := true }.emit [.connectionEstablished])
  | message {l : Link} (topic : String) (payload : Option (List UInt8)) : v.link = some l →
      l.phase.up → Change v (v.emit [.messageReceived topic payload])
  | parked {l l' : Link} : v.link = some l → l.phase.up → l'.phase.up →
      Change v (v.withLink l')
  | failed {l l' : Link} (message : String) : v.link = some l → l'.phase = .ended →
      Change v ((v.cut l').emit [.connectionFailed message])
  | closed {l l' : Link} : v.link = some l → l.phase.up → l'.phase = .ended →
      Change v ((v.cut l').emit [.connectionClosed])
  /-- The link ends and reports nothing. -/
  | stopped {l l' : Link} : v.link = some l → l'.phase = .ended →
      (l.phase.opening → l.cancelled = true ∨ ∃ f, l.enter.fault = some f ∧ f.kind.silent) →
      Change v (v.cut l')

def View.Changes : View → View → Prop := Relation.ReflTransGen View.Change

@[refl] theorem View.Changes.refl (v : View) : v.Changes v := Relation.ReflTransGen.refl

theorem View.Change.changes {v w : View} (h : v.Change w) : v.Changes w := .single h

end Transport

end BrokerTrial

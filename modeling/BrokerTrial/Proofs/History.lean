import BrokerTrial.Proofs.Refusal
import BrokerTrial.Proofs.Turn

/-! Histories of a workflow. What a session has behind it fixes what its client was asked for and
how that ended (`Past`), so the calls of a client come in one order (`callsBehind_prefix`); how far
an operation has come fixes what has happened since it was started (`Operation.Traced`). -/

namespace BrokerTrial

namespace Mark

def call? : Mark → Option ClientCall
  | .called _ call => some call
  | _ => none

def calls (marks : List Mark) : List ClientCall := marks.filterMap call?

@[simp] theorem calls_nil : calls [] = [] := rfl

@[simp] theorem calls_append (first rest : List Mark) :
    calls (first ++ rest) = calls first ++ calls rest := List.filterMap_append

@[simp] theorem calls_called (id : Nat) (call : ClientCall) (rest : List Mark) :
    calls (.called id call :: rest) = call :: calls rest := rfl

@[simp] theorem calls_ended (id : Nat) (ending : Ending) (rest : List Mark) :
    calls (.ended id ending :: rest) = calls rest := rfl

def exchange (id : Nat) (call : ClientCall) (ending : Ending) : List Mark :=
  [.called id call, .ended id ending]

@[simp] theorem calls_exchange (id : Nat) (call : ClientCall) (ending : Ending) :
    calls (exchange id call ending) = [call] := rfl

end Mark

open Mark (calls exchange)

/-- The task ended in a timeout; with a limit, even before its call was made. -/
inductive Task.TimedOut (task : Task) : List Mark → Prop
  | called (id : Nat) (message : Option String) :
      TimedOut task (exchange id task.call (.failed ⟨.timeout, message⟩))
  | uncalled (id : Nat) : task.limited → TimedOut task [.ended id (.failed ⟨.timeout, none⟩)]

namespace Session.Plan

def subscription (plan : Plan) : Task := .subscribe plan.topics

def publication (plan : Plan) (qos : Int) : Task :=
  .publish plan.publishTopic qos plan.chunker.payload

theorem awaited_of_subscribing (plan : Plan) {s : Session} (hs : s.stage = .subscribe)
    (hp : s.subscribePending = true) : s.awaited? plan = some plan.subscription := by
  simp [Session.awaited?, hs, hp, subscription]

theorem awaited_of_waitAck0 (plan : Plan) {s : Session} (hs : s.stage = .waitAck0) :
    s.awaited? plan = some (plan.publication 0) := by
  simp [Session.awaited?, hs, publication]

theorem awaited_of_waitAck1 (plan : Plan) {s : Session} (hs : s.stage = .waitAck1) :
    s.awaited? plan = some (plan.publication 1) := by
  simp [Session.awaited?, hs, publication]

inductive TimedOuts (plan : Plan) : Nat → List Mark → Prop
  | nil : TimedOuts plan 0 []
  | snoc {n : Nat} {first last : List Mark} : TimedOuts plan n first →
      (plan.publication 1).TimedOut last → TimedOuts plan (n + 1) (first ++ last)

/-- What lies behind a session in some stage: the history, and how many attempts timed out. -/
inductive Past (plan : Plan) (granted : Suback) : Stage → Nat → List Mark → Prop
  | begun : Past plan granted .subscribe 0 []
  | subscribed (id : Nat) : plan.topics.Granted granted →
      Past plan granted .publishQos0 0 (exchange id plan.subscription.call .returned)
  | firstWritten {n : Nat} {past : List Mark} : Past plan granted .publishQos0 n past →
      Past plan granted .waitAck0 n past
  | firstAcknowledged {n : Nat} {past : List Mark} (id : Nat) : Past plan granted .waitAck0 n past →
      Past plan granted .publishQos1 0 (past ++ exchange id (plan.publication 0).call .returned)
  | secondWritten {n : Nat} {past : List Mark} : Past plan granted .publishQos1 n past →
      Past plan granted .waitAck1 n past
  | timedOut {n : Nat} {past last : List Mark} : Past plan granted .waitAck1 n past →
      (plan.publication 1).TimedOut last → ((n + 1 : Nat) : Int) < plan.limit.cap →
      Past plan granted .publishQos1 (n + 1) (past ++ last)
  | finished {n : Nat} {past : List Mark} (id : Nat) : Past plan granted .waitAck1 n past →
      Past plan granted .finish n (past ++ exchange id (plan.publication 1).call .returned)

/-- The calls of a client in the order of the workflow, with as many publishes at QoS 1 as the limit
allows. -/
def callOrder (plan : Plan) : List ClientCall :=
  plan.subscription.call :: (plan.publication 0).call ::
    List.replicate plan.limit.cap.toNat (plan.publication 1).call

/-- The calls that lie behind a stage, if a publish at QoS 1 was called `k` times in vain. -/
def callsBehind (plan : Plan) (k : Nat) : Stage → List ClientCall
  | .subscribe => []
  | .publishQos0 | .waitAck0 => [plan.subscription.call]
  | .publishQos1 | .waitAck1 =>
    plan.subscription.call :: (plan.publication 0).call ::
      List.replicate k (plan.publication 1).call
  | .finish =>
    plan.subscription.call :: (plan.publication 0).call ::
      List.replicate (k + 1) (plan.publication 1).call

variable {plan : Plan} {granted : Suback} {stage : Stage} {n : Nat} {past : List Mark}

theorem Past.lt_cap (h : Past plan granted stage n past) : (n : Int) < plan.limit.cap := by
  have hpos : ((0 : Nat) : Int) < plan.limit.cap := plan.limit.cap_pos
  induction h with
  | begun => exact hpos
  | subscribed id hg => exact hpos
  | firstWritten _ ih => exact ih
  | firstAcknowledged id _ _ => exact hpos
  | secondWritten _ ih => exact ih
  | timedOut _ _ hlt _ => exact hlt
  | finished id _ ih => exact ih

theorem calls_of_timedOut {task : Task} {marks : List Mark} (h : task.TimedOut marks) :
    Mark.calls marks = [task.call] ∨ Mark.calls marks = [] := by
  cases h with
  | called id message => exact .inl rfl
  | uncalled id _ => exact .inr rfl

theorem Past.calls_eq (h : Past plan granted stage n past) :
    ∃ k ≤ n, Mark.calls past = plan.callsBehind k stage := by
  induction h with
  | begun => exact ⟨0, le_rfl, rfl⟩
  | subscribed id hg => exact ⟨0, le_rfl, rfl⟩
  | firstWritten _ ih => exact ih
  | firstAcknowledged id _ ih =>
    obtain ⟨k, -, hk⟩ := ih
    refine ⟨0, le_rfl, ?_⟩
    rw [Mark.calls_append, hk]
    rfl
  | secondWritten _ ih => exact ih
  | timedOut _ hlast _ ih =>
    obtain ⟨k, hkn, hk⟩ := ih
    rcases calls_of_timedOut hlast with hcalled | hnone
    · refine ⟨k + 1, by omega, ?_⟩
      rw [Mark.calls_append, hk, hcalled]
      simp [callsBehind, List.replicate_succ']
    · refine ⟨k, by omega, ?_⟩
      rw [Mark.calls_append, hk, hnone, List.append_nil]
      rfl
  | finished id _ ih =>
    obtain ⟨k, hkn, hk⟩ := ih
    refine ⟨k, hkn, ?_⟩
    rw [Mark.calls_append, hk]
    simp [callsBehind, List.replicate_succ']

theorem publishes_prefix {k : Nat} (hk : (k : Int) ≤ plan.limit.cap) :
    plan.subscription.call :: (plan.publication 0).call ::
      List.replicate k (plan.publication 1).call <+: plan.callOrder := by
  have hcap : k ≤ plan.limit.cap.toNat := by omega
  refine (List.prefix_append_right_inj [plan.subscription.call, (plan.publication 0).call]).2 ?_
  exact List.prefix_replicate_iff.2 ⟨by simpa using hcap, by simp⟩

theorem callsBehind_prefix {k : Nat} (hk : (k : Int) < plan.limit.cap) (stage : Stage) :
    plan.callsBehind k stage <+: plan.callOrder := by
  cases stage with
  | subscribe => exact List.nil_prefix
  | publishQos0 => exact ⟨_, rfl⟩
  | waitAck0 => exact ⟨_, rfl⟩
  | publishQos1 => exact publishes_prefix hk.le
  | waitAck1 => exact publishes_prefix hk.le
  | finish => exact publishes_prefix (by omega)

/-- The call that the session waits for is the next one in the order. -/
theorem callsBehind_append_prefix {k : Nat} (hk : (k : Int) < plan.limit.cap) {s : Session}
    {task : Task} (h : s.awaited? plan = some task) :
    plan.callsBehind k s.stage ++ [task.call] <+: plan.callOrder := by
  unfold Session.awaited? at h
  split at h
  · rename_i hs
    split_ifs at h
    obtain rfl := Option.some.inj h
    rw [hs]
    exact ⟨_, rfl⟩
  · rename_i hs
    obtain rfl := Option.some.inj h
    rw [hs]
    exact ⟨_, rfl⟩
  · rename_i hs
    obtain rfl := Option.some.inj h
    rw [hs, callsBehind, List.cons_append, List.cons_append]
    have hnext : plan.subscription.call :: (plan.publication 0).call ::
        List.replicate (k + 1) (plan.publication 1).call <+: plan.callOrder :=
      publishes_prefix (by omega)
    rwa [List.replicate_succ'] at hnext
  · cases h

theorem Past.behind_subscription (h : Past plan granted stage n past)
    (hs : stage = .publishQos0 ∨ stage = .waitAck0) :
    plan.topics.Granted granted ∧ ∃ id, past = exchange id plan.subscription.call .returned := by
  induction h with
  | subscribed id hg => exact ⟨hg, id, rfl⟩
  | firstWritten _ ih => exact ih (.inl rfl)
  | _ => simp at hs

theorem Past.behind_first (h : Past plan granted stage n past)
    (hs : stage = .publishQos1 ∨ stage = .waitAck1) :
    plan.topics.Granted granted ∧ ∃ i j resent, plan.TimedOuts n resent ∧
      past = exchange i plan.subscription.call .returned ++
        exchange j (plan.publication 0).call .returned ++ resent := by
  induction h with
  | firstAcknowledged j hp _ =>
    obtain ⟨hg, i, rfl⟩ := hp.behind_subscription (.inr rfl)
    exact ⟨hg, i, j, [], .nil, by rw [List.append_nil]⟩
  | secondWritten _ ih => exact ih (.inl rfl)
  | timedOut _ hlast _ ih =>
    obtain ⟨hg, i, j, resent, hresent, rfl⟩ := ih (.inr rfl)
    exact ⟨hg, i, j, _, hresent.snoc hlast, List.append_assoc _ _ _⟩
  | _ => simp at hs

theorem Past.behind_second (h : Past plan granted .finish n past) :
    plan.topics.Granted granted ∧ ∃ i j k resent, plan.TimedOuts n resent ∧
      past = exchange i plan.subscription.call .returned ++
        exchange j (plan.publication 0).call .returned ++ resent ++
        exchange k (plan.publication 1).call .returned := by
  cases h with
  | finished k hp =>
    obtain ⟨hg, i, j, resent, hresent, rfl⟩ := hp.behind_first (.inr rfl)
    exact ⟨hg, i, j, k, resent, hresent, rfl⟩

end Session.Plan

/-- How far a guarded call has come, by what has happened since its operation was started. -/
structure GuardedCall.Traced (call : GuardedCall) (made : Mark) (now : List Mark) : Prop where
  unstarted : call.progress = .unstarted → now = []
  asleep : call.progress = .asleep → now = [made]
  ended : now = [made] ∨ now = [] ∧ ∀ ending, call.ending = some ending → ending = .cancelled

namespace Operation

variable {op op' : Operation} {now : List Mark}

def Traced (op : Operation) (now : List Mark) : Prop :=
  match op.phase with
  | .unstarted => now = []
  | .calling _ => now = [.called op.id op.task.call]
  | .guarding _ call | .givingUp _ call _ =>
    op.task.limited ∧ call.Traced (.called op.id op.task.call) now

theorem traced_iff_of_call? {call : GuardedCall} (h : op.phase.call? = some call) :
    op.Traced now ↔ op.task.limited ∧ call.Traced (.called op.id op.task.call) now := by
  unfold Traced
  cases hp : op.phase <;> simp_all [OperationPhase.call?]

theorem Traced.withCall {call call' : GuardedCall} (h : op.phase.call? = some call)
    (hl : op.task.limited) (ht : call'.Traced (.called op.id op.task.call) now) :
    Traced { op with phase := op.phase.withCall call' } now := by
  let next : Operation := { op with phase := op.phase.withCall call' }
  have hnext : next.phase.call? = some call' := OperationPhase.call?_withCall h call'
  exact (traced_iff_of_call? hnext).2 ⟨hl, ht⟩

theorem Traced.act (h : op.Traced now) {marks : List Mark} (ha : op.Act op' marks) :
    op'.Traced (now ++ marks) := by
  cases ha with
  | call attempt hp _ =>
    rw [Traced, hp] at h
    rw [h]
    rfl
  | guard attempt hp _ hl =>
    rw [Traced, hp] at h
    rw [h]
    exact ⟨hl, fun _ => rfl, nofun, .inr ⟨rfl, nofun⟩⟩
  | skip attempt hp _ hl =>
    rw [Traced, hp] at h
    rw [h]
    exact ⟨hl, fun _ => rfl, nofun, .inr ⟨rfl, nofun⟩⟩
  | callOut hp hg _ =>
    obtain ⟨hl, ht⟩ := (traced_iff_of_call? hp).1 h
    rw [ht.unstarted hg]
    exact Traced.withCall hp hl ⟨nofun, fun _ => rfl, .inl rfl⟩
  | callEnds hp hg _ =>
    obtain ⟨hl, ht⟩ := (traced_iff_of_call? hp).1 h
    rw [ht.asleep hg]
    exact Traced.withCall hp hl ⟨nofun, nofun, .inl rfl⟩
  | callStops hp hg _ =>
    obtain ⟨hl, ht⟩ := (traced_iff_of_call? hp).1 h
    rw [List.append_nil]
    refine Traced.withCall hp hl ⟨nofun, nofun, ?_⟩
    rcases ht.ended with hmade | ⟨hnone, -⟩
    · exact .inl hmade
    · exact .inr ⟨hnone, fun ending he => (Option.some.inj he).symm⟩
  | giveUp hp hcall _ =>
    rw [Traced, hp] at h
    obtain ⟨hl, ht⟩ := h
    rw [List.append_nil]
    exact ⟨hl, ht.unstarted, ht.asleep, ht.ended⟩

theorem Traced.ends (h : op.Traced now) {attempt : Int} {ending : Ending}
    (he : op.Ends attempt ending) :
    (ending = .returned →
      now ++ [.ended op.id ending] = exchange op.id op.task.call .returned) ∧
    (∀ message, ending = .failed ⟨.timeout, message⟩ →
      op.task.TimedOut (now ++ [.ended op.id ending])) := by
  have hmade (hnow : now = [.called op.id op.task.call]) :
      (ending = .returned →
        now ++ [.ended op.id ending] = exchange op.id op.task.call .returned) ∧
      (∀ message, ending = .failed ⟨.timeout, message⟩ →
        op.task.TimedOut (now ++ [.ended op.id ending])) := by
    subst hnow
    refine ⟨?_, ?_⟩
    · rintro rfl
      rfl
    · rintro message rfl
      exact .called op.id message
  cases he with
  | cancelled _ => exact ⟨nofun, nofun⟩
  | closing _ => exact ⟨nofun, nofun⟩
  | direct hp _ =>
    rw [Traced, hp] at h
    exact hmade h
  | guarded hp hcall =>
    rw [Traced, hp] at h
    rcases h.2.ended with hnow | ⟨-, hcancelled⟩
    · exact hmade hnow
    · obtain rfl := hcancelled _ hcall
      exact ⟨nofun, nofun⟩
  | outOfTime hp _ =>
    rw [Traced, hp] at h
    rcases h.2.ended with hnow | ⟨rfl, -⟩
    · exact hmade hnow
    · refine ⟨nofun, ?_⟩
      intro message hmessage
      exact .uncalled op.id h.1

theorem Traced.calls_eq (h : op.Traced now) : calls now = [] ∨ calls now = [op.task.call] := by
  unfold Traced at h
  split at h
  · exact .inl (by rw [h]; rfl)
  · exact .inr (by rw [h]; rfl)
  all_goals
    rcases h.2.ended with hnow | ⟨hnow, -⟩
    · exact .inr (by rw [hnow]; rfl)
    · exact .inl (by rw [hnow]; rfl)

end Operation

end BrokerTrial

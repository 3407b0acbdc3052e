import BrokerTrial.Proofs.Finality
import BrokerTrial.Proofs.Writing

/-! How far a session keeps to its workflow by itself. An acknowledgement moves it on from whatever
stage it is in, so one that comes out of turn skips the rest of that stage: the session then
publishes without a subscription, or takes for a success what was never written. `enforced_iff` says
that it keeps to the workflow exactly when it does not owe one of its steps to such an
acknowledgement alone. -/

namespace BrokerTrial

def Stage.awaitsAck : Stage → Bool
  | .waitAck0 | .waitAck1 => true
  | _ => false

theorem Stage.rank_of_publishQos {stage : Stage} {qos : Int}
    (h : stage.publishQos? = some qos) : stage.rank = if qos = 0 then 1 else 3 := by
  cases stage <;> cases h <;> rfl

theorem Stage.eq_or_rank_lt_of_next {stage old new : Stage}
    (hn : old.next? .advance = some new) (hlt : stage.rank < new.rank) :
    old = stage ∨ stage.rank < old.rank := by
  revert hlt
  cases old <;> cases hn <;> cases stage <;> decide

namespace Session

namespace Step

def Subscribes (m : Step) : Prop := ∃ topics, .subscribe topics ∈ m.accepted

/-- The broker confirms the subscription that the session waits for. -/
structure Confirms (m : Step) : Prop where
  input_eq : ∃ accepts, m.input = .event .subscribed accepts
  before_eq : m.before.session.stage = .subscribe
  pending : m.before.session.subscribePending = true
  after_eq : m.after.session.stage = .publishQos0

/-- The session asks for a publish, whether it is accepted or not. -/
def Publishes (m : Step) : Prop := ∃ p data, .publish p data ∈ m.requests

/-- An acknowledgement, if it is one, that the session waits for or does not heed any more. -/
def InTurn (m : Step) : Prop :=
  m.input.acknowledges = true → m.before.terminated = false →
    m.before.session.stage.awaitsAck = true

instance (m : Step) : Decidable m.InTurn := inferInstanceAs (Decidable (_ → _ → _))

theorem Confirms.earns {m : Step} (h : m.Confirms) : m.Earns .subscribe := by
  obtain ⟨accepts, hinput⟩ := h.input_eq
  refine ⟨h.before_eq, ?_, ?_⟩
  · rw [h.after_eq]
    exact nofun
  · rw [hinput]
    rfl

end Step

def Confirmed (course : List Step) : Prop :=
  ∃ u v, List.Sublist [u, v] course ∧ u.Subscribes ∧ v.Confirms

/-- Nothing is published before the subscription is confirmed. -/
def SubscribedFirst (course : List Step) : Prop :=
  ∀ past m, past ++ [m] <+: course → m.Publishes → Confirmed past

/-- A copy of the payload, in its chunks, was accepted at QoS 0, and one at QoS 1 afterwards. -/
def Copied (plan : Plan) (course : List Step) : Prop :=
  ∃ first rest, course = first ++ rest ∧
    plan.chunker.chunks <:+: chunksAt 0 first ∧ plan.chunker.chunks <:+: chunksAt 1 rest

structure Enforced (plan : Plan) (course : List Step) (s : Standing) : Prop where
  subscribed : SubscribedFirst course
  copied : s.verdict.outcome = .success → Copied plan course

theorem Confirmed.earned {course : List Step} (h : Confirmed course) :
    Earned .subscribe course := by
  obtain ⟨u, v, hsub, -, hv⟩ := h
  exact ⟨v, hsub.subset (by simp), hv.earns⟩

theorem Confirmed.append {past : List Step} (h : Confirmed past) (rest : List Step) :
    Confirmed (past ++ rest) := by
  obtain ⟨u, v, hsub, hu, hv⟩ := h
  exact ⟨u, v, hsub.trans (List.sublist_append_left _ _), hu, hv⟩

theorem Confirmed.concat {course : List Step} {u v : Step} (hmem : u ∈ course)
    (hu : u.Subscribes) (hv : v.Confirms) : Confirmed (course ++ [v]) :=
  ⟨u, v, (List.singleton_sublist.2 hmem).append (List.Sublist.refl [v]), hu, hv⟩

theorem subscribedFirst_concat {course : List Step} {m : Step} (h : SubscribedFirst course)
    (hm : m.Publishes → Confirmed course) : SubscribedFirst (course ++ [m]) := by
  intro past n hpast hpublishes
  rcases List.prefix_concat_iff.1 hpast with heq | hold
  · obtain ⟨rfl, hn⟩ := List.append_inj' heq rfl
    rw [List.singleton_inj] at hn
    exact hm (hn ▸ hpublishes)
  · exact h past n hold hpublishes

theorem SubscribedFirst.earned {course : List Step} (h : SubscribedFirst course)
    (hpublished : ∃ m ∈ course, m.Publishes) : Earned .subscribe course := by
  obtain ⟨m, hmem, hm⟩ := hpublished
  obtain ⟨past, rest, rfl⟩ := List.append_of_mem hmem
  have hpast : Confirmed past := h past m ⟨rest, by simp⟩ hm
  exact (hpast.append _).earned

section Steps

variable {plan : Plan} {s s' : Standing} {i : Input} {requests : List Request}

theorem Does.publishQos_of_mem (hd : Does plan s i s' requests) {p : Publication}
    {data : List UInt8} (hmem : .publish p data ∈ requests) :
    s.session.stage.publishQos? = some p.qos := by
  cases hd with
  | raises _ => cases hmem
  | interrupted => cases hmem
  | reacts hr =>
    obtain ⟨qos, chunk, hq, -, -, rfl⟩ := hr.publish_of_mem hmem
    exact hq

theorem Does.chunks_eq_nil (hd : Does plan s i s' requests) {qos : Int}
    (hq : s.session.stage.publishQos? ≠ some qos) :
    (Step.mk s i s' requests).chunks qos = [] := by
  refine Step.chunks_eq_nil fun r hr => ?_
  cases r with
  | publish p data =>
    have hqos : p.qos ≠ qos := by
      rintro rfl
      exact hq (hd.publishQos_of_mem hr)
    simp [Request.chunk?, hqos]
  | _ => rfl

/-- Only a confirmation earns the way out of the first stage. -/
theorem Does.confirms (hd : Does plan s i s' requests)
    (h : (Step.mk s i s' requests).Earns .subscribe) :
    (Step.mk s i s' requests).Confirms := by
  obtain ⟨hs, hs', hack⟩ := h
  dsimp only at hs hs' hack
  cases hd with
  | raises _ => exact absurd hs hs'
  | interrupted => exact absurd hs hs'
  | reacts hr =>
    cases hr with
    | confirmed _ _ hp => exact ⟨⟨_, rfl⟩, hs, hp, rfl⟩
    | completes _ hq _ _ _ _ => exact absurd hs (Stage.ne_subscribe_of_publishQos hq)
    | acknowledged _ _ _ => cases hack
    | skipped _ _ _ _ => cases hack
    | finished _ _ => cases hack
    | resends _ hstage _ => cases hs.symm.trans hstage
    | _ => exact absurd hs hs'

theorem Does.subscribes_of_pending (hd : Does plan s i s' requests)
    (hs' : s'.session.stage = .subscribe) (hp' : s'.session.subscribePending = true) :
    s.session.stage = .subscribe ∧
      (s.session.subscribePending = true ∨ (Step.mk s i s' requests).Subscribes) := by
  cases hd with
  | raises _ => exact ⟨hs', .inl hp'⟩
  | interrupted => exact ⟨hs', .inl hp'⟩
  | reacts hr =>
    cases hr with
    | subscribes _ hs _ ha =>
      refine ⟨hs, .inr ⟨plan.topics, ?_⟩⟩
      exact List.mem_filter.2 ⟨List.mem_singleton_self _, ha⟩
    | confirmed _ _ _ => cases hs'
    | completes _ _ _ _ _ hn => exact absurd hs' (Stage.ne_subscribe_of_next hn)
    | acknowledged _ hn _ => exact absurd hs' (Stage.ne_subscribe_of_next hn)
    | skipped _ hn _ _ => exact absurd hs' (Stage.ne_subscribe_of_next hn)
    | finished _ _ => cases hs'
    | resends _ _ _ => cases hs'
    | _ => exact ⟨hs', .inl hp'⟩

theorem Does.open_of_leaves (hd : Does plan s i s' requests)
    (hleaves : s'.session.stage ≠ s.session.stage) : s.terminated = false := by
  cases hd with
  | raises _ => exact absurd rfl hleaves
  | interrupted => exact absurd rfl hleaves
  | reacts hr =>
    cases hr with
    | confirmed ht _ _ => exact ht
    | completes ht _ _ _ _ _ => exact ht
    | acknowledged ht _ _ => exact ht
    | skipped ht _ _ _ => exact ht
    | finished ht _ => exact ht
    | resends ht _ _ => exact ht
    | _ => exact absurd rfl hleaves

/-- A stage that is left in turn is left by doing what it is for. -/
theorem Does.earns (hd : Does plan s i s' requests)
    (hturn : (Step.mk s i s' requests).InTurn)
    (hleaves : s'.session.stage ≠ s.session.stage) (hstage : s.session.stage.awaitsAck = false) :
    (Step.mk s i s' requests).Earns s.session.stage := by
  refine ⟨rfl, hleaves, Bool.eq_false_iff.2 fun hack => ?_⟩
  have hawaits := hturn hack (hd.open_of_leaves hleaves)
  exact absurd (hawaits.symm.trans hstage) nofun

/-- A session that has come to its last publish does not go back behind it. -/
theorem Does.publishQos1_le (hd : Does plan s i s' requests)
    (hs : Stage.publishQos1.rank ≤ s.session.stage.rank) :
    Stage.publishQos1.rank ≤ s'.session.stage.rank := by
  rcases hd.edge with hsame | hnext | ⟨-, hback, -⟩
  · rwa [hsame]
  · exact hs.trans (Stage.rank_lt_of_next hnext).le
  · rw [hback]

end Steps

/-- What a session has behind it on the way to the broker's confirmation. -/
structure Admitted (course : List Step) (s : Session) : Prop where
  subscribed : s.stage = .subscribe → s.subscribePending = true → ∃ m ∈ course, m.Subscribes
  unpublished : s.stage = .subscribe → ∀ m ∈ course, ¬ m.Publishes
  confirmed : Earned .subscribe course → Confirmed course
  ordered : ((∃ m ∈ course, m.Publishes) → Earned .subscribe course) → SubscribedFirst course

namespace Admitted

variable {plan : Plan} {course : List Step} {s s' : Standing} {i : Input}
  {requests : List Request}

theorem fresh : Admitted [] {} := by
  refine ⟨fun _ hp => Bool.noConfusion hp, by simp, ?_, ?_⟩
  · rintro ⟨m, hm, -⟩
    cases hm
  · intro _ past m hpast _
    exact absurd hpast (by simp)

theorem does (h : Admitted course s.session) (hd : Does plan s i s' requests) :
    Admitted (course ++ [⟨s, i, s', requests⟩]) s'.session := by
  have hstays (hs' : s'.session.stage = .subscribe) : s.session.stage = .subscribe := by
    rcases hd.edge with hsame | hnext | ⟨-, hback, -⟩
    · exact hsame.symm.trans hs'
    · exact absurd hs' (Stage.ne_subscribe_of_next hnext)
    · cases hback.symm.trans hs'
  have hquiet (hs : s.session.stage = .subscribe) :
      ¬ (Step.mk s i s' requests).Publishes := by
    rintro ⟨p, data, hmem⟩
    exact Stage.ne_subscribe_of_publishQos (hd.publishQos_of_mem hmem) hs
  refine ⟨?_, ?_, ?_, ?_⟩
  · intro hs' hp'
    rcases hd.subscribes_of_pending hs' hp' with ⟨hs, hp | hnow⟩
    · obtain ⟨m, hmem, hm⟩ := h.subscribed hs hp
      exact ⟨m, List.mem_append_left _ hmem, hm⟩
    · exact ⟨_, List.mem_append_right _ (List.mem_singleton_self _), hnow⟩
  · intro hs' m hmem
    rcases List.mem_append.1 hmem with hold | hnew
    · exact h.unpublished (hstays hs') m hold
    · rw [List.mem_singleton.1 hnew]
      exact hquiet (hstays hs')
  · intro hearned
    rcases earned_concat.1 hearned with hold | hnow
    · exact (h.confirmed hold).append _
    · have hconfirms := hd.confirms hnow
      obtain ⟨m, hmem, hm⟩ := h.subscribed hconfirms.before_eq hconfirms.pending
      exact .concat hmem hm hconfirms
  · intro hpaid
    by_cases hs : s.session.stage = .subscribe
    · -- nothing has been published so far, and nothing is now
      have hnone := h.unpublished hs
      refine subscribedFirst_concat (h.ordered ?_) fun hnow => absurd hnow (hquiet hs)
      rintro ⟨m, hmem, hm⟩
      exact absurd hm (hnone m hmem)
    · -- the way here was earned before, if at all
      have hold : Earned .subscribe (course ++ [⟨s, i, s', requests⟩]) →
          Earned .subscribe course := by
        rw [earned_concat]
        exact fun hearned => hearned.resolve_right fun hnow => hs hnow.before_eq
      refine subscribedFirst_concat (h.ordered ?_) fun hnow => h.confirmed (hold (hpaid ?_))
      · rintro ⟨m, hmem, hm⟩
        exact hold (hpaid ⟨m, List.mem_append_left _ hmem, hm⟩)
      · exact ⟨_, List.mem_append_right _ (List.mem_singleton_self _), hnow⟩

theorem of_run (plan : Plan) (inputs : List Input) :
    Admitted (trace plan {} inputs) (run plan {} inputs).session :=
  course_induction plan {} (P := fun course t => Admitted course t.session) fresh
    (fun _ _ _ _ _ h hd => h.does hd) inputs

end Admitted

theorem left_of_rank_lt (plan : Plan) (inputs : List Input) {stage : Stage}
    (hlt : stage.rank < (run plan {} inputs).session.stage.rank) :
    ∃ m ∈ trace plan {} inputs,
      m.before.session.stage = stage ∧ m.after.session.stage ≠ stage := by
  revert hlt
  refine course_induction plan {}
    (P := fun course t => stage.rank < t.session.stage.rank → ∃ m ∈ course,
      m.before.session.stage = stage ∧ m.after.session.stage ≠ stage) ?_ ?_ inputs
  · exact fun hlt => absurd hlt (Nat.not_lt_zero _)
  · intro course t i t' requests ih hd hlt
    have hbehind (hlt' : stage.rank < t.session.stage.rank) :
        ∃ m ∈ course ++ [⟨t, i, t', requests⟩],
          m.before.session.stage = stage ∧ m.after.session.stage ≠ stage := by
      obtain ⟨m, hmem, hm⟩ := ih hlt'
      exact ⟨m, List.mem_append_left _ hmem, hm⟩
    rcases hd.edge with hsame | hnext | ⟨hs, hs', -⟩
    · exact hbehind (hsame ▸ hlt)
    · rcases Stage.eq_or_rank_lt_of_next hnext hlt with hnow | hbefore
      · refine ⟨_, List.mem_append_right _ (List.mem_singleton_self _), hnow, ?_⟩
        rintro rfl
        exact lt_irrefl _ hlt
      · exact hbehind hbefore
    · refine hbehind (hlt.trans ?_)
      rw [hs, hs']
      decide

/-- Nothing is accepted at QoS 0 behind something that was accepted at QoS 1. -/
theorem exists_split (plan : Plan) (inputs : List Input) : ∃ first rest,
    trace plan {} inputs = first ++ rest ∧ chunksAt 1 first = [] ∧ chunksAt 0 rest = [] := by
  have h := course_induction plan {} (P := fun course t => ∃ first rest,
    course = first ++ rest ∧ chunksAt 1 first = [] ∧ chunksAt 0 rest = [] ∧
      (t.session.stage.rank < Stage.publishQos1.rank → rest = [])) ?_ ?_ inputs
  · obtain ⟨first, rest, hcourse, hfirst, hrest, -⟩ := h
    exact ⟨first, rest, hcourse, hfirst, hrest⟩
  · exact ⟨[], [], rfl, rfl, rfl, fun _ => rfl⟩
  · rintro course t i t' requests ⟨first, rest, rfl, hfirst, hrest, hempty⟩ hd
    by_cases ht : t.session.stage.rank < Stage.publishQos1.rank
    · have hnone : (Step.mk t i t' requests).chunks 1 = [] := by
        refine hd.chunks_eq_nil fun hq => ?_
        rw [Stage.rank_of_publishQos hq] at ht
        exact absurd ht (by decide)
      rw [hempty ht, List.append_nil]
      exact ⟨first ++ [_], [], (List.append_nil _).symm, by simp [hfirst, hnone], rfl, fun _ => rfl⟩
    · have hnone : (Step.mk t i t' requests).chunks 0 = [] := by
        refine hd.chunks_eq_nil fun hq => ht ?_
        rw [Stage.rank_of_publishQos hq]
        decide
      refine ⟨first, rest ++ [_], List.append_assoc _ _ _, hfirst, by simp [hrest, hnone], ?_⟩
      intro ht'
      exact absurd (hd.publishQos1_le (not_lt.1 ht)) (not_le.2 ht')

theorem copied_iff (plan : Plan) (inputs : List Input) :
    Copied plan (trace plan {} inputs) ↔
      Earned .publishQos0 (trace plan {} inputs) ∧ Earned .publishQos1 (trace plan {} inputs) := by
  obtain ⟨attempts0, hwrote0⟩ := wrote_trace plan .publishQos0 0 rfl inputs
  obtain ⟨attempts1, hwrote1⟩ := wrote_trace plan .publishQos1 1 rfl inputs
  rw [← hwrote0.copied_iff, ← hwrote1.copied_iff]
  constructor
  · rintro ⟨first, rest, hcourse, hcopy0, hcopy1⟩
    rw [hcourse, chunksAt_append, chunksAt_append]
    exact ⟨hcopy0.trans (List.prefix_append _ _).isInfix,
      hcopy1.trans (List.suffix_append _ _).isInfix⟩
  · rintro ⟨hcopy0, hcopy1⟩
    obtain ⟨first, rest, hcourse, hfirst, hrest⟩ := exists_split plan inputs
    rw [hcourse, chunksAt_append, hrest, List.append_nil] at hcopy0
    rw [hcourse, chunksAt_append, hfirst, List.nil_append] at hcopy1
    exact ⟨first, rest, hcourse, hcopy0, hcopy1⟩

/-- A stage that was left in turn was earned. -/
theorem earned_of_rank_lt {plan : Plan} {inputs : List Input}
    (hturn : ∀ m ∈ trace plan {} inputs, m.InTurn) {stage : Stage}
    (hstage : stage.awaitsAck = false)
    (hlt : stage.rank < (run plan {} inputs).session.stage.rank) :
    Earned stage (trace plan {} inputs) := by
  obtain ⟨m, hmem, rfl, hleaves⟩ := left_of_rank_lt plan inputs hlt
  exact ⟨m, hmem, (does_of_mem hmem).earns (hturn m hmem) hleaves hstage⟩

/-- Whatever events come, a session keeps to its workflow exactly if it does not owe a step of it to
acknowledgements alone: if it published, a confirmation led to the publish, and if it succeeded,
both publishes were written to their end. So it does if every acknowledgement comes in turn. -/
theorem enforced_iff (plan : Plan) (inputs : List Input) :
    let s := run plan {} inputs
    let course := trace plan {} inputs
    (Enforced plan course s ↔
      ((∃ m ∈ course, m.Publishes) → Earned .subscribe course) ∧
      (s.verdict.outcome = .success → Earned .publishQos0 course ∧ Earned .publishQos1 course)) ∧
    ((∀ m ∈ course, m.InTurn) → Enforced plan course s) := by
  intro s course
  have hadmitted : Admitted course s.session := .of_run plan inputs
  have hsettled : Settled s := .of_run plan inputs
  have hiff : Enforced plan course s ↔
      ((∃ m ∈ course, m.Publishes) → Earned .subscribe course) ∧
      (s.verdict.outcome = .success → Earned .publishQos0 course ∧ Earned .publishQos1 course) := by
    constructor
    · intro h
      exact ⟨h.subscribed.earned, fun hsuccess => (copied_iff plan inputs).1 (h.copied hsuccess)⟩
    · rintro ⟨hpublished, hsucceeded⟩
      exact ⟨hadmitted.ordered hpublished,
        fun hsuccess => (copied_iff plan inputs).2 (hsucceeded hsuccess)⟩
  refine ⟨hiff, fun hturn => hiff.2 ⟨?_, ?_⟩⟩
  · rintro ⟨m, hmem, hm⟩
    refine earned_of_rank_lt hturn rfl ?_
    have hstage : s.session.stage ≠ .subscribe := fun hs => hadmitted.unpublished hs m hmem hm
    show Stage.subscribe.rank < s.session.stage.rank
    revert hstage
    cases s.session.stage <;> decide
  · intro hsuccess
    have hfinish : s.session.stage = .finish := hsettled.success_iff.1 hsuccess
    have hpast {stage : Stage} (hlt : stage.rank < Stage.finish.rank) :
        stage.rank < (run plan {} inputs).session.stage.rank := by
      show stage.rank < s.session.stage.rank
      rwa [hfinish]
    exact ⟨earned_of_rank_lt hturn rfl (hpast (by decide)),
      earned_of_rank_lt hturn rfl (hpast (by decide))⟩

/-- In turn, a session subscribes, writes its payload twice and succeeds. -/
theorem enforced_in_turn :
    (run briefPlan {} inTurn).verdict.outcome = .success ∧
      Enforced briefPlan (trace briefPlan {} inTurn) (run briefPlan {} inTurn) := by
  refine ⟨rfl, (enforced_iff briefPlan inTurn).2 ?_⟩
  decide

/-- Acknowledgements alone lead to a publish without a subscription, and to a success with half of
the payload written at QoS 0 and none of it at QoS 1. -/
theorem skipped_by_acknowledgements :
    let inputs := accepting [.acknowledged, .writeOpportunity, .acknowledged, .acknowledged,
      .acknowledged, .acknowledged]
    ¬ SubscribedFirst (trace briefPlan {} inputs) ∧
      (run briefPlan {} inputs).verdict.outcome = .success ∧
      ¬ Copied briefPlan (trace briefPlan {} inputs) := by
  intro inputs
  refine ⟨?_, rfl, ?_⟩
  · intro hfirst
    obtain ⟨u, v, hsub, -, -⟩ := hfirst ((trace briefPlan {} inputs).take 1) _
      ⟨(trace briefPlan {} inputs).drop 2, rfl⟩ ⟨_, _, .head _⟩
    exact absurd hsub.length_le (show ¬ 2 ≤ 1 by decide)
  · rintro ⟨first, rest, hcourse, -, hcopy⟩
    have hnone : chunksAt 1 (trace briefPlan {} inputs) = [] := rfl
    rw [hcourse, chunksAt_append] at hnone
    rw [(List.append_eq_nil_iff.1 hnone).2, List.infix_nil] at hcopy
    exact absurd hcopy (List.ne_nil_of_length_pos briefPlan.chunker.length_chunks_pos)

end Session

end BrokerTrial

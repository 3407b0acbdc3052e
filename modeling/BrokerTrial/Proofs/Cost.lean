import BrokerTrial.Proofs.Course

/-! The shape of a course and what it costs. A step keeps the stage, goes one edge forward, or
goes back for a resend (`Does.edge`). Whatever a session asks for is paid out of an allowance that
no step raises: one subscription, and at each quality of service as many chunks as its attempts
have (`Does.pays_subscribe`, `Does.pays_publish`). So spurious events cost nothing, however many
there are. -/

namespace BrokerTrial

def Request.subscribes : Request → Bool
  | .subscribe _ => true
  | _ => false

def Request.publishes (qos : Int) : Request → Bool
  | .publish p _ => p.qos = qos
  | _ => false

theorem Stage.ne_subscribe_of_publishQos {stage : Stage} {qos : Int}
    (h : stage.publishQos? = some qos) : stage ≠ .subscribe := by
  rintro rfl
  cases h

theorem Stage.publishQos_of_written {stage stage' : Stage} {qos : Int}
    (hq : stage.publishQos? = some qos) (hn : stage.next? .advance = some stage') :
    stage'.publishQos? = none := by
  cases stage <;> cases hq <;> cases hn <;> rfl

theorem Stage.ne_subscribe_of_next {stage stage' : Stage} {edge : Edge}
    (h : stage.next? edge = some stage') : stage' ≠ .subscribe := by
  rintro rfl
  cases stage <;> cases edge <;> cases h

theorem Stage.rank_lt_of_next {stage stage' : Stage} (hn : stage.next? .advance = some stage') :
    stage.rank < stage'.rank := by
  cases stage <;> cases hn <;> decide

namespace Session

variable {plan : Plan} {s s' : Standing} {i : Input} {requests : List Request}

theorem Does.edge (hd : Does plan s i s' requests) :
    s'.session.stage = s.session.stage ∨
      s.session.stage.next? .advance = some s'.session.stage ∨
      s.session.stage = .waitAck1 ∧ s'.session.stage = .publishQos1 ∧
        ∃ attempt accepts, i = .event (.resendRequested attempt) accepts := by
  cases hd with
  | raises _ => exact .inl rfl
  | interrupted => exact .inl rfl
  | reacts hr =>
    cases hr with
    | confirmed _ hs _ =>
      refine .inr (.inl ?_)
      rw [hs]
      rfl
    | completes _ _ _ _ _ hn => exact .inr (.inl hn)
    | acknowledged _ hn _ => exact .inr (.inl hn)
    | skipped _ hn _ _ => exact .inr (.inl hn)
    | finished _ hs =>
      refine .inr (.inl ?_)
      rw [hs]
      rfl
    | resends _ hs _ => exact .inr (.inr ⟨hs, rfl, _, _, rfl⟩)
    | _ => exact .inl rfl

def Step.entered (m : Step) : List Stage :=
  if m.after.session.stage = m.before.session.stage then [] else [m.after.session.stage]

/-- The stages of a course in the order in which they are entered, the first one included. -/
def stagesOf (course : List Step) : List Stage := .subscribe :: course.flatMap Step.entered

/-- Before the last attempts, a stage that was reached does not come again. -/
theorem Does.pays_stage (hd : Does plan s i s' requests) {stage : Stage}
    (hstage : stage.rank < Stage.publishQos1.rank) :
    (Step.entered ⟨s, i, s', requests⟩).countP (· == stage) +
      (if s'.session.stage.rank < stage.rank then 1 else 0) ≤
        if s.session.stage.rank < stage.rank then 1 else 0 := by
  unfold Step.entered
  dsimp only
  rcases hd.edge with hsame | hnext | ⟨hs, hs', -⟩
  · simp [hsame]
  · revert hnext
    generalize s.session.stage = old
    generalize s'.session.stage = new
    revert hstage
    cases stage <;> cases old <;> cases new <;> decide
  · rw [hs, hs']
    revert hstage
    cases stage <;> decide

/-- What a session may still do, which is nothing once its run is interrupted. -/
def allowance (f : Session → Nat) (s : Standing) : Nat :=
  if s.verdict.interrupted then 0 else f s.session

section Allowance

variable (f : Session → Nat) (s : Standing)

@[simp] theorem allowance_failed (reason : String) : allowance f (s.failed reason) = 0 := rfl

@[simp] theorem allowance_interrupted : allowance f s.interrupted = 0 := rfl

@[simp] theorem allowance_succeed (session : Session) :
    allowance f ⟨session, s.verdict.succeed⟩ = 0 := rfl

variable {s} (ht : s.terminated = false)

include ht in
theorem allowance_eq : allowance f s = f s.session := by
  simp [allowance, ((Standing.terminated_eq_false_iff s).1 ht).2]

include ht in
theorem allowance_withSession (session : Session) :
    allowance f (s.withSession session) = f session := by
  simp [allowance, Standing.withSession, ((Standing.terminated_eq_false_iff s).1 ht).2]

/-- A move that the allowance does not grow by, with requests that cost nothing. -/
theorem pays_of_le {f : Session → Nat} {p : Request → Bool} {s : Standing} {session : Session}
    {requests : List Request} (ht : s.terminated = false) (hfree : requests.countP p = 0)
    (hle : f session ≤ f s.session) :
    requests.countP p + allowance f (s.withSession session) ≤ allowance f s := by
  rw [hfree, allowance_eq f ht, allowance_withSession f ht, zero_add]
  exact hle

end Allowance

def subscribesLeft (s : Session) : Nat :=
  if s.stage = .subscribe ∧ s.subscribePending = false then 1 else 0

theorem Does.pays_subscribe (hd : Does plan s i s' requests) :
    requests.countP Request.subscribes + allowance subscribesLeft s' ≤
      allowance subscribesLeft s := by
  cases hd with
  | raises _ => simp
  | interrupted => simp
  | reacts hr =>
    cases hr with
    | idle _ => simp
    | established => simp [Request.subscribes]
    | lost _ _ => simp [Request.subscribes]
    | subscribes ht hs hp _ =>
      rw [allowance_eq _ ht, allowance_withSession _ ht]
      simp [subscribesLeft, hs, hp, Request.subscribes]
    | subscribeRejected ht hs hp _ =>
      rw [allowance_eq _ ht, allowance_failed]
      simp [subscribesLeft, hs, hp, Request.subscribes, List.countP_cons]
    | confirmed ht _ _ => exact pays_of_le ht rfl (by simp [subscribesLeft])
    | publishes ht hq _ _ _ =>
      exact pays_of_le ht rfl (by simp [subscribesLeft, Stage.ne_subscribe_of_publishQos hq])
    | completes ht _ _ _ _ hn =>
      exact pays_of_le ht rfl (by simp [subscribesLeft, Stage.ne_subscribe_of_next hn])
    | publishRejected _ _ _ _ => simp [Request.subscribes]
    | acknowledged ht hn _ =>
      exact pays_of_le ht rfl (by simp [subscribesLeft, Stage.ne_subscribe_of_next hn])
    | skipped ht hn _ _ =>
      exact pays_of_le ht rfl (by simp [subscribesLeft, Stage.ne_subscribe_of_next hn])
    | finished _ _ => simp [Request.subscribes]
    | resends ht _ _ => exact pays_of_le ht rfl (by simp [subscribesLeft])
    | givesUp _ _ _ => simp [Request.subscribes]

def attemptsLeft (plan : Plan) (qos : Int) (s : Session) : Nat :=
  if qos = 0 then
    match s.stage with
    | .subscribe => 1
    | _ => 0
  else if qos = 1 then
    match s.stage with
    | .subscribe | .publishQos0 | .waitAck0 => plan.limit.cap.toNat
    | .publishQos1 | .waitAck1 => (plan.limit.cap - 1 - s.resends).toNat
    | .finish => 0
  else 0

/-- How many chunks may still be written: those of the attempts to come, and what is left of the one
that is being written. -/
def chunksLeft (plan : Plan) (qos : Int) (s : Session) : Nat :=
  attemptsLeft plan qos s * plan.chunker.chunks.length +
    if s.stage.publishQos? = some qos then
      plan.chunker.chunks.length - s.position.toNat / plan.chunker.size
    else 0

theorem attemptsLeft_advance (plan : Plan) (qos : Int) {old new : Session}
    (hn : old.stage.next? .advance = some new.stage)
    (hfresh : new.stage = .publishQos1 → new.resends = 0)
    (hsame : new.stage = .waitAck1 → new.resends = old.resends) :
    attemptsLeft plan qos new + (if new.stage.publishQos? = some qos then 1 else 0) ≤
      attemptsLeft plan qos old := by
  have hcap := plan.limit.cap_pos
  obtain ⟨stage, position, resends, pending⟩ := old
  obtain ⟨stage', position', resends', pending'⟩ := new
  dsimp only at hn hfresh hsame
  by_cases h0 : qos = 0
  · subst h0
    cases stage <;> cases hn <;> simp [attemptsLeft, Stage.publishQos?]
  by_cases h1 : qos = 1
  · subst h1
    cases stage <;> cases hn <;> simp_all [attemptsLeft, Stage.publishQos?]
    omega
  · cases stage <;> cases hn <;>
      simp [attemptsLeft, Stage.publishQos?, h0, h1, Ne.symm h0, Ne.symm h1]

theorem attemptsLeft_written (plan : Plan) (qos : Int) {old : Session} {q : Int} {stage : Stage}
    (hq : old.stage.publishQos? = some q) (hn : old.stage.next? .advance = some stage) :
    attemptsLeft plan qos { old with position := 0, stage } +
      (if stage.publishQos? = some qos then 1 else 0) ≤ attemptsLeft plan qos old := by
  refine attemptsLeft_advance plan qos hn ?_ fun _ => rfl
  rintro rfl
  cases Stage.publishQos_of_written hq hn

theorem attemptsLeft_resend (plan : Plan) (qos : Int) {old new : Session}
    (hs : old.stage = .waitAck1) (ha : plan.limit.allows (old.resends + 1) = true)
    (hs' : new.stage = .publishQos1) (hr : new.resends = old.resends + 1) :
    attemptsLeft plan qos new + (if new.stage.publishQos? = some qos then 1 else 0) ≤
      attemptsLeft plan qos old := by
  have hallowed : old.resends + 1 < plan.limit.cap := of_decide_eq_true ha
  unfold attemptsLeft
  rw [hs, hs', hr]
  by_cases h1 : qos = 1
  · subst h1
    simp only [Stage.publishQos?, one_ne_zero, if_true, if_false]
    omega
  · simp [Stage.publishQos?, h1, Ne.symm h1]

theorem chunksLeft_of_begin {plan : Plan} {qos : Int} {old new : Session}
    (h : attemptsLeft plan qos new + (if new.stage.publishQos? = some qos then 1 else 0) ≤
      attemptsLeft plan qos old) : chunksLeft plan qos new ≤ chunksLeft plan qos old := by
  have hmul := Nat.mul_le_mul_right plan.chunker.chunks.length h
  have hle := Nat.sub_le plan.chunker.chunks.length (new.position.toNat / plan.chunker.size)
  rw [Nat.add_mul, ite_mul, one_mul, zero_mul] at hmul
  unfold chunksLeft
  refine le_trans ?_ (Nat.le_add_right _ _)
  refine le_trans (Nat.add_le_add_left ?_ _) hmul
  split_ifs
  · exact hle
  · exact le_rfl

/-- A chunk is paid for by the attempt that it belongs to. -/
theorem chunksLeft_of_publish {plan : Plan} {old : Session} {q : Int} {k : Nat}
    (hq : old.stage.publishQos? = some q) (hk : plan.chunker.Before old.position k) (qos : Int) :
    (if q = qos then 1 else 0) + (attemptsLeft plan qos old * plan.chunker.chunks.length +
      if q = qos then plan.chunker.chunks.length - (k + 1) else 0) = chunksLeft plan qos old := by
  have hlt := hk.lt_length
  unfold chunksLeft
  rw [hq, hk.number_eq]
  by_cases hqos : q = qos
  · simp only [hqos, if_true]
    omega
  · simp [hqos]

theorem Does.pays_publish (h : InFront plan s) (hd : Does plan s i s' requests) (qos : Int) :
    requests.countP (Request.publishes qos) + allowance (chunksLeft plan qos) s' ≤
      allowance (chunksLeft plan qos) s := by
  obtain ⟨k, hk⟩ := h
  cases hd with
  | raises _ => simp
  | interrupted => simp
  | reacts hr =>
    cases hr with
    | idle _ => simp
    | established => simp [Request.publishes]
    | lost _ _ => simp [Request.publishes]
    | subscribes ht _ _ _ => exact pays_of_le ht rfl le_rfl
    | subscribeRejected _ _ _ _ => simp [Request.publishes]
    | confirmed ht hs _ =>
      refine pays_of_le ht rfl (chunksLeft_of_begin ?_)
      exact attemptsLeft_advance plan qos (by rw [hs]; rfl) nofun nofun
    | publishes ht hq hc _ hmore =>
      -- the attempt goes on, with the next chunk in front
      rw [allowance_eq _ ht, allowance_withSession _ ht, ← chunksLeft_of_publish hq hk qos]
      rcases hk.next hc with ⟨hend, -⟩ | ⟨hnext, -⟩
      · exact absurd hend hmore
      · unfold chunksLeft
        dsimp only
        rw [hq, hnext.number_eq]
        simp [Request.publishes, List.countP_cons, attemptsLeft]
    | completes ht hq hc ha hl hn =>
      rename_i stage
      have hwaits := Stage.publishQos_of_written hq hn
      have hmul := Nat.mul_le_mul_right plan.chunker.chunks.length
        ((Nat.le_add_right _ _).trans (attemptsLeft_written plan qos hq hn))
      rw [allowance_eq _ ht, allowance_withSession _ ht, ← chunksLeft_of_publish hq hk qos,
        chunksLeft, if_neg (by simp [hwaits])]
      simp only [List.countP_singleton, Request.publishes, decide_eq_true_eq]
      omega
    | publishRejected ht hq hc _ =>
      rw [allowance_eq _ ht, allowance_failed, ← chunksLeft_of_publish hq hk qos]
      simp [Request.publishes, List.countP_cons]
    | acknowledged ht hn hq =>
      refine pays_of_le ht rfl (chunksLeft_of_begin ?_)
      exact attemptsLeft_advance plan qos hn (fun _ => rfl) (by rintro rfl; cases hq)
    | skipped ht hn _ hq =>
      refine pays_of_le ht rfl (chunksLeft_of_begin ?_)
      exact attemptsLeft_advance plan qos hn (by rintro rfl; cases hq) (fun _ => rfl)
    | finished _ _ => simp [Request.publishes]
    | resends ht hs ha =>
      exact pays_of_le ht rfl (chunksLeft_of_begin (attemptsLeft_resend plan qos hs ha rfl rfl))
    | givesUp _ _ _ => simp [Request.publishes]

theorem stagesOf_count_le_one (plan : Plan) (inputs : List Input) {stage : Stage}
    (hstage : stage.rank < Stage.publishQos1.rank) :
    (stagesOf (trace plan {} inputs)).count stage ≤ 1 := by
  have hentered := countP_add_budget_le plan {} Step.entered (· == stage)
    (fun t => if t.session.stage.rank < stage.rank then 1 else 0) (I := fun _ => True)
    (fun _ _ _ _ _ _ => trivial) (fun _ _ _ _ _ hd => hd.pays_stage hstage) trivial inputs
  -- the first stage is there without being entered
  have hfirst : (if Stage.subscribe.rank < stage.rank then 1 else 0) +
      (if Stage.subscribe == stage then 1 else 0) ≤ 1 := by
    cases stage <;> decide
  rw [List.count, stagesOf, List.countP_cons]
  exact (Nat.add_le_add_right ((Nat.le_add_right _ _).trans hentered) _).trans hfirst

theorem subscribes_le_one (plan : Plan) (inputs : List Input) :
    (requestsOf (trace plan {} inputs)).countP Request.subscribes ≤ 1 := by
  have h := countP_add_budget_le plan {} Step.requests Request.subscribes
    (allowance subscribesLeft) (I := fun _ => True) (fun _ _ _ _ _ _ => trivial)
    (fun _ _ _ _ _ hd => hd.pays_subscribe) trivial inputs
  exact (Nat.le_add_right _ _).trans h

theorem publishes_le (plan : Plan) (inputs : List Input) (qos : Int) :
    (requestsOf (trace plan {} inputs)).countP (Request.publishes qos) ≤
      attemptsLeft plan qos {} * plan.chunker.chunks.length := by
  have h := countP_add_budget_le plan {} Step.requests (Request.publishes qos)
    (allowance (chunksLeft plan qos)) (fun _ _ _ _ h hd => h.does hd)
    (fun _ _ _ _ h hd => hd.pays_publish h qos) (inFront_fresh plan) inputs
  exact (Nat.le_add_right _ _).trans h

/-- Whatever comes, a session goes one edge at a time, back only for a resend; it enters no stage
before its last attempts twice. It subscribes once at most, and it writes at most as many chunks at
QoS 0 as the payload has, at QoS 1 at most as many as that for each attempt that the limit allows,
and none otherwise. -/
theorem course_bounded (plan : Plan) (inputs : List Input) :
    let course := trace plan {} inputs
    let chunks := (plan.chunker.total + plan.chunker.size - 1) / plan.chunker.size
    (∀ m ∈ course,
      m.after.session.stage = m.before.session.stage ∨
      m.before.session.stage.next? .advance = some m.after.session.stage ∨
      m.before.session.stage = .waitAck1 ∧ m.after.session.stage = .publishQos1 ∧
        ∃ attempt accepts, m.input = .event (.resendRequested attempt) accepts) ∧
    (∀ stage : Stage, stage.rank < Stage.publishQos1.rank → (stagesOf course).count stage ≤ 1) ∧
    (requestsOf course).countP Request.subscribes ≤ 1 ∧
    (requestsOf course).countP (Request.publishes 0) ≤ chunks ∧
    (requestsOf course).countP (Request.publishes 1) ≤ plan.limit.cap.toNat * chunks ∧
    ∀ qos : Int, qos ≠ 0 → qos ≠ 1 → (requestsOf course).countP (Request.publishes qos) = 0 := by
  intro course chunks
  have hchunks : plan.chunker.chunks.length = chunks := plan.chunker.length_chunks
  have hpublishes (qos : Int) : (requestsOf course).countP (Request.publishes qos) ≤
      attemptsLeft plan qos {} * chunks := by
    rw [← hchunks]
    exact publishes_le plan inputs qos
  refine ⟨fun m hm => (does_of_mem hm).edge, fun _ => stagesOf_count_le_one plan inputs,
    subscribes_le_one plan inputs, ?_, ?_, ?_⟩
  · have h := hpublishes 0
    simpa [attemptsLeft] using h
  · have h := hpublishes 1
    simpa [attemptsLeft] using h
  · intro qos h0 h1
    have h := hpublishes qos
    simpa [attemptsLeft, h0, h1] using h

/-- The bounds are reached. -/
example : let requests := requestsOf (trace briefPlan {} unanswered)
    requests.countP Request.subscribes = 1 ∧ requests.countP (Request.publishes 0) = 2 ∧
      requests.countP (Request.publishes 1) = 3 * 2 := by
  decide

end Session

end BrokerTrial

import BrokerTrial.Proofs.Course

/-! The verdict of a session on its own. It is a success exactly when the session has finished
(`Settled`). Once the run is interrupted, session and outcome stay as they are and nothing is sent
(`Settled.does_interrupted`), and the first reason for a failure is never replaced. -/

namespace BrokerTrial

theorem Verdict.exitCode_eq_zero_iff (v : Verdict) : v.exitCode = 0 ↔ v.outcome = .success := by
  unfold exitCode
  split_ifs with h <;> simp [h]

def Request.sends : Request → Bool
  | .subscribe _ | .publish .. => true
  | .write | .cancel => false

theorem Stage.ne_finish_of_publishQos {stage : Stage} (h : stage.publishQos?.isSome) :
    stage ≠ .finish := by
  rintro rfl
  cases h

namespace Session

/-- All that an interrupted session still does with an event. -/
structure Calm (s s' : Standing) (requests : List Request) : Prop where
  session : s'.session = s.session
  interrupted : s'.verdict.interrupted = true
  outcome : s'.verdict.outcome = .success → s.verdict.outcome = .success
  sends : ∀ r ∈ requests, r.sends = false

namespace Calm

variable {s s' s'' : Standing} {requests : List Request}

theorem refl (hi : s.verdict.interrupted = true) : Calm s s [] := ⟨rfl, hi, id, nofun⟩

theorem silent (h : Calm s s' requests) : Calm s s' [] :=
  ⟨h.session, h.interrupted, h.outcome, nofun⟩

theorem trans (h : Calm s s' []) (h' : Calm s' s'' []) : Calm s s'' [] :=
  ⟨h'.session.trans h.session, h'.interrupted, fun hs => h.outcome (h'.outcome hs), nofun⟩

end Calm

theorem Reacts.of_interrupted {plan : Plan} {accepts : Request → Bool} {s s' : Standing} {e : Event}
    {requests : List Request} (h : Reacts plan accepts s e s' requests)
    (hi : s.verdict.interrupted = true) : Calm s s' requests := by
  have hrunning (ht : s.terminated = false) : Calm s s' requests := by
    have hopen := ((Standing.terminated_eq_false_iff s).1 ht).2
    cases hi.symm.trans hopen
  cases h with
  | idle => exact ⟨rfl, hi, id, nofun⟩
  | established => exact ⟨rfl, hi, id, by simp [Request.sends]⟩
  | lost => exact ⟨rfl, rfl, nofun, by simp [Request.sends]⟩
  | _ => exact hrunning ‹_›

/-- Whatever event comes, an interrupted session has nothing sent. -/
theorem handle_sends {plan : Plan} {accepts : Request → Bool} {s : Standing}
    (hi : s.verdict.interrupted = true) (e : Event) :
    ∀ r ∈ (handle plan accepts s e).requests, r.sends = false := by
  cases herror : (handle plan accepts s e).error with
  | none => exact ((handle_reacts herror).of_interrupted hi).sends
  | some error =>
    rw [(handle_error herror).2.2]
    nofun

/-- Verdict and stage agree, and a run that goes on has no reason to fail yet. -/
structure Settled (s : Standing) : Prop where
  success_iff : s.verdict.outcome = .success ↔ s.session.stage = .finish
  closed : s.session.stage = .finish → s.verdict.interrupted = true ∧ s.verdict.reason = none
  unspoiled : s.verdict.interrupted = false → s.verdict.reason = none

namespace Settled

variable {plan : Plan} {s s' : Standing} {i : Input} {requests : List Request}

theorem fresh : Settled {} := ⟨⟨nofun, nofun⟩, nofun, fun _ => rfl⟩

theorem failed (hf : s.session.stage ≠ .finish) (reason : String) : Settled (s.failed reason) :=
  ⟨⟨nofun, fun h => absurd h hf⟩, fun h => absurd h hf, nofun⟩

theorem withSession (h : Settled s) (ht : s.terminated = false) {session : Session}
    (hf : session.stage ≠ .finish) : Settled (s.withSession session) := by
  obtain ⟨hstage, hopen⟩ := (Standing.terminated_eq_false_iff s).1 ht
  refine ⟨⟨?_, fun h' => absurd h' hf⟩, fun h' => absurd h' hf, h.unspoiled⟩
  intro hsuccess
  exact absurd (h.success_iff.1 hsuccess) hstage

theorem does (h : Settled s) (hd : Does plan s i s' requests) : Settled s' := by
  cases hd with
  | raises _ => exact h
  | interrupted =>
    exact ⟨h.success_iff, fun hf => ⟨rfl, (h.closed hf).2⟩, nofun⟩
  | reacts hr =>
    cases hr with
    | idle _ => exact h
    | established => exact h
    | lost _ hf => exact failed hf _
    | subscribes ht hs _ _ => exact h.withSession ht (by simp [hs])
    | subscribeRejected _ hs _ _ => exact failed (by simp [hs]) _
    | confirmed ht _ _ => exact h.withSession ht nofun
    | publishes ht hq _ _ _ =>
      exact h.withSession ht (Stage.ne_finish_of_publishQos (by simp [hq]))
    | completes ht hq _ _ _ hn => exact h.withSession ht (Stage.ne_finish_of_written hq hn)
    | publishRejected _ hq _ _ =>
      exact failed (Stage.ne_finish_of_publishQos (by simp [hq])) _
    | acknowledged ht _ hq => exact h.withSession ht (Stage.ne_finish_of_publishQos hq)
    | skipped ht _ hf _ => exact h.withSession ht hf
    | finished ht _ =>
      have hopen := ((Standing.terminated_eq_false_iff s).1 ht).2
      exact ⟨⟨fun _ => rfl, fun _ => rfl⟩, fun _ => ⟨rfl, h.unspoiled hopen⟩, nofun⟩
    | resends ht _ _ => exact h.withSession ht nofun
    | givesUp _ hs _ =>
      refine failed ?_ _
      have hstage : s.session.stage ≠ .finish := by simp [hs]
      exact hstage

theorem of_run (plan : Plan) (inputs : List Input) : Settled (run plan {} inputs) :=
  run_holds (fun _ _ _ _ h hd => h.does hd) fresh inputs

/-- A session that still reacts has no reason to fail yet. -/
theorem reason_eq_none (h : Settled s) (ht : s.terminated = false) : s.verdict.reason = none :=
  h.unspoiled ((Standing.terminated_eq_false_iff s).1 ht).2

/-- An interrupted session only takes note, or hears of the end of the connection. -/
theorem does_interrupted (h : Settled s) (hi : s.verdict.interrupted = true)
    (hd : Does plan s i s' requests) :
    s'.session = s.session ∧ s'.verdict.outcome = s.verdict.outcome ∧
      s'.verdict.interrupted = true ∧ ∀ r ∈ requests, r.sends = false := by
  cases hd with
  | raises _ => exact ⟨rfl, rfl, hi, nofun⟩
  | interrupted => exact ⟨rfl, rfl, rfl, nofun⟩
  | reacts hr =>
    have hcalm := hr.of_interrupted hi
    refine ⟨hcalm.session, ?_, hcalm.interrupted, hcalm.sends⟩
    -- the outcome goes with the stage, which stays
    have hsuccess : s'.verdict.outcome = .success ↔ s.verdict.outcome = .success := by
      rw [(h.does (.reacts hr)).success_iff, h.success_iff, hcalm.session]
    revert hsuccess
    cases s'.verdict.outcome <;> cases s.verdict.outcome <;> simp

theorem run_interrupted (plan : Plan) (h : Settled s) (hi : s.verdict.interrupted = true)
    (more : List Input) :
    (run plan s more).session = s.session ∧
      (run plan s more).verdict.outcome = s.verdict.outcome ∧
      ∀ r ∈ requestsOf (trace plan s more), r.sends = false := by
  have hall := course_induction plan s (P := fun course t =>
    Settled t ∧ t.verdict.interrupted = true ∧ t.session = s.session ∧
      t.verdict.outcome = s.verdict.outcome ∧ ∀ r ∈ requestsOf course, r.sends = false)
    ⟨h, hi, rfl, rfl, nofun⟩ ?_ more
  · exact hall.2.2
  · rintro course t i t' requests ⟨hsettled, hinterrupted, hsession, houtcome, hquiet⟩ hd
    obtain ⟨hs, ho, hi', hq⟩ := hsettled.does_interrupted hinterrupted hd
    refine ⟨hsettled.does hd, hi', hs.trans hsession, ho.trans houtcome, ?_⟩
    intro r hr
    rw [requestsOf, List.flatMap_append, List.flatMap_singleton] at hr
    rcases List.mem_append.1 hr with hold | hnew
    · exact hquiet r hold
    · exact hq r hnew

end Settled

variable {plan : Plan} {s s' : Standing} {i : Input} {requests : List Request}

theorem does_reason {reason : String} (hs : s.verdict.reason = some reason)
    (hd : Does plan s i s' requests) : s'.verdict.reason = some reason := by
  have hfailed (t : Standing) (other : String) (ht : t.verdict = s.verdict) :
      (t.failed other).verdict.reason = some reason := by
    show t.verdict.reason.or _ = some reason
    rw [ht, hs]
    rfl
  cases hd with
  | raises _ => exact hs
  | interrupted => exact hs
  | reacts hr =>
    cases hr with
    | lost => exact hfailed s _ rfl
    | subscribeRejected => exact hfailed s _ rfl
    | publishRejected => exact hfailed s _ rfl
    | givesUp => exact hfailed _ _ rfl
    | _ => exact hs

/-- A run is a success exactly when its session has finished, and then there is no reason to fail.
Once a run is interrupted, whatever else happens, the session, the outcome and the exit code stay as
they are and nothing more is sent; a reason that was given stays the reason. -/
theorem verdict_final (plan : Plan) (inputs : List Input) :
    let s := run plan {} inputs
    (s.verdict.outcome = .success ↔ s.session.stage = .finish) ∧
      (s.verdict.exitCode = 0 ↔ s.session.stage = .finish) ∧
      (s.session.stage = .finish → s.verdict.interrupted = true ∧ s.verdict.reason = none) ∧
      (s.verdict.interrupted = true → ∀ more : List Input,
        (run plan s more).session = s.session ∧
        (run plan s more).verdict.outcome = s.verdict.outcome ∧
        (run plan s more).verdict.exitCode = s.verdict.exitCode ∧
        ∀ r ∈ requestsOf (trace plan s more), r.sends = false) ∧
      ∀ reason, s.verdict.reason = some reason → ∀ more : List Input,
        (run plan s more).verdict.reason = some reason := by
  intro s
  have hsettled : Settled s := .of_run plan inputs
  have hsuccess := hsettled.success_iff
  refine ⟨hsuccess, ?_, hsettled.closed, ?_, ?_⟩
  · rw [Verdict.exitCode_eq_zero_iff]
    exact hsuccess
  · intro hi more
    obtain ⟨hsession, houtcome, hquiet⟩ := hsettled.run_interrupted plan hi more
    refine ⟨hsession, houtcome, ?_, hquiet⟩
    rw [Verdict.exitCode, Verdict.exitCode, houtcome]
  · intro reason hreason more
    exact run_holds (fun _ _ _ _ h hd => does_reason h hd) hreason more

/-- Neither the end of the connection nor an event that comes late spoils a success. -/
theorem success_stands :
    let s := run briefPlan {} inTurn
    let s' := run briefPlan s (accepting [.connectionClosed, .acknowledged, .writeOpportunity])
    s.verdict.exitCode = 0 ∧ s'.verdict.exitCode = 0 ∧ s'.session = s.session := by
  intro s s'
  have hfinal := (verdict_final briefPlan inTurn).2.2.2.1 rfl
    (accepting [.connectionClosed, .acknowledged, .writeOpportunity])
  exact ⟨rfl, hfinal.2.2.1, hfinal.1⟩

end Session

end BrokerTrial

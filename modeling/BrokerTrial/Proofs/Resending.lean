import BrokerTrial.Proofs.Finality
import BrokerTrial.Proofs.Writing

/-! Resends are counted exactly. A session has as many resends behind it as requests for one came
while it waited for the second acknowledgement (`Tallied`). One such request less than the limit
allows leads back to the publish, and the one that uses the limit up ends the run as a failure
(`does_counted`). -/

namespace BrokerTrial

namespace Session

def Input.resends : Input → Bool
  | .event (.resendRequested _) _ => true
  | _ => false

/-- A request for a resend that comes while the session waits for the second acknowledgement. -/
def Step.counts (m : Step) : Bool :=
  m.input.resends && !m.before.terminated && m.before.session.stage = .waitAck1

structure Tallied (plan : Plan) (course : List Step) (s : Standing) : Prop where
  resends_eq : s.session.resends = (course.countP Step.counts : Nat)
  unresent : s.session.stage.rank < Stage.publishQos1.rank → s.session.resends = 0
  le_cap : s.session.resends ≤ plan.limit.cap
  lt_cap : s.verdict.interrupted = false → s.session.resends < plan.limit.cap

namespace Tallied

variable {plan : Plan} {course : List Step} {s s' : Standing} {i : Input}
  {requests : List Request} {m : Step}

theorem fresh (plan : Plan) : Tallied plan [] {} := by
  have hcap := plan.limit.cap_pos
  refine ⟨rfl, fun _ => rfl, ?_, fun _ => ?_⟩
  · exact (by omega : (0 : Int) ≤ plan.limit.cap)
  · exact (by omega : (0 : Int) < plan.limit.cap)

theorem keeps (h : Tallied plan course s) (hm : m.counts = false)
    (hresends : s'.session.resends = s.session.resends)
    (hrank : s.session.stage.rank ≤ s'.session.stage.rank)
    (hopen : s'.verdict.interrupted = false → s.verdict.interrupted = false) :
    Tallied plan (course ++ [m]) s' := by
  refine ⟨?_, ?_, ?_, ?_⟩
  · rw [hresends, h.resends_eq, List.countP_append, List.countP_singleton, hm]
    rfl
  · intro hlt
    rw [hresends]
    exact h.unresent (hrank.trans_lt hlt)
  · rw [hresends]
    exact h.le_cap
  · intro hi
    rw [hresends]
    exact h.lt_cap (hopen hi)

theorem counted (h : Tallied plan course s) (hm : m.counts = true)
    (hopen : s.verdict.interrupted = false)
    (hresends : s'.session.resends = s.session.resends + 1)
    (hrank : Stage.publishQos1.rank ≤ s'.session.stage.rank)
    (hlt : s'.verdict.interrupted = false → s.session.resends + 1 < plan.limit.cap) :
    Tallied plan (course ++ [m]) s' := by
  have hbefore := h.lt_cap hopen
  refine ⟨?_, ?_, ?_, ?_⟩
  · rw [hresends, h.resends_eq, List.countP_append, List.countP_singleton, hm]
    rfl
  · intro hlow
    omega
  · rw [hresends]
    omega
  · intro hi
    rw [hresends]
    exact hlt hi

theorem counts_of_idle {e : Event} {accepts : Request → Bool} (hidle : e.Idle s) :
    (Step.mk s (.event e accepts) s' requests).counts = false := by
  cases e with
  | resendRequested attempt =>
    rcases hidle with ht | hs
    · simp [Step.counts, ht]
    · simp [Step.counts, hs]
  | _ => rfl

theorem does (h : Tallied plan course s) (hd : Does plan s i s' requests) :
    Tallied plan (course ++ [⟨s, i, s', requests⟩]) s' := by
  cases hd with
  | raises hr =>
    refine h.keeps ?_ rfl le_rfl id
    cases hr <;> rfl
  | interrupted => exact h.keeps rfl rfl le_rfl nofun
  | reacts hr =>
    cases hr with
    | idle hidle => exact h.keeps (counts_of_idle hidle) rfl le_rfl id
    | established => exact h.keeps rfl rfl le_rfl id
    | lost hloss hf =>
      refine h.keeps ?_ rfl le_rfl nofun
      rename_i e accepts reason
      cases e <;> first | rfl | cases hloss
    | subscribes _ _ _ _ => exact h.keeps rfl rfl le_rfl id
    | subscribeRejected _ _ _ _ => exact h.keeps rfl rfl le_rfl nofun
    | confirmed _ hs _ => exact h.keeps rfl rfl (by rw [hs]; exact Nat.zero_le _) id
    | publishes _ _ _ _ _ => exact h.keeps rfl rfl le_rfl id
    | completes _ _ _ _ _ hn => exact h.keeps rfl rfl (Stage.rank_lt_of_next hn).le id
    | publishRejected _ _ _ _ => exact h.keeps rfl rfl le_rfl nofun
    | acknowledged _ hn hq =>
      -- forward into a publish the counter is reset, but there it is zero already
      have hzero : s.session.resends = 0 := by
        refine h.unresent ?_
        revert hn hq
        cases s.session.stage <;> rintro ⟨⟩ hq <;> first | decide | cases hq
      exact h.keeps rfl hzero.symm (Stage.rank_lt_of_next hn).le id
    | skipped _ hn _ _ => exact h.keeps rfl rfl (Stage.rank_lt_of_next hn).le id
    | finished _ hs =>
      have hn : s.session.stage.next? .advance = some .finish := by
        rw [hs]
        rfl
      exact h.keeps rfl rfl (Stage.rank_lt_of_next hn).le nofun
    | resends ht hs ha =>
      have hopen := ((Standing.terminated_eq_false_iff s).1 ht).2
      refine h.counted (by simp [Step.counts, Input.resends, ht, hs]) hopen rfl le_rfl ?_
      intro _
      exact of_decide_eq_true ha
    | givesUp ht hs _ =>
      have hopen := ((Standing.terminated_eq_false_iff s).1 ht).2
      refine h.counted (by simp [Step.counts, Input.resends, ht, hs]) hopen rfl ?_ nofun
      have hrank : Stage.publishQos1.rank ≤ s.session.stage.rank := by
        rw [hs]
        decide
      exact hrank

theorem of_run (plan : Plan) (inputs : List Input) :
    Tallied plan (trace plan {} inputs) (run plan {} inputs) :=
  course_induction plan {} (P := Tallied plan) (fresh plan) (fun _ _ _ _ _ h hd => h.does hd) inputs

end Tallied

/-- A request for a resend that does not count changes nothing. -/
theorem does_uncounted {plan : Plan} {s s' : Standing} {attempt : Int}
    {accepts : Request → Bool} {requests : List Request}
    (hd : Does plan s (.event (.resendRequested attempt) accepts) s' requests)
    (hs : s.terminated = true ∨ s.session.stage ≠ .waitAck1) : s' = s ∧ requests = [] := by
  cases hd with
  | raises hr => cases hr
  | reacts hr =>
    cases hr with
    | idle _ => exact ⟨rfl, rfl⟩
    | lost hloss _ => cases hloss
    | resends ht hstage _ => simp [ht, hstage] at hs
    | givesUp ht hstage _ => simp [ht, hstage] at hs

/-- One that counts leads back to the publish, or ends the run if the limit is used up. -/
theorem does_counted {plan : Plan} {s s' : Standing} {attempt : Int}
    {accepts : Request → Bool} {requests : List Request}
    (hd : Does plan s (.event (.resendRequested attempt) accepts) s' requests)
    (ht : s.terminated = false) (hs : s.session.stage = .waitAck1) :
    s.session.resends + 1 < plan.limit.cap ∧ s'.session.stage = .publishQos1 ∧
        s'.session.position = 0 ∧ s'.verdict = s.verdict ∨
      plan.limit.cap ≤ s.session.resends + 1 ∧ s'.session.stage = .waitAck1 ∧
        s'.verdict = s.verdict.fail
          s!"QoS1 publish not acknowledged after {s.session.resends + 1} resend requests" := by
  cases hd with
  | raises hr => cases hr
  | reacts hr =>
    cases hr with
    | idle hidle =>
      rcases hidle with hterminated | hstage
      · exact absurd (ht.symm.trans hterminated) nofun
      · exact absurd hs hstage
    | lost hloss _ => cases hloss
    | resends _ _ ha => exact .inl ⟨of_decide_eq_true ha, rfl, rfl, rfl⟩
    | givesUp _ hstage ha =>
      exact .inr ⟨not_lt.1 (of_decide_eq_false ha), hstage, rfl⟩

/-- What a request for a resend leads to, by the number of those that counted so far. -/
theorem Tallied.resend {plan : Plan} {course : List Step} {s s' : Standing} {attempt : Int}
    {accepts : Request → Bool} {requests : List Request} (h : Tallied plan course s)
    (hsettled : Settled s)
    (hd : Does plan s (.event (.resendRequested attempt) accepts) s' requests)
    (ht : s.terminated = false) (hs : s.session.stage = .waitAck1) :
    ((course.countP Step.counts : Nat) : Int) + 1 < plan.limit.cap ∧
        s'.session.stage = .publishQos1 ∧ s'.session.position = 0 ∧
        s'.verdict = s.verdict ∧ s'.verdict.interrupted = false ∨
      ((course.countP Step.counts : Nat) : Int) + 1 = plan.limit.cap ∧
        s'.session.stage = .waitAck1 ∧ s'.verdict = ⟨true, .failure,
          some s!"QoS1 publish not acknowledged after {plan.limit.cap} resend requests"⟩ := by
  have hopen := ((Standing.terminated_eq_false_iff s).1 ht).2
  have hlt := h.lt_cap hopen
  rw [← h.resends_eq]
  rcases does_counted hd ht hs with
    ⟨hmore, hstage, hposition, hverdict⟩ | ⟨hend, hstage, hverdict⟩
  · exact .inl ⟨hmore, hstage, hposition, hverdict, by rw [hverdict]; exact hopen⟩
  · have hcap : s.session.resends + 1 = plan.limit.cap := by omega
    refine .inr ⟨hcap, hstage, ?_⟩
    rw [hverdict, Verdict.fail, hsettled.unspoiled hopen, hcap]
    rfl

/-- However a session came to where it stands, its resends are the requests that counted, and there
are no more of them than the limit allows. The next request that counts leads back to the start of
the publish and leaves the verdict alone, as long as it does not use the limit up; if it does, the
run is a failure for that reason. No other request for a resend changes anything. So what was
accepted at QoS 1 are beginnings of the payload, no more of them than the limit allows. -/
theorem resends_exact (plan : Plan) (inputs : List Input) :
    let s := run plan {} inputs
    let course := trace plan {} inputs
    let count := course.countP Step.counts
    s.session.resends = count ∧ (count : Int) ≤ plan.limit.cap ∧
    (∀ attempt accepts,
      let s' := (stepOf plan s (.event (.resendRequested attempt) accepts)).after
      (s.terminated = false ∧ s.session.stage = .waitAck1 →
        (count : Int) + 1 < plan.limit.cap ∧ s'.session.stage = .publishQos1 ∧
          s'.session.position = 0 ∧ s'.verdict = s.verdict ∧ s'.verdict.interrupted = false ∨
        (count : Int) + 1 = plan.limit.cap ∧ s'.session.stage = .waitAck1 ∧
          s'.verdict = ⟨true, .failure,
            some s!"QoS1 publish not acknowledged after {plan.limit.cap} resend requests"⟩) ∧
      (¬ (s.terminated = false ∧ s.session.stage = .waitAck1) → s' = s)) ∧
    (((chunksAt 1 course).countP Chunk.final : Nat) : Int) ≤ plan.limit.cap ∧
    ∃ attempts : List (List Chunk), chunksAt 1 course = attempts.flatten ∧
      (attempts.length : Int) ≤ plan.limit.cap ∧ ∀ a ∈ attempts, a <+: plan.chunker.chunks := by
  intro s course count
  have htallied : Tallied plan course s := .of_run plan inputs
  have hsettled : Settled s := .of_run plan inputs
  have hcount : s.session.resends = count := htallied.resends_eq
  obtain ⟨attempts, hwrote⟩ := wrote_trace plan .publishQos1 1 rfl inputs
  have hlength : (attempts.length : Int) ≤ plan.limit.cap := by
    have hlimited : attempts.length ≤ plan.limit.cap.toNat := hwrote.length_le
    have hcap := plan.limit.cap_pos
    omega
  refine ⟨hcount, ?_, ?_, ?_, attempts, hwrote.joined, hlength, hwrote.parts⟩
  · rw [← hcount]
    exact htallied.le_cap
  · intro attempt accepts s'
    have hdoes := stepOf_does plan s (.event (.resendRequested attempt) accepts)
    refine ⟨fun ⟨ht, hs⟩ => htallied.resend hsettled hdoes ht hs, fun hs => ?_⟩
    refine (does_uncounted hdoes ?_).1
    cases ht : s.terminated with
    | true => exact .inl rfl
    | false => exact .inr fun hstage => hs ⟨ht, hstage⟩
  · exact (Int.ofNat_le.2 hwrote.countP_final_le).trans hlength

/-- With three attempts, two requests for a resend are met and the third one ends the run. -/
theorem third_resend_fails :
    let s := run briefPlan {} unanswered
    let s' := (stepOf briefPlan s (.event (.resendRequested 3) fun _ => true)).after
    s.session.resends = 2 ∧ s'.session.stage = .waitAck1 ∧ s'.verdict = ⟨true, .failure,
      some s!"QoS1 publish not acknowledged after {briefPlan.limit.cap} resend requests"⟩ := by
  intro s s'
  have hnext := (resends_exact briefPlan unanswered).2.2.1 3 (fun _ => true)
  rcases hnext.1 ⟨rfl, rfl⟩ with ⟨hmore, -⟩ | ⟨-, hstage, hverdict⟩
  · exact absurd hmore (by decide)
  · exact ⟨rfl, hstage, hverdict⟩

end Session

end BrokerTrial

import BrokerTrial.Proofs.Finality
import BrokerTrial.Proofs.Writing
import Mathlib.Data.List.DropRight

/-! The attempt that a session is at. An attempt begins when the session enters a stage that
publishes, and what it has handed over since, accepted or not, is the beginning of the payload
(`Attempted`). While the session is in that stage and has not failed, its cursor stands behind what
was handed over, so the stage is left by the write that completes the payload and by no other. -/

namespace BrokerTrial

def Request.written? : Request → Option (Publication × List UInt8)
  | .publish p data => some (p, data)
  | _ => none

theorem Standing.failed_reason_ne (s : Standing) (reason : String) :
    (s.failed reason).verdict.reason ≠ none := by
  show s.verdict.reason.or (some reason) ≠ none
  simp

theorem Stage.ne_of_next {stage stage' : Stage} (hn : stage.next? .advance = some stage') :
    stage' ≠ stage := by
  rintro rfl
  exact (Stage.rank_lt_of_next hn).false

namespace Session

def Plan.write (plan : Plan) (qos : Int) (chunk : Chunk) : Publication × List UInt8 :=
  (⟨plan.publishTopic, qos, plan.chunker.total, chunk.final⟩, chunk.data)

namespace Step

/-- What is handed over for publishing, whether the transport accepts it or not. -/
def written (m : Step) : List (Publication × List UInt8) :=
  m.requests.filterMap Request.written?

def begins? (m : Step) : Option Int :=
  if m.after.session.stage = m.before.session.stage then none else m.after.session.stage.publishQos?

end Step

def attemptQos? (course : List Step) : Option Int := (course.filterMap Step.begins?).getLast?

/-- What was handed over since a publishing stage was entered last. -/
def attempt (course : List Step) : List (Publication × List UInt8) :=
  (course.rtakeWhile fun m => m.begins?.isNone).flatMap Step.written

section

variable {course : List Step} {m : Step} {qos : Int}

theorem attemptQos?_begin (h : m.begins? = some qos) : attemptQos? (course ++ [m]) = some qos := by
  simp [attemptQos?, h]

theorem attemptQos?_keep (h : m.begins? = none) :
    attemptQos? (course ++ [m]) = attemptQos? course := by
  simp [attemptQos?, h]

theorem attempt_begin (h : m.begins? = some qos) : attempt (course ++ [m]) = [] := by
  simp [attempt, h]

theorem attempt_keep (h : m.begins? = none) :
    attempt (course ++ [m]) = attempt course ++ m.written := by
  simp [attempt, h]

theorem attempt_unbegun (h : attemptQos? course = none) :
    attempt course = course.flatMap Step.written := by
  rw [attemptQos?, List.getLast?_eq_none_iff, List.filterMap_eq_nil_iff] at h
  rw [attempt, List.rtakeWhile_eq_self_iff.2]
  intro m hm
  rw [h m hm]
  rfl

end

theorem Step.begins?_eq_none {m : Step}
    (h : m.after.session.stage = m.before.session.stage ∨
      m.after.session.stage.publishQos? = none) : m.begins? = none := by
  rw [begins?]
  split_ifs with hsame
  · rfl
  · exact h.resolve_left hsame

/-- The attempt that was begun last has handed over `n` chunks. -/
structure Attempted (plan : Plan) (course : List Step) (s : Standing) (n : Nat) : Prop where
  part : ∀ qos, attemptQos? course = some qos →
    attempt course = (plan.chunker.chunks.take n).map (plan.write qos)
  unbegun : attemptQos? course = none → attempt course = []
  current : ∀ qos, s.session.stage.publishQos? = some qos → attemptQos? course = some qos
  cursor : s.session.stage.publishQos?.isSome → s.verdict.reason = none →
    plan.chunker.Before s.session.position n
  unstarted : s.session.stage = .subscribe → s.session.position = 0

namespace Attempted

variable {plan : Plan} {course : List Step} {s s' : Standing} {i : Input} {m : Step} {n : Nat}
  {requests : List Request} {qos : Int} {chunk : Chunk}

theorem fresh (plan : Plan) : Attempted plan [] {} 0 :=
  ⟨nofun, fun _ => rfl, nofun, nofun, fun _ => rfl⟩

/-- Nothing is handed over, and either the session stays or it leaves the stage for one that does
not publish. -/
theorem keeps (h : Attempted plan course s n) (hbegins : m.begins? = none) (hnone : m.written = [])
    (hstage : s'.session.stage = s.session.stage ∧ s'.session.position = s.session.position ∨
      s'.session.stage.publishQos? = none ∧ s'.session.stage ≠ .subscribe)
    (hreason : s'.verdict.reason = none → s.verdict.reason = none) :
    Attempted plan (course ++ [m]) s' n := by
  have hsame : attempt (course ++ [m]) = attempt course := by
    rw [attempt_keep hbegins, hnone, List.append_nil]
  refine ⟨?_, ?_, ?_, ?_, ?_⟩
  · rw [attemptQos?_keep hbegins, hsame]
    exact h.part
  · rw [attemptQos?_keep hbegins, hsame]
    exact h.unbegun
  · rw [attemptQos?_keep hbegins]
    rcases hstage with ⟨hstage, -⟩ | ⟨hwaits, -⟩
    · rw [hstage]
      exact h.current
    · rw [hwaits]
      exact nofun
  · rcases hstage with ⟨hstage, hposition⟩ | ⟨hwaits, -⟩
    · rw [hstage, hposition]
      exact fun hq hopen => h.cursor hq (hreason hopen)
    · rw [hwaits]
      exact nofun
  · rcases hstage with ⟨hstage, hposition⟩ | ⟨-, hsub⟩
    · rw [hstage, hposition]
      exact h.unstarted
    · exact fun h' => absurd h' hsub

theorem begins (hbegins : m.begins? = some qos) (hq : s'.session.stage.publishQos? = some qos)
    (hposition : s'.session.position = 0) : Attempted plan (course ++ [m]) s' 0 := by
  refine ⟨?_, ?_, ?_, ?_, fun _ => hposition⟩
  · intro qos' _
    rw [attempt_begin hbegins]
    rfl
  · intro _
    exact attempt_begin hbegins
  · intro qos' hq'
    rw [attemptQos?_begin hbegins, ← hq, hq']
  · intro _ _
    rw [hposition]
    exact .start plan.chunker

theorem attempt_concat_eq (h : Attempted plan course s n)
    (hq : s.session.stage.publishQos? = some qos) (hreason : s.verdict.reason = none)
    (hc : plan.chunker.chunkAt s.session.position = .ok chunk) :
    attempt course ++ [plan.write qos chunk] =
      (plan.chunker.chunks.take (n + 1)).map (plan.write qos) := by
  have hcursor := h.cursor (Option.isSome_of_eq_some hq) hreason
  rw [h.part qos (h.current qos hq), hcursor.take_succ hc, List.map_append]
  rfl

theorem writes (h : Attempted plan course s n) (hq : s.session.stage.publishQos? = some qos)
    (hreason : s.verdict.reason = none) (hc : plan.chunker.chunkAt s.session.position = .ok chunk)
    (hbegins : m.begins? = none) (hwritten : m.written = [plan.write qos chunk])
    (hstage : s'.session.stage = s.session.stage ∨ s'.session.stage.publishQos? = none)
    (hsub : s'.session.stage ≠ .subscribe)
    (hcursor : s'.session.stage.publishQos?.isSome → s'.verdict.reason = none →
      plan.chunker.Before s'.session.position (n + 1)) :
    Attempted plan (course ++ [m]) s' (n + 1) := by
  have hattempt := h.current qos hq
  refine ⟨?_, ?_, ?_, hcursor, fun h' => absurd h' hsub⟩
  · intro qos' hq'
    rw [attemptQos?_keep hbegins, hattempt] at hq'
    obtain rfl := Option.some.inj hq'
    rw [attempt_keep hbegins, hwritten]
    exact h.attempt_concat_eq hq hreason hc
  · intro hnone
    rw [attemptQos?_keep hbegins, hattempt] at hnone
    cases hnone
  · intro qos' hq'
    rw [attemptQos?_keep hbegins]
    rcases hstage with hsame | hother
    · exact h.current qos' (hsame ▸ hq')
    · cases hother.symm.trans hq'

theorem rests (h : Attempted plan course s n) (hstage : s'.session.stage = s.session.stage)
    (hposition : s'.session.position = s.session.position)
    (hnone : requests.filterMap Request.written? = [])
    (hreason : s'.verdict.reason = none → s.verdict.reason = none) :
    ∃ n, Attempted plan (course ++ [⟨s, i, s', requests⟩]) s' n :=
  ⟨n, h.keeps (Step.begins?_eq_none (.inl hstage)) hnone (.inl ⟨hstage, hposition⟩) hreason⟩

theorem enters (hne : s'.session.stage ≠ s.session.stage)
    (hq : s'.session.stage.publishQos?.isSome) (hposition : s'.session.position = 0) :
    ∃ n, Attempted plan (course ++ [⟨s, i, s', requests⟩]) s' n := by
  obtain ⟨qos, hqos⟩ := Option.isSome_iff_exists.1 hq
  have hbegins : (Step.mk s i s' requests).begins? = some qos := by
    rw [Step.begins?, if_neg hne, hqos]
  exact ⟨0, begins hbegins hqos hposition⟩

theorem does (h : Attempted plan course s n) (hsettled : Settled s)
    (hd : Does plan s i s' requests) :
    ∃ n, Attempted plan (course ++ [⟨s, i, s', requests⟩]) s' n := by
  cases hd with
  | raises _ => exact h.rests rfl rfl rfl id
  | interrupted => exact h.rests rfl rfl rfl id
  | reacts hr =>
    cases hr with
    | idle _ => exact h.rests rfl rfl rfl id
    | established => exact h.rests rfl rfl rfl id
    | lost _ _ => exact h.rests rfl rfl rfl (absurd · (Standing.failed_reason_ne _ _))
    | subscribes _ _ _ _ => exact h.rests rfl rfl rfl id
    | subscribeRejected _ _ _ _ =>
      exact h.rests rfl rfl rfl (absurd · (Standing.failed_reason_ne _ _))
    | confirmed _ hs _ =>
      refine enters ?_ rfl (h.unstarted hs)
      rw [hs]
      rintro ⟨⟩
    | publishes ht hq hc _ hmore =>
      have hopen := hsettled.reason_eq_none ht
      have hcursor := h.cursor (Option.isSome_of_eq_some hq) hopen
      refine ⟨n + 1, h.writes hq hopen hc (Step.begins?_eq_none (.inl rfl)) rfl (.inl rfl)
        (Stage.ne_subscribe_of_publishQos hq) fun _ _ => ?_⟩
      rcases hcursor.next hc with ⟨hend, -⟩ | ⟨hnext, -⟩
      · exact absurd hend hmore
      · exact hnext
    | completes ht hq hc _ _ hn =>
      have hwaits := Stage.publishQos_of_written hq hn
      refine ⟨n + 1, h.writes hq (hsettled.reason_eq_none ht) hc
        (Step.begins?_eq_none (.inr hwaits)) rfl (.inr hwaits) (Stage.ne_subscribe_of_next hn)
        fun hq' => ?_⟩
      rw [Standing.withSession, hwaits] at hq'
      cases hq'
    | publishRejected ht hq hc _ =>
      exact ⟨n + 1, h.writes hq (hsettled.reason_eq_none ht) hc
        (Step.begins?_eq_none (.inl rfl)) rfl (.inl rfl) (Stage.ne_subscribe_of_publishQos hq)
        fun _ hreason => absurd hreason (Standing.failed_reason_ne _ _)⟩
    | acknowledged _ hn hq => exact enters (Stage.ne_of_next hn) hq rfl
    | skipped _ hn _ hq =>
      exact ⟨n, h.keeps (Step.begins?_eq_none (.inr hq)) rfl
        (.inr ⟨hq, Stage.ne_subscribe_of_next hn⟩) id⟩
    | finished _ _ =>
      exact ⟨n, h.keeps (Step.begins?_eq_none (.inr rfl)) rfl (.inr ⟨rfl, by rintro ⟨⟩⟩) id⟩
    | resends _ hs _ =>
      refine enters ?_ rfl rfl
      rw [hs]
      rintro ⟨⟩
    | givesUp _ _ _ => exact h.rests rfl rfl rfl (absurd · (Standing.failed_reason_ne _ _))

/-- Every course has come some way with the attempt that it is at. -/
theorem of_trace (plan : Plan) (inputs : List Input) :
    ∃ n, Attempted plan (trace plan {} inputs) (run plan {} inputs) n := by
  have hall := course_induction plan {}
    (P := fun course s => Settled s ∧ ∃ n, Attempted plan course s n)
    ⟨.fresh, 0, fresh plan⟩ ?_ inputs
  · exact hall.2
  · rintro course s i s' requests ⟨hsettled, n, h⟩ hd
    exact ⟨hsettled.does hd, h.does hsettled hd⟩

/-- A write leaves a publishing stage exactly if it is accepted and completes the payload. -/
theorem leaves_iff (h : Attempted plan course s n) (hsettled : Settled s)
    (hq : s.session.stage.publishQos? = some qos) {accepts : Request → Bool}
    (hd : Does plan s (.event .writeOpportunity accepts) s' requests) :
    s'.session.stage ≠ s.session.stage ↔
      ∃ p data, requests.filterMap Request.written? = [(p, data)] ∧
        accepts (.publish p data) = true ∧
        attempt course ++ [(p, data)] = plan.chunker.chunks.map (plan.write qos) := by
  cases hd with
  | raises _ => simp
  | reacts hr =>
    cases hr with
    | idle _ => simp
    | lost hloss _ => cases hloss
    | subscribes _ hs _ _ => exact absurd hs (Stage.ne_subscribe_of_publishQos hq)
    | subscribeRejected _ hs _ _ => exact absurd hs (Stage.ne_subscribe_of_publishQos hq)
    | publishes ht hq' hc ha hmore =>
      obtain rfl := Option.some.inj (hq'.symm.trans hq)
      have hopen := hsettled.reason_eq_none ht
      have hcursor := h.cursor (Option.isSome_of_eq_some hq) hopen
      refine iff_of_false (fun hne => hne rfl) ?_
      rintro ⟨p, data, hwritten, -, hwhole⟩
      -- one chunk at least is still missing
      rw [← List.singleton_injective hwritten] at hwhole
      have hlength := congrArg List.length ((h.attempt_concat_eq hq hopen hc).symm.trans hwhole)
      rw [List.length_map, List.length_map, List.length_take] at hlength
      rcases hcursor.next hc with ⟨hend, -⟩ | ⟨hnext, -⟩
      · exact hmore hend
      · have hlt := hnext.lt_length
        omega
    | completes ht hq' hc ha hend hn =>
      obtain rfl := Option.some.inj (hq'.symm.trans hq)
      have hopen := hsettled.reason_eq_none ht
      have hcursor := h.cursor (Option.isSome_of_eq_some hq) hopen
      refine iff_of_true (Stage.ne_of_next hn) ⟨_, _, rfl, ha, ?_⟩
      refine (h.attempt_concat_eq hq hopen hc).trans ?_
      rcases hcursor.next hc with ⟨-, hlast, -⟩ | ⟨hnext, -⟩
      · rw [hlast, List.take_length]
      · exact absurd hend hnext.lt_total.ne
    | publishRejected ht hq' hc ha =>
      refine iff_of_false (fun hne => hne rfl) ?_
      rintro ⟨p, data, hwritten, haccepted, -⟩
      obtain ⟨rfl, rfl⟩ := Prod.mk.inj (List.singleton_injective hwritten)
      rw [ha] at haccepted
      cases haccepted

end Attempted

/-- Every attempt writes the payload from its start, chunk by chunk. The cursor stays on a chunk
boundary inside the payload. What was handed over since a publishing stage was entered last is a
beginning of the chunks, at the quality of service of that stage. In such a stage, unless the run
has failed, it joins to the payload up to the cursor, and a write leaves the stage exactly if it is
accepted and completes the chunks. -/
theorem attempt_in_order (plan : Plan) (inputs : List Input) :
    let course := trace plan {} inputs
    let s := run plan {} inputs
    let writes (qos : Int) := plan.chunker.chunks.map (plan.write qos)
    (0 ≤ s.session.position ∧ s.session.position < plan.chunker.total ∧
        (plan.chunker.size : Int) ∣ s.session.position) ∧
      (attemptQos? course = none → course.flatMap Step.written = []) ∧
      (∀ qos, attemptQos? course = some qos → attempt course <+: writes qos) ∧
      ∀ qos, s.session.stage.publishQos? = some qos →
        attemptQos? course = some qos ∧
          (s.verdict.reason = none →
            ((attempt course).flatMap fun w => w.2) =
              plan.chunker.payload.take s.session.position.toNat) ∧
          ∀ accepts : Request → Bool,
            let m := stepOf plan s (.event .writeOpportunity accepts)
            m.after.session.stage ≠ s.session.stage ↔
              ∃ p data, m.written = [(p, data)] ∧ accepts (.publish p data) = true ∧
                attempt course ++ [(p, data)] = writes qos := by
  intro course s writes
  obtain ⟨n, h⟩ := Attempted.of_trace plan inputs
  have hsettled : Settled s := .of_run plan inputs
  obtain ⟨k, hk⟩ : InFront plan s :=
    run_holds (fun _ _ _ _ h hd => h.does hd) (inFront_fresh plan) inputs
  refine ⟨⟨hk.nonneg, hk.lt_total, ?_⟩, ?_, ?_, ?_⟩
  · rw [hk.position_eq]
    exact Int.natCast_dvd_natCast.2 (Nat.dvd_mul_left _ _)
  · intro hnone
    rw [← attempt_unbegun hnone]
    exact h.unbegun hnone
  · intro qos hqos
    rw [h.part qos hqos]
    exact (List.take_prefix n _).map _
  · intro qos hq
    refine ⟨h.current qos hq, ?_, ?_⟩
    · intro hreason
      have hcursor := h.cursor (Option.isSome_of_eq_some hq) hreason
      rw [h.part qos (h.current qos hq), List.flatMap_map, hcursor.position_eq, Int.toNat_natCast]
      exact plan.chunker.take_data n
    · intro accepts m
      exact h.leaves_iff hsettled hq (stepOf_does plan s _)

theorem briefPlan_chunks : briefPlan.chunker.chunks = [⟨[1, 2], false⟩, ⟨[3], true⟩] := by
  simp [briefPlan, Chunker.chunks, Chunker.chunksOf, Chunker.cut]

/-- With the first of two chunks written at QoS 1, one more write leaves the stage. -/
theorem second_write_leaves :
    let s := run briefPlan {} (inTurn.take 6)
    s.session.position = 2 ∧
      ((attempt (trace briefPlan {} (inTurn.take 6))).flatMap fun w => w.2) = [1, 2] ∧
      (stepOf briefPlan s (.event .writeOpportunity fun _ => true)).after.session.stage ≠
        s.session.stage := by
  intro s
  obtain ⟨-, hjoined, hleaves⟩ := (attempt_in_order briefPlan (inTurn.take 6)).2.2.2 1 rfl
  refine ⟨rfl, hjoined rfl, (hleaves fun _ => true).2 ⟨_, _, rfl, rfl, ?_⟩⟩
  show _ = briefPlan.chunker.chunks.map (briefPlan.write 1)
  rw [briefPlan_chunks]
  rfl

end Session

end BrokerTrial

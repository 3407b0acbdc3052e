import BrokerTrial.Session.Handle
import Mathlib.Tactic

/-! Everything that a session can do with one event. `Reacts` lists it case by case: the guard, the
new standing, and the requests in their order. `handle_reacts` says that there is nothing else, and
`handle_error` that an event which raises leaves no trace. -/

namespace BrokerTrial

namespace Standing

@[simp] theorem terminated_eq_false_iff (s : Standing) :
    s.terminated = false ↔ s.session.stage ≠ .finish ∧ s.verdict.interrupted = false := by
  rw [terminated, Bool.or_eq_false_iff, decide_eq_false_iff_not, stage]

def failed (s : Standing) (reason : String) : Standing :=
  { s with verdict := s.verdict.fail reason }

def withSession (s : Standing) (session : Session) : Standing := { s with session }

end Standing

def Effect.requests (effects : List Effect) : List Request := effects.filterMap Effect.request?

namespace Effect

@[simp] theorem requests_nil : requests [] = [] := rfl

@[simp] theorem requests_log (entry : Log.Entry) (effects : List Effect) :
    requests (.log entry :: effects) = requests effects := rfl

@[simp] theorem requests_deliver (topic : String) (payload : List UInt8) (effects : List Effect) :
    requests (.deliver topic payload :: effects) = requests effects := rfl

@[simp] theorem requests_request (r : Request) (effects : List Effect) :
    requests (.request r :: effects) = r :: requests effects := rfl

@[simp] theorem requests_append (first rest : List Effect) :
    requests (first ++ rest) = requests first ++ requests rest :=
  List.filterMap_append

@[simp] theorem requests_map_log (entries : List Log.Entry) : requests (entries.map .log) = [] := by
  induction entries with
  | nil => rfl
  | cons entry rest ih => simpa using ih

end Effect

theorem Stage.ne_finish_of_written {stage stage' : Stage} {qos : Int}
    (hq : stage.publishQos? = some qos) (hn : stage.next? .advance = some stage') :
    stage' ≠ .finish := by
  rintro rfl
  cases stage <;> cases hq <;> cases hn

namespace Session

def Reaction.requests (r : Reaction) : List Request := Effect.requests r.effects

@[simp] theorem Reaction.requests_mk (s : Standing) (effects : List Effect)
    (error : Option Error) : Reaction.requests ⟨s, effects, error⟩ = Effect.requests effects := rfl

@[simp] theorem Reaction.requests_after (r : Reaction) (effects : List Effect) :
    (r.after effects).requests = Effect.requests effects ++ r.requests := by
  simp [requests, after]

theorem abort_of_finish {s : Standing} (h : s.session.stage = .finish) (reason : String) :
    (abort s reason).standing = s ∧ (abort s reason).requests = [] ∧
      (abort s reason).error = none := by
  simp [abort, Standing.stage, h, Reaction.requests]

theorem abort_of_ne_finish {s : Standing} (h : s.session.stage ≠ .finish) (reason : String) :
    (abort s reason).standing = s.failed reason ∧ (abort s reason).requests = [.cancel] ∧
      (abort s reason).error = none := by
  simp [abort, Standing.stage, h, Reaction.requests, Standing.failed]

end Session

/-- Events that a session in this standing only takes note of. -/
def Event.Idle (s : Standing) : Event → Prop
  | .connectionEstablished => False
  | .connectionFailed _ | .connectionClosed => s.session.stage = .finish
  | .subscribed =>
    s.terminated ∨ s.session.stage ≠ .subscribe ∨ s.session.subscribePending = false
  | .writeOpportunity =>
    s.terminated ∨ s.session.stage = .subscribe ∧ s.session.subscribePending ∨
      s.session.stage ≠ .subscribe ∧ s.session.stage.publishQos? = none
  | .acknowledged => s.terminated
  | .resendRequested _ => s.terminated ∨ s.session.stage ≠ .waitAck1
  | .messageReceived _ payload => payload.isSome
  | .serviceCancelled | .unspecific => True

def Event.loss? : Event → Option String
  | .connectionFailed message => some s!"connection error: {Session.failureText message}"
  | .connectionClosed => some "connection closed"
  | _ => none

namespace Session

/-- What a session makes of an event, if it raises no error: the new standing and the requests. -/
inductive Reacts (plan : Plan) (accepts : Request → Bool) (s : Standing) :
    Event → Standing → List Request → Prop
  | idle {e : Event} : e.Idle s → Reacts plan accepts s e s []
  | established : Reacts plan accepts s .connectionEstablished s [.write]
  | lost {e : Event} {reason : String} : e.loss? = some reason → s.session.stage ≠ .finish →
      Reacts plan accepts s e (s.failed reason) [.cancel]
  | subscribes : s.terminated = false → s.session.stage = .subscribe →
      s.session.subscribePending = false → accepts (.subscribe plan.topics) = true →
      Reacts plan accepts s .writeOpportunity
        (s.withSession { s.session with subscribePending := true }) [.subscribe plan.topics]
  | subscribeRejected : s.terminated = false → s.session.stage = .subscribe →
      s.session.subscribePending = false → accepts (.subscribe plan.topics) = false →
      Reacts plan accepts s .writeOpportunity (s.failed "subscribe rejected by transport")
        [.subscribe plan.topics, .cancel]
  | confirmed : s.terminated = false → s.session.stage = .subscribe →
      s.session.subscribePending = true →
      Reacts plan accepts s .subscribed
        (s.withSession { s.session with subscribePending := false, stage := .publishQos0 })
        [.write]
  /-- A chunk that is not the last one. -/
  | publishes {qos : Int} {chunk : Chunk} : s.terminated = false →
      s.session.stage.publishQos? = some qos →
      plan.chunker.chunkAt s.session.position = .ok chunk →
      accepts (.publish ⟨plan.publishTopic, qos, plan.chunker.total, chunk.final⟩ chunk.data) →
      s.session.position + chunk.data.length ≠ plan.chunker.total →
      Reacts plan accepts s .writeOpportunity
        (s.withSession { s.session with position := s.session.position + chunk.data.length })
        [.publish ⟨plan.publishTopic, qos, plan.chunker.total, chunk.final⟩ chunk.data, .write]
  /-- The last chunk. -/
  | completes {qos : Int} {chunk : Chunk} {stage : Stage} : s.terminated = false →
      s.session.stage.publishQos? = some qos →
      plan.chunker.chunkAt s.session.position = .ok chunk →
      accepts (.publish ⟨plan.publishTopic, qos, plan.chunker.total, chunk.final⟩ chunk.data) →
      s.session.position + chunk.data.length = plan.chunker.total →
      s.session.stage.next? .advance = some stage →
      Reacts plan accepts s .writeOpportunity
        (s.withSession { s.session with position := 0, stage })
        [.publish ⟨plan.publishTopic, qos, plan.chunker.total, chunk.final⟩ chunk.data]
  | publishRejected {qos : Int} {chunk : Chunk} : s.terminated = false →
      s.session.stage.publishQos? = some qos →
      plan.chunker.chunkAt s.session.position = .ok chunk →
      accepts (.publish ⟨plan.publishTopic, qos, plan.chunker.total, chunk.final⟩ chunk.data) =
        false →
      Reacts plan accepts s .writeOpportunity
        (s.failed s!"publish at QoS{qos} rejected by transport")
        [.publish ⟨plan.publishTopic, qos, plan.chunker.total, chunk.final⟩ chunk.data, .cancel]
  /-- An acknowledgement that leads to a stage that publishes. -/
  | acknowledged {stage : Stage} : s.terminated = false →
      s.session.stage.next? .advance = some stage → stage.publishQos?.isSome →
      Reacts plan accepts s .acknowledged
        (s.withSession { s.session with stage, resends := 0, position := 0 }) [.write]
  /-- An acknowledgement out of turn, while a publish is being written. -/
  | skipped {stage : Stage} : s.terminated = false →
      s.session.stage.next? .advance = some stage → stage ≠ .finish → stage.publishQos? = none →
      Reacts plan accepts s .acknowledged (s.withSession { s.session with stage }) []
  | finished : s.terminated = false → s.session.stage = .waitAck1 →
      Reacts plan accepts s .acknowledged
        ⟨{ s.session with stage := .finish }, s.verdict.succeed⟩ [.cancel]
  | resends {attempt : Int} : s.terminated = false → s.session.stage = .waitAck1 →
      plan.limit.allows (s.session.resends + 1) →
      Reacts plan accepts s (.resendRequested attempt)
        (s.withSession { s.session with
          resends := s.session.resends + 1, stage := .publishQos1, position := 0 }) [.write]
  | givesUp {attempt : Int} : s.terminated = false → s.session.stage = .waitAck1 →
      plan.limit.allows (s.session.resends + 1) = false →
      Reacts plan accepts s (.resendRequested attempt)
        ((s.withSession { s.session with resends := s.session.resends + 1 }).failed
          s!"QoS1 publish not acknowledged after {s.session.resends + 1} resend requests")
        [.cancel]

/-- The errors of a session: a message without payload, or a position outside the payload. -/
inductive Raises (plan : Plan) (s : Standing) : Event → Error → Prop
  | noPayload {topic : String} : Raises plan s (.messageReceived topic none) (.noPayload topic)
  | chunk {qos : Int} {e : Chunker.Error} : s.terminated = false →
      s.session.stage.publishQos? = some qos →
      plan.chunker.chunkAt s.session.position = .error e →
      Raises plan s .writeOpportunity (.chunk e)

def Reaction.To (plan : Plan) (accepts : Request → Bool) (s : Standing) (e : Event)
    (r : Reaction) : Prop :=
  match r.error with
  | none => Reacts plan accepts s e r.standing r.requests
  | some error => Raises plan s e error ∧ r.standing = s ∧ r.requests = []

section Handlers

variable {plan : Plan} {accepts : Request → Bool} {s : Standing}

theorem Reaction.to_of_reacts {e : Event} {r : Reaction} {s' : Standing} {requests : List Request}
    (h : Reacts plan accepts s e s' requests) (herror : r.error = none) (hs : r.standing = s')
    (hq : r.requests = requests) : r.To plan accepts s e := by
  subst hs hq
  rw [Reaction.To, herror]
  exact h

theorem lost_to {e : Event} {reason : String} (h : e.loss? = some reason) (effects : List Effect)
    (hq : Effect.requests effects = []) :
    ((abort s reason).after effects).To plan accepts s e := by
  by_cases hf : s.session.stage = .finish
  · obtain ⟨h1, h2, h3⟩ := abort_of_finish hf reason
    have hidle : e.Idle s := by
      cases e <;> first | exact hf | simp [Event.loss?] at h
    exact Reaction.to_of_reacts (.idle hidle) h3 h1 (by simp [h2, hq])
  · obtain ⟨h1, h2, h3⟩ := abort_of_ne_finish hf reason
    exact Reaction.to_of_reacts (.lost h hf) h3 h1 (by simp [h2, hq])

theorem subscribe_to (ht : s.terminated = false) (hs : s.session.stage = .subscribe)
    (hp : s.session.subscribePending = false) :
    (subscribe plan accepts s).To plan accepts s .writeOpportunity := by
  have hf : s.session.stage ≠ .finish := by simp [hs]
  unfold subscribe
  cases ha : accepts (.subscribe plan.topics) with
  | true =>
    dsimp only
    rw [if_pos ha]
    exact Reaction.to_of_reacts (.subscribes ht hs hp ha) rfl rfl rfl
  | false =>
    obtain ⟨h1, h2, h3⟩ := abort_of_ne_finish hf "subscribe rejected by transport"
    dsimp only
    rw [if_neg (by simp [ha])]
    exact Reaction.to_of_reacts (.subscribeRejected ht hs hp ha) h3 h1 (by simp [h2])

theorem take_of_next {edge : Edge} {stage : Stage} (h : s.session.stage.next? edge = some stage) :
    ∃ entry, take s edge = .ok (s.withSession { s.session with stage }, .log entry) := by
  simp [take, Standing.stage, h, Standing.withSession]

theorem written_to {qos : Int} {chunk : Chunk} (ht : s.terminated = false)
    (hs : s.session.stage.publishQos? = some qos)
    (hc : plan.chunker.chunkAt s.session.position = .ok chunk)
    (ha : accepts (.publish ⟨plan.publishTopic, qos, plan.chunker.total, chunk.final⟩ chunk.data))
    (effects : List Effect) (hq : Effect.requests effects =
      [.publish ⟨plan.publishTopic, qos, plan.chunker.total, chunk.final⟩ chunk.data]) :
    ((written plan s chunk).after effects).To plan accepts s .writeOpportunity := by
  unfold written
  by_cases hl : s.session.position + chunk.data.length = plan.chunker.total
  · obtain ⟨stage, hn⟩ : ∃ stage, s.session.stage.next? .advance = some stage := by
      revert hs; cases s.session.stage <;> simp [Stage.publishQos?, Stage.next?]
    obtain ⟨entry, hk⟩ := take_of_next (s := s.withSession { s.session with position := 0 }) hn
    have h := Reacts.completes ht hs hc ha hl hn
    dsimp only
    rw [if_pos hl]
    simp only [Standing.withSession] at hk
    rw [hk]
    exact Reaction.to_of_reacts h rfl rfl (by simp [hq])
  · have h := Reacts.publishes ht hs hc ha hl
    dsimp only
    rw [if_neg hl]
    exact Reaction.to_of_reacts h rfl rfl (by simp [hq])

theorem publishNext_to {qos : Int} (ht : s.terminated = false)
    (hs : s.session.stage.publishQos? = some qos) :
    (publishNext plan accepts s qos).To plan accepts s .writeOpportunity := by
  have hf : s.session.stage ≠ .finish := by
    intro hf; simp [hf, Stage.publishQos?] at hs
  unfold publishNext
  cases hc : plan.chunker.chunkAt s.session.position with
  | error e => exact ⟨.chunk ht hs hc, rfl, rfl⟩
  | ok chunk =>
    dsimp only
    cases ha : accepts (.publish ⟨plan.publishTopic, qos, plan.chunker.total, chunk.final⟩
        chunk.data) with
    | true =>
      rw [if_pos rfl]
      exact written_to ht hs hc ha _ rfl
    | false =>
      obtain ⟨h1, h2, h3⟩ := abort_of_ne_finish hf s!"publish at QoS{qos} rejected by transport"
      rw [if_neg (by simp)]
      refine Reaction.to_of_reacts (.publishRejected ht hs hc ha) h3 h1 ?_
      rw [Reaction.requests_after, h2]
      rfl

theorem onWriteOpportunity_to :
    (onWriteOpportunity plan accepts s).To plan accepts s .writeOpportunity := by
  unfold onWriteOpportunity
  cases ht : s.terminated with
  | true => exact .idle (.inl ht)
  | false =>
    rw [if_neg (by simp), Standing.stage]
    by_cases hs : s.session.stage = .subscribe
    · rw [if_pos hs]
      cases hp : s.session.subscribePending with
      | true => exact .idle (.inr (.inl ⟨hs, hp⟩))
      | false => exact subscribe_to ht hs hp
    · rw [if_neg hs]
      cases hq : s.session.stage.publishQos? with
      | some qos => exact publishNext_to ht hq
      | none => exact .idle (.inr (.inr ⟨hs, hq⟩))

theorem onSubscribed_to : (onSubscribed s).To plan accepts s .subscribed := by
  unfold onSubscribed
  cases ht : s.terminated with
  | true => exact .idle (.inl ht)
  | false =>
    dsimp only
    rw [if_neg (by simp)]
    by_cases hs : s.session.stage = .subscribe ∧ s.session.subscribePending = true
    · obtain ⟨hs, hp⟩ := hs
      have hn : s.session.stage.next? .advance = some .publishQos0 := by rw [hs]; rfl
      obtain ⟨entry, hk⟩ :=
        take_of_next (s := s.withSession { s.session with subscribePending := false }) hn
      rw [if_neg (by simp [Standing.stage, hs, hp])]
      simp only [Standing.withSession] at hk
      rw [hk]
      exact Reaction.to_of_reacts (.confirmed ht hs hp) rfl rfl rfl
    · have hs : s.session.stage ≠ .subscribe ∨ s.session.subscribePending = false := by
        simpa [Decidable.or_iff_not_imp_left] using hs
      rw [if_pos (by simpa [Standing.stage] using hs)]
      exact .idle (.inr hs)

theorem onAcknowledged_to : (onAcknowledged s).To plan accepts s .acknowledged := by
  unfold onAcknowledged
  cases ht : s.terminated with
  | true => exact .idle ht
  | false =>
    obtain ⟨⟨stage, position, resends, pending⟩, verdict⟩ := s
    cases stage with
    | subscribe => exact .acknowledged ht rfl rfl
    | publishQos0 => exact .skipped ht rfl nofun rfl
    | waitAck0 => exact .acknowledged ht rfl rfl
    | publishQos1 => exact .skipped ht rfl nofun rfl
    | waitAck1 => exact .finished ht rfl
    | finish => simp at ht

theorem onResendRequested_to (attempt : Int) :
    (onResendRequested plan s attempt).To plan accepts s (.resendRequested attempt) := by
  unfold onResendRequested
  cases ht : s.terminated with
  | true => exact .idle (.inl ht)
  | false =>
    dsimp only
    rw [if_neg (by simp)]
    by_cases hs : s.session.stage = .waitAck1
    · rw [if_neg (by simpa [Standing.stage] using hs)]
      cases ha : plan.limit.allows (s.session.resends + 1) with
      | true =>
        have hn : s.session.stage.next? .resend = some .publishQos1 := by rw [hs]; rfl
        obtain ⟨entry, hk⟩ := take_of_next
          (s := s.withSession { s.session with resends := s.session.resends + 1 }) hn
        rw [if_pos rfl]
        simp only [Standing.withSession] at hk
        rw [hk]
        exact Reaction.to_of_reacts (.resends ht hs ha) rfl rfl rfl
      | false =>
        have hf : s.session.stage ≠ .finish := by simp [hs]
        obtain ⟨h1, h2, h3⟩ := abort_of_ne_finish
          (s := s.withSession { s.session with resends := s.session.resends + 1 }) hf
          s!"QoS1 publish not acknowledged after {s.session.resends + 1} resend requests"
        rw [if_neg (by simp)]
        refine Reaction.to_of_reacts (.givesUp ht hs ha) h3 h1 ?_
        rw [Reaction.requests_after]
        exact h2
    · rw [if_pos (by simpa [Standing.stage] using hs)]
      exact .idle (.inr hs)

end Handlers

/-- A session does nothing that is not listed. -/
theorem handle_to (plan : Plan) (accepts : Request → Bool) (s : Standing) (e : Event) :
    (handle plan accepts s e).To plan accepts s e := by
  cases e with
  | connectionEstablished => exact .established
  | connectionFailed message => exact lost_to rfl _ rfl
  | connectionClosed => exact lost_to rfl _ rfl
  | subscribed => exact onSubscribed_to
  | writeOpportunity => exact onWriteOpportunity_to
  | acknowledged => exact onAcknowledged_to
  | resendRequested attempt => exact onResendRequested_to attempt
  | messageReceived topic payload =>
    cases payload with
    | none => exact ⟨.noPayload, rfl, rfl⟩
    | some payload => exact .idle rfl
  | serviceCancelled => exact .idle trivial
  | unspecific => exact .idle trivial

theorem handle_reacts {plan : Plan} {accepts : Request → Bool} {s : Standing} {e : Event}
    (h : (handle plan accepts s e).error = none) :
    Reacts plan accepts s e (handle plan accepts s e).standing
      (handle plan accepts s e).requests := by
  simpa only [Reaction.To, h] using handle_to plan accepts s e

theorem handle_error {plan : Plan} {accepts : Request → Bool} {s : Standing} {e : Event}
    {error : Error} (h : (handle plan accepts s e).error = some error) :
    Raises plan s e error ∧ (handle plan accepts s e).standing = s ∧
      (handle plan accepts s e).requests = [] := by
  simpa only [Reaction.To, h] using handle_to plan accepts s e

/-- A session that publishes has a chunk at its position and publishes it. -/
theorem Reacts.publish_of_mem {plan : Plan} {accepts : Request → Bool} {s s' : Standing} {e : Event}
    {requests : List Request} {p : Publication} {data : List UInt8}
    (h : Reacts plan accepts s e s' requests) (hmem : .publish p data ∈ requests) :
    ∃ qos chunk, s.session.stage.publishQos? = some qos ∧
      plan.chunker.chunkAt s.session.position = .ok chunk ∧ data = chunk.data ∧
      p = ⟨plan.publishTopic, qos, plan.chunker.total, chunk.final⟩ := by
  cases h with
  | publishes ht hq hc =>
    obtain ⟨rfl, rfl⟩ := Request.publish.inj ((List.mem_cons.1 hmem).resolve_right (by simp))
    exact ⟨_, _, hq, hc, rfl, rfl⟩
  | completes ht hq hc =>
    obtain ⟨rfl, rfl⟩ := Request.publish.inj (List.mem_singleton.1 hmem)
    exact ⟨_, _, hq, hc, rfl, rfl⟩
  | publishRejected ht hq hc =>
    obtain ⟨rfl, rfl⟩ := Request.publish.inj ((List.mem_cons.1 hmem).resolve_right (by simp))
    exact ⟨_, _, hq, hc, rfl, rfl⟩
  | _ => simp at hmem

theorem publish_of_handle {plan : Plan} {accepts : Request → Bool} {s : Standing} {e : Event}
    {p : Publication} {data : List UInt8}
    (h : .request (.publish p data) ∈ (handle plan accepts s e).effects) :
    ∃ qos chunk, s.session.stage.publishQos? = some qos ∧
      plan.chunker.chunkAt s.session.position = .ok chunk ∧ data = chunk.data ∧
      p = ⟨plan.publishTopic, qos, plan.chunker.total, chunk.final⟩ := by
  have hmem : .publish p data ∈ (handle plan accepts s e).requests :=
    List.mem_filterMap.2 ⟨_, h, rfl⟩
  cases herror : (handle plan accepts s e).error with
  | some error =>
    rw [(handle_error herror).2.2] at hmem
    cases hmem
  | none => exact (handle_reacts herror).publish_of_mem hmem

end Session

end BrokerTrial

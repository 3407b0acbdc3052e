import BrokerTrial.Proofs.Cost
import BrokerTrial.Proofs.Finality

/-! Events that leave a session as it is. The only error that a session comes to is a message
without payload, which it raises before it does anything (`raises_iff`). An event that is spurious
where it arrives is taken note of and changes nothing, and no other event goes by like that
(`handle_unchanged_iff`); so spurious events can be struck from a course (`spurious_invisible`). -/

namespace BrokerTrial

/-- Whether a session in this standing does not wait for the event. -/
def Event.spurious (s : Standing) : Event → Bool
  | .writeOpportunity =>
    s.terminated || s.session.stage = .waitAck0 || s.session.stage = .waitAck1 ||
      s.session.stage = .subscribe && s.session.subscribePending
  | .subscribed =>
    !(!s.terminated && s.session.stage = .subscribe && s.session.subscribePending)
  | .resendRequested _ => !(!s.terminated && s.session.stage = .waitAck1)
  | .acknowledged => s.terminated
  | .connectionFailed _ | .connectionClosed => s.session.stage = .finish
  | .messageReceived _ payload => payload.isSome
  | .serviceCancelled | .unspecific => true
  | .connectionEstablished => false

/-- The spurious events are the ones that a session only takes note of. -/
theorem Event.spurious_iff_idle (s : Standing) (e : Event) : e.spurious s = true ↔ e.Idle s := by
  cases e with
  | writeOpportunity =>
    cases ht : s.terminated with
    | true => simp [spurious, Idle, ht]
    | false =>
      -- a stage that neither subscribes nor publishes waits for an acknowledgement
      have hf : s.session.stage ≠ .finish := ((Standing.terminated_eq_false_iff s).1 ht).1
      simp only [spurious, Idle, ht]
      cases hs : s.session.stage <;> simp_all [Stage.publishQos?]
  | subscribed =>
    cases ht : s.terminated <;> simp [spurious, Idle, ht]
  | resendRequested attempt => cases ht : s.terminated <;> simp [spurious, Idle, ht]
  | _ => simp [spurious, Idle]

namespace Session

variable {plan : Plan} {accepts : Request → Bool} {s s' : Standing} {e : Event}
  {requests : List Request}

/-- A session that publishes does not let a write go by. -/
theorem not_idle_of_publishQos {qos : Int} (ht : s.terminated = false)
    (hq : s.session.stage.publishQos? = some qos) : ¬ Event.writeOpportunity.Idle s := by
  intro hidle
  rcases hidle with hover | ⟨hs, -⟩ | ⟨-, hnone⟩
  · exact absurd hover (by simp [ht])
  · rw [hs] at hq
    cases hq
  · cases hq.symm.trans hnone

theorem Reacts.of_idle (h : Reacts plan accepts s e s' requests) (hidle : e.Idle s) :
    s' = s ∧ requests = [] := by
  cases h with
  | idle _ => exact ⟨rfl, rfl⟩
  | established => exact hidle.elim
  | lost hloss hf => cases e <;> first | exact absurd hidle hf | cases hloss
  | subscribes ht hs hp _ => simp [Event.Idle, ht, hs, hp] at hidle
  | subscribeRejected ht hs hp _ => simp [Event.Idle, ht, hs, hp] at hidle
  | confirmed ht hs hp => simp [Event.Idle, ht, hs, hp] at hidle
  | publishes ht hq _ _ _ => exact absurd hidle (not_idle_of_publishQos ht hq)
  | completes ht hq _ _ _ _ => exact absurd hidle (not_idle_of_publishQos ht hq)
  | publishRejected ht hq _ _ => exact absurd hidle (not_idle_of_publishQos ht hq)
  | resends ht hs _ => simp [Event.Idle, ht, hs] at hidle
  | givesUp ht hs _ => simp [Event.Idle, ht, hs] at hidle
  | acknowledged ht _ _ => exact absurd hidle (by simp [Event.Idle, ht])
  | skipped ht _ _ _ => exact absurd hidle (by simp [Event.Idle, ht])
  | finished ht _ => exact absurd hidle (by simp [Event.Idle, ht])

/-- Whatever is not only taken note of leaves a trace. -/
theorem Reacts.idle_of_unchanged (h : Reacts plan accepts s e s' requests) (hs : s' = s)
    (hq : requests = []) : e.Idle s := by
  cases h with
  | idle hidle => exact hidle
  | skipped _ hn _ _ =>
    have hstage := congrArg (fun s => s.session.stage.rank) hs
    exact absurd hstage (Stage.rank_lt_of_next hn).ne'
  | _ => exact absurd hq (List.cons_ne_nil _ _)

/-- An event goes by without a trace exactly if it is spurious or raises. -/
theorem handle_unchanged_iff (plan : Plan) (accepts : Request → Bool) (s : Standing) (e : Event) :
    (handle plan accepts s e).standing = s ∧ (handle plan accepts s e).requests = [] ↔
      e.spurious s = true ∨ (handle plan accepts s e).error.isSome = true := by
  cases herror : (handle plan accepts s e).error with
  | some error =>
    obtain ⟨-, hs, hq⟩ := handle_error herror
    exact iff_of_true ⟨hs, hq⟩ (.inr rfl)
  | none =>
    have hreacts := handle_reacts herror
    rw [Event.spurious_iff_idle]
    constructor
    · rintro ⟨hs, hq⟩
      exact .inl (hreacts.idle_of_unchanged hs hq)
    · rintro (hidle | hraises)
      · exact hreacts.of_idle hidle
      · cases hraises

/-! ### Errors -/

/-- In front of a chunk there is one to publish, so only a message without payload raises. -/
theorem Raises.of_inFront {error : Error} (h : Raises plan s e error) (hs : InFront plan s) :
    ∃ topic, e = .messageReceived topic none ∧ error = .noPayload topic := by
  cases h with
  | noPayload => exact ⟨_, rfl, rfl⟩
  | chunk _ _ hc =>
    obtain ⟨k, hk⟩ := hs
    rw [hk.chunkAt_eq_cut] at hc
    cases hc

/-- Whatever has happened to a session, it raises exactly for a message without payload, and that
leaves session, verdict and requests as they were. Neither a position outside the payload nor a
missing edge is ever come upon. -/
theorem raises_iff (plan : Plan) (inputs : List Input) (e : Event) (accepts : Request → Bool) :
    let s := run plan {} inputs
    let raised := (handle plan accepts s e).error
    let inputs' := inputs ++ [.event e accepts]
    (raised.isSome = true ↔ ∃ topic, e = .messageReceived topic none) ∧
      (∀ error, raised = some error →
        (∃ topic, error = .noPayload topic) ∧ run plan {} inputs' = s ∧
          requestsOf (trace plan {} inputs') = requestsOf (trace plan {} inputs)) ∧
      (∀ outside, raised ≠ some (.chunk outside)) ∧
      ∀ edge stage, raised ≠ some (.noTransition edge stage) := by
  intro s raised inputs'
  have hfront : InFront plan s :=
    run_holds (fun _ _ _ _ h hd => h.does hd) (inFront_fresh plan) inputs
  have hcause (error : Error) (h : raised = some error) :
      ∃ topic, e = .messageReceived topic none ∧ error = .noPayload topic :=
    (handle_error h).1.of_inFront hfront
  refine ⟨⟨?_, ?_⟩, ?_, ?_, ?_⟩
  · intro h
    obtain ⟨error, herror⟩ := Option.isSome_iff_exists.1 h
    obtain ⟨topic, he, -⟩ := hcause error herror
    exact ⟨topic, he⟩
  · rintro ⟨topic, rfl⟩
    rfl
  · intro error h
    obtain ⟨topic, -, herror⟩ := hcause error h
    obtain ⟨-, hstanding, hrequests⟩ := handle_error h
    refine ⟨⟨topic, herror⟩, ?_, ?_⟩
    · rw [run_append]
      exact hstanding
    · rw [trace_append, requestsOf, List.flatMap_append]
      simp only [trace, List.flatMap_singleton]
      show _ ++ (handle plan accepts s e).requests = _
      rw [hrequests, List.append_nil]
      rfl
  · intro outside h
    obtain ⟨topic, -, herror⟩ := hcause _ h
    cases herror
  · intro edge stage h
    obtain ⟨topic, -, herror⟩ := hcause _ h
    cases herror

/-- Between two chunks of a publish, a message without payload leaves the cursor where it is. -/
theorem broken_message_raised :
    let inputs := accepting [.writeOpportunity, .subscribed, .writeOpportunity]
    let broken : Event := .messageReceived "test/topic0" none
    (run briefPlan {} inputs).session.position = 2 ∧
      (handle briefPlan (fun _ => true) (run briefPlan {} inputs) broken).error.isSome = true ∧
      run briefPlan {} (inputs ++ [.event broken fun _ => true]) = run briefPlan {} inputs := by
  intro inputs broken
  obtain ⟨hraises, hleaves, -⟩ := raises_iff briefPlan inputs broken fun _ => true
  have hraised := hraises.2 ⟨_, rfl⟩
  obtain ⟨error, herror⟩ := Option.isSome_iff_exists.1 hraised
  exact ⟨rfl, hraised, (hleaves error herror).2.1⟩

/-! ### Spurious events -/

/-- A session with all that it has asked of its transport. -/
structure Record where
  standing : Standing := {}
  asked : List Request := []

namespace Record

/-- Handles an event. The transport has its answers ready, one for each request that sends. -/
def next (plan : Plan) (answers : Nat → Bool) (r : Record) (e : Event) : Record :=
  let reaction := handle plan (fun _ => answers (r.asked.countP Request.sends)) r.standing e
  ⟨reaction.standing, r.asked ++ reaction.requests⟩

def play (plan : Plan) (answers : Nat → Bool) (r : Record) (events : List Event) : Record :=
  events.foldl (next plan answers) r

/-- The events without those that are spurious when they are handled. -/
def essential (plan : Plan) (answers : Nat → Bool) (r : Record) : List Event → List Event
  | [] => []
  | e :: rest =>
    let later := essential plan answers (r.next plan answers e) rest
    if e.spurious r.standing then later else e :: later

theorem next_of_spurious {plan : Plan} {answers : Nat → Bool} {r : Record} {e : Event}
    (h : e.spurious r.standing = true) : r.next plan answers e = r := by
  obtain ⟨hstanding, hrequests⟩ := (handle_unchanged_iff plan
    (fun _ => answers (r.asked.countP Request.sends)) r.standing e).2 (.inl h)
  rw [next, hstanding, hrequests, List.append_nil]

section

variable (plan : Plan) (answers : Nat → Bool) (r : Record) (e : Event) (events : List Event)

theorem essential_of_spurious (h : e.spurious r.standing = true) :
    r.essential plan answers (e :: events) = r.essential plan answers events := by
  rw [essential, if_pos h, next_of_spurious h]

theorem essential_of_not_spurious (h : ¬ e.spurious r.standing = true) :
    r.essential plan answers (e :: events) =
      e :: (r.next plan answers e).essential plan answers events := by
  rw [essential, if_neg h]

theorem play_cons :
    r.play plan answers (e :: events) = (r.next plan answers e).play plan answers events := rfl

theorem play_essential :
    r.play plan answers (r.essential plan answers events) = r.play plan answers events := by
  induction events generalizing r with
  | nil => rfl
  | cons e rest ih =>
    by_cases h : e.spurious r.standing = true
    · rw [essential_of_spurious _ _ _ _ _ h, ih, play_cons, next_of_spurious h]
    · rw [essential_of_not_spurious _ _ _ _ _ h, play_cons, play_cons, ih]

/-- Of what is left, nothing is spurious when it is handled. -/
theorem essential_essential :
    r.essential plan answers (r.essential plan answers events) =
      r.essential plan answers events := by
  induction events generalizing r with
  | nil => rfl
  | cons e rest ih =>
    by_cases h : e.spurious r.standing = true
    · rw [essential_of_spurious _ _ _ _ _ h, ih]
    · rw [essential_of_not_spurious _ _ _ _ _ h, essential_of_not_spurious _ _ _ _ _ h, ih]

theorem essential_sublist : (r.essential plan answers events).Sublist events := by
  induction events generalizing r with
  | nil => exact .slnil
  | cons e rest ih =>
    by_cases h : e.spurious r.standing = true
    · rw [essential_of_spurious _ _ _ _ _ h]
      exact (ih r).cons e
    · rw [essential_of_not_spurious _ _ _ _ _ h]
      exact (ih _).cons_cons e

end

/-- Spurious events are invisible. If they are struck from a list of events, nothing spurious is
left, and the session still comes to the same standing with the same verdict and has asked the same
of its transport. -/
theorem spurious_invisible (plan : Plan) (answers : Nat → Bool) (r : Record)
    (events : List Event) :
    let kept := essential plan answers r events
    kept.Sublist events ∧ essential plan answers r kept = kept ∧
      play plan answers r kept = play plan answers r events :=
  ⟨r.essential_sublist plan answers events, r.essential_essential plan answers events,
    r.play_essential plan answers events⟩

/-- Between the steps of a workflow, what comes unasked does not count. -/
example : ({} : Record).essential briefPlan (fun _ => true)
    [.subscribed, .writeOpportunity, .writeOpportunity, .resendRequested 1, .subscribed,
      .messageReceived "a" (some []), .subscribed, .writeOpportunity] =
    [.writeOpportunity, .subscribed, .writeOpportunity] := by
  decide

end Record

end Session

end BrokerTrial

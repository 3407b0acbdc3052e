import BrokerTrial.Proofs.Chunking
import BrokerTrial.Proofs.Reaction

/-! The course of a session on its own. It is fed with events in any order, each with the answers of
the transport to it, and its run can be interrupted in between. `run` is where it comes to and
`trace` what happens on the way. Each step of a course is one that `Does` lists (`stepOf_does`),
so what a step keeps, every course keeps (`course_induction`, `countP_add_budget_le`). -/

namespace BrokerTrial

namespace Standing

def interrupted (s : Standing) : Standing := { s with verdict := s.verdict.interrupt }

end Standing

namespace Session

/-- What can happen to a session: an event, with what the transport answers to it, or an
interrupt. -/
inductive Input
  | event (e : Event) (accepts : Request → Bool)
  | interrupt

structure Step where
  before : Standing
  input : Input
  after : Standing
  requests : List Request

def stepOf (plan : Plan) (s : Standing) (i : Input) : Step :=
  match i with
  | .event e accepts =>
    let reaction := handle plan accepts s e
    ⟨s, i, reaction.standing, reaction.requests⟩
  | .interrupt => ⟨s, i, s.interrupted, []⟩

def trace (plan : Plan) (s : Standing) : List Input → List Step
  | [] => []
  | i :: rest => stepOf plan s i :: trace plan (stepOf plan s i).after rest

def run (plan : Plan) (s : Standing) : List Input → Standing
  | [] => s
  | i :: rest => run plan (stepOf plan s i).after rest

def requestsOf (course : List Step) : List Request := course.flatMap Step.requests

/-- All that one step can be: the session reacts, or raises and does nothing else, or its run is
interrupted. -/
inductive Does (plan : Plan) (s : Standing) : Input → Standing → List Request → Prop
  | reacts {e : Event} {accepts : Request → Bool} {s' : Standing} {requests : List Request} :
      Reacts plan accepts s e s' requests → Does plan s (.event e accepts) s' requests
  | raises {e : Event} {accepts : Request → Bool} {error : Error} :
      Raises plan s e error → Does plan s (.event e accepts) s []
  | interrupted : Does plan s .interrupt s.interrupted []

variable {plan : Plan} {s : Standing}

theorem stepOf_does (plan : Plan) (s : Standing) (i : Input) :
    Does plan s i (stepOf plan s i).after (stepOf plan s i).requests := by
  cases i with
  | interrupt => exact .interrupted
  | event e accepts =>
    show Does plan s (.event e accepts) (handle plan accepts s e).standing
      (handle plan accepts s e).requests
    cases herror : (handle plan accepts s e).error with
    | none => exact .reacts (handle_reacts herror)
    | some error =>
      obtain ⟨hraises, hstanding, hrequests⟩ := handle_error herror
      rw [hstanding, hrequests]
      exact .raises hraises

theorem stepOf_eq (plan : Plan) (s : Standing) (i : Input) :
    stepOf plan s i = ⟨s, i, (stepOf plan s i).after, (stepOf plan s i).requests⟩ := by
  cases i <;> rfl

theorem run_append (s : Standing) (first rest : List Input) :
    run plan s (first ++ rest) = run plan (run plan s first) rest := by
  induction first generalizing s with
  | nil => rfl
  | cons i first ih => exact ih _

theorem trace_append (s : Standing) (first rest : List Input) :
    trace plan s (first ++ rest) = trace plan s first ++ trace plan (run plan s first) rest := by
  induction first generalizing s with
  | nil => rfl
  | cons i first ih =>
    rw [List.cons_append, trace, ih]
    rfl

theorem course_induction (plan : Plan) (s : Standing) {P : List Step → Standing → Prop}
    (hstart : P [] s)
    (hnext : ∀ course t i t' requests, P course t → Does plan t i t' requests →
      P (course ++ [⟨t, i, t', requests⟩]) t') (inputs : List Input) :
    P (trace plan s inputs) (run plan s inputs) := by
  -- a course grows at its end, so the last input is taken off
  induction inputs using List.reverseRecOn with
  | nil => exact hstart
  | append_singleton inputs i ih =>
    rw [trace_append, run_append]
    have h := hnext _ _ i _ _ ih (stepOf_does plan (run plan s inputs) i)
    rwa [← stepOf_eq] at h

theorem run_holds {I : Standing → Prop}
    (hkeeps : ∀ t i t' requests, I t → Does plan t i t' requests → I t') (hs : I s)
    (inputs : List Input) : I (run plan s inputs) :=
  course_induction plan s (P := fun _ t => I t) hs (fun _ t i t' requests => hkeeps t i t' requests)
    inputs

/-- If each step pays for what it does out of a budget, no course does more than the budget
allows. -/
theorem countP_add_budget_le (plan : Plan) (s : Standing) {α : Type} (f : Step → List α)
    (p : α → Bool) (budget : Standing → Nat) {I : Standing → Prop}
    (hkeeps : ∀ t i t' requests, I t → Does plan t i t' requests → I t')
    (hpays : ∀ t i t' requests, I t → Does plan t i t' requests →
      (f ⟨t, i, t', requests⟩).countP p + budget t' ≤ budget t)
    (hs : I s) (inputs : List Input) :
    ((trace plan s inputs).flatMap f).countP p + budget (run plan s inputs) ≤ budget s := by
  have h := course_induction plan s
    (P := fun course t => I t ∧ (course.flatMap f).countP p + budget t ≤ budget s)
    ⟨hs, by simp⟩ ?_ inputs
  · exact h.2
  · rintro course t i t' requests ⟨ht, hspent⟩ hdoes
    refine ⟨hkeeps t i t' requests ht hdoes, ?_⟩
    have hpay := hpays t i t' requests ht hdoes
    rw [List.flatMap_append, List.countP_append, List.flatMap_singleton]
    omega

theorem does_of_mem {inputs : List Input} {m : Step} (h : m ∈ trace plan s inputs) :
    Does plan m.before m.input m.after m.requests := by
  induction inputs generalizing s with
  | nil => cases h
  | cons i rest ih =>
    rcases List.mem_cons.1 h with rfl | hrest
    · have hdoes := stepOf_does plan s i
      rw [stepOf_eq]
      exact hdoes
    · exact ih hrest

def InFront (plan : Plan) (s : Standing) : Prop := ∃ k, plan.chunker.Before s.session.position k

theorem inFront_fresh (plan : Plan) : InFront plan {} := ⟨0, .start plan.chunker⟩

theorem InFront.does {i : Input} {s' : Standing} {requests : List Request} (h : InFront plan s)
    (hd : Does plan s i s' requests) : InFront plan s' := by
  cases hd with
  | raises _ => exact h
  | interrupted => exact h
  | reacts hr =>
    cases hr with
    | publishes _ _ hc _ hmore =>
      obtain ⟨k, hk⟩ := h
      rcases hk.next hc with ⟨hend, -⟩ | ⟨hnext, -⟩
      · exact absurd hend hmore
      · exact ⟨k + 1, hnext⟩
    | completes => exact ⟨0, .start plan.chunker⟩
    | acknowledged => exact ⟨0, .start plan.chunker⟩
    | resends => exact ⟨0, .start plan.chunker⟩
    | _ => exact h

/-- A payload of two chunks to write, and otherwise what is usual. -/
def briefPlan : Plan :=
  ⟨⟨[1, 2, 3], 2, by decide, by decide⟩, .usual, .usual, .str "test/topic"⟩

def accepting (events : List Event) : List Input := events.map fun e => .event e fun _ => true

def inTurn : List Input := accepting
  [.writeOpportunity, .subscribed, .writeOpportunity, .writeOpportunity, .acknowledged,
    .writeOpportunity, .writeOpportunity, .acknowledged]

/-- All attempts of `briefPlan` at QoS 1, none of them acknowledged so far. -/
def unanswered : List Input := accepting
  [.writeOpportunity, .subscribed, .writeOpportunity, .writeOpportunity, .acknowledged,
    .writeOpportunity, .writeOpportunity, .resendRequested 1,
    .writeOpportunity, .writeOpportunity, .resendRequested 2,
    .writeOpportunity, .writeOpportunity]

end Session

end BrokerTrial

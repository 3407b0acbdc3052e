import BrokerTrial.Session.Handle

/-!
A rehearsal: a session on a transport that only notes what it is asked for. Requested writes are
counted, and handed back to the session when they are drained.
-/

namespace BrokerTrial

structure Rehearsal where
  plan : Session.Plan
  standing : Standing := {}
  /-- Writes that were requested and not handed back yet. -/
  pending : Nat := 0
  acceptsSubscribe : Bool := true
  acceptsPublish : Bool := true

namespace Rehearsal

def accepts (r : Rehearsal) : Request → Bool
  | .subscribe _ => r.acceptsSubscribe
  | .publish .. => r.acceptsPublish
  | .write | .cancel => true

/-- What came of one or several events. -/
structure Outcome where
  state : Rehearsal
  effects : List Effect := []
  error : Option Session.Error := none
  delivered : Nat := 0

def handle (r : Rehearsal) (e : Event) : Outcome :=
  let reaction := Session.handle r.plan r.accepts r.standing e
  { state := { r with
      standing := reaction.standing
      pending := r.pending + Session.writesRequested reaction.effects }
    effects := reaction.effects
    error := reaction.error }

/-- Hands at most `limit` writes back, until none is pending or one fails. -/
def drainUpTo : Nat → Rehearsal → Outcome
  | 0, r => { state := r }
  | n + 1, r =>
    if r.pending = 0 then { state := r }
    else
      let first := { r with pending := r.pending - 1 }.handle .writeOpportunity
      match first.error with
      | some _ => first
      | none =>
        let others := drainUpTo n first.state
        { others with
          effects := first.effects ++ others.effects
          delivered := others.delivered + 1 }

/-- A bound on the writes until none is pending: each one that asks for another moves the position
on. -/
def drainBound (r : Rehearsal) : Nat :=
  r.pending + (r.plan.chunker.total - r.standing.session.position).toNat

/-- Hands all pending writes back. -/
def drain (r : Rehearsal) : Outcome := drainUpTo r.drainBound r

end Rehearsal

end BrokerTrial

import BrokerTrial.Trial.Step

/-!
Whole trials. A trial runs until it ends or has nothing to wait for.
-/

namespace BrokerTrial

namespace Trial

def runFor : Nat → Trial → Trial
  | 0, t => t
  | n + 1, t =>
    match t.step with
    | none => t
    | some u => runFor n u

/-- A bound on the steps of a trial: each publish takes a few steps for each chunk, and there is one
more publish for each resend that the limit allows; all else takes a few steps for each item of the
stream and each signal. -/
def stepBound (t : Trial) : Nat :=
  let chunks := t.plan.chunker.total / t.plan.chunker.size + 16
  let attempts := t.plan.limit.cap.toNat + 3
  8 * (attempts * chunks + t.script.stream.length + t.transport.ready.length +
    t.transport.timers.length + 16)

/-- The trial as far as it goes. -/
def run (t : Trial) : Trial := t.runFor t.stepBound

end Trial

end BrokerTrial

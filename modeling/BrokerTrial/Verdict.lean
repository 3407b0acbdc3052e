import BrokerTrial.Log

/-!
The verdict of a run. It starts as a failure and turns into a success only at the end of the
workflow; the first reason for a failure is kept.
-/

namespace BrokerTrial

inductive Outcome
  | success | failure
deriving DecidableEq, Repr

def Outcome.label : Outcome → String
  | .success => "success"
  | .failure => "failure"

structure Verdict where
  interrupted : Bool := false
  outcome : Outcome := .failure
  reason : Option String := none
deriving DecidableEq, Repr

namespace Verdict

def succeed (v : Verdict) : Verdict := { v with outcome := .success, interrupted := true }

def interrupt (v : Verdict) : Verdict := { v with interrupted := true }

/-- A failure keeps an earlier reason. -/
def fail (v : Verdict) (reason : Option String) : Verdict :=
  { v with reason := v.reason.or reason, outcome := .failure, interrupted := true }

/-- A second reason is only logged. -/
def failEntries (v : Verdict) (reason : Option String) : List Log.Entry :=
  match v.reason with
  | none => []
  | some first =>
    let second := reason.getD "None"
    [Log.debug s!"Additional failure after '{first}': {second}"]

def exitCode (v : Verdict) : Nat := if v.outcome = .success then 0 else 1

end Verdict

end BrokerTrial

import BrokerTrial.Value.Access
import BrokerTrial.Value.Number
import BrokerTrial.Value.Shown

/-!
How long to wait: for an acknowledgement before a resend is due, and for a network operation before
the connection counts as dead.
-/

namespace BrokerTrial

/-- A number of seconds as it was set: whole by default, floating-point from a configuration. -/
inductive Seconds
  | whole (n : Int)
  | float (x : Binary64)
deriving DecidableEq, Repr

def Seconds.value : Seconds → Value
  | .whole n => .int n
  | .float x => .float x

def Seconds.text (s : Seconds) : String := s.value.text

structure Patience where
  acknowledgement : Seconds := .whole 20
  hangup : Seconds := .whole 25
deriving DecidableEq, Repr

namespace Patience

def ofConfig (config : Value) : Except Value.Misuse Patience := do
  let retry ← config.member "retry" (.mapping [])
  let ping ← (← retry.member "secs_since_valid_ping" (.int 20)).toBinary64?
  let hangup ← (← retry.member "secs_since_valid_hangup" (.int 25)).toBinary64?
  return ⟨.float ping, .float hangup⟩

end Patience

end BrokerTrial

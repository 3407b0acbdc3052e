import BrokerTrial.Text.Quoted

/-!
Faults: what an operation of a client can fail with. A fault is told apart by its kind, and may
come with a message.
-/

namespace BrokerTrial

/-- `cancelled` and `interrupted` end a task from outside; the other kinds are ordinary. -/
inductive FaultKind
  | mqtt | value | runtime | timeout | key | os | type | cancelled | interrupted
deriving DecidableEq, Repr

structure Fault where
  kind : FaultKind
  message : Option String := none
deriving DecidableEq, Repr

def FaultKind.label : FaultKind → String
  | .mqtt => "MqttError"
  | .value => "ValueError"
  | .runtime => "RuntimeError"
  | .timeout => "TimeoutError"
  | .key => "KeyError"
  | .os => "OSError"
  | .type => "TypeError"
  | .cancelled => "CancelledError"
  | .interrupted => "KeyboardInterrupt"

namespace Fault

/-- The message of a fault; a missing key is told in quotes. -/
def text (f : Fault) : String :=
  match f.message with
  | none => ""
  | some m => if f.kind = .key then Text.quoted m else m

/-- A fault with its kind. -/
def shown (f : Fault) : String :=
  let message := (f.message.map Text.quoted).getD ""
  s!"{f.kind.label}({message})"

end Fault

end BrokerTrial

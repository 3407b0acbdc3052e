import BrokerTrial.Log

/-!
The phases that a host goes through before it is operational. Listeners are told of every step
with the phase reached and the phase aimed at.
-/

namespace BrokerTrial

inductive Phase
  | contextCreated | initialized | ifaceColdplug | dhcp | timeValid | policyValid | registered
  | operational
deriving DecidableEq, Repr

namespace Phase

def all : List Phase :=
  [.contextCreated, .initialized, .ifaceColdplug, .dhcp, .timeValid, .policyValid, .registered,
    .operational]

def label : Phase → String
  | .contextCreated => "CONTEXT_CREATED"
  | .initialized => "INITIALIZED"
  | .ifaceColdplug => "IFACE_COLDPLUG"
  | .dhcp => "DHCP"
  | .timeValid => "TIME_VALID"
  | .policyValid => "POLICY_VALID"
  | .registered => "REGISTERED"
  | .operational => "OPERATIONAL"

def rank : Phase → Nat
  | .contextCreated => 0
  | .initialized => 1
  | .ifaceColdplug => 2
  | .dhcp => 3
  | .timeValid => 4
  | .policyValid => 5
  | .registered => 6
  | .operational => 7

/-- The phases from one to another, both included, lowest first. -/
def upTo (first last : Phase) : List Phase :=
  all.filter fun p => first.rank ≤ p.rank && p.rank ≤ last.rank

end Phase

/-- A host in a phase, with its listeners in the order in which they were registered. -/
structure Lifecycle (Listener : Type) where
  current : Phase := .contextCreated
  listeners : List Listener := []

namespace Lifecycle

variable {Listener : Type}

/-- What happens while a host advances. -/
inductive Notice (Listener : Type)
  | log (entry : Log.Entry)
  | tell (listener : Listener) (current target : Phase)

inductive Error
  | backward (current target : Phase)
deriving DecidableEq, Repr

def Error.message : Error → String
  | .backward current target => s!"Cannot go back from {current.label} to {target.label}"

def register (h : Lifecycle Listener) (listener : Listener) : Lifecycle Listener :=
  { h with listeners := h.listeners ++ [listener] }

/-- What is written and who is told in one phase. -/
def noticesIn (h : Lifecycle Listener) (target phase : Phase) : List (Notice Listener) :=
  .log (Log.debug s!"System state {phase.label} (target {target.label})") ::
    h.listeners.map (.tell · phase target)

/-- Goes phase by phase to `target`; the current phase itself is told again. -/
def advance (h : Lifecycle Listener) (target : Phase) :
    Except Error (Lifecycle Listener × List (Notice Listener)) :=
  if target.rank < h.current.rank then .error (.backward h.current target)
  else
    .ok ({ h with current := target }, (h.current.upTo target).flatMap (h.noticesIn target))

end Lifecycle

end BrokerTrial

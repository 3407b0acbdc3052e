import BrokerTrial.Host.Gate
import BrokerTrial.Session.Handle
import BrokerTrial.Settings.Basic
import BrokerTrial.Transport.Run

/-!
A trial: the session, its transport and the host's run loop together. The run loop takes events
from the queue one at a time until the verdict is interrupted, and then closes the transport.
-/

namespace BrokerTrial

namespace Trial

/-- An error that no part of a trial expects. -/
inductive Escape
  | transport (e : Transport.Escape)
  | session (e : Session.Error)
deriving DecidableEq, Repr

def Escape.message : Escape → String
  | .transport e => e.message
  | .session e => e.message

inductive Result
  | finished (verdict : Verdict)
  | escaped (e : Escape)
deriving DecidableEq, Repr

inductive Phase
  | starting
  /-- The run loop has events to take. -/
  | serving
  | waiting
  | closing (escape : Option Escape)
  | ended (result : Result)
deriving DecidableEq, Repr

/-- A signal of the operating system, and when it comes. -/
structure Signal where
  due : Instant
  name : String

end Trial

structure Trial where
  plan : Session.Plan
  connection : Connection
  /-- What is left of the client's script. -/
  script : Script
  transport : Transport
  standing : Standing := {}
  gate : Gate := {}
  phase : Trial.Phase := .starting
  /-- Whether signals interrupt the run. -/
  handlesSignals : Bool := false

namespace Trial

/-- A trial that is about to start. Signals that are due at once come behind its start. -/
def ofSettings (settings : Settings) (script : Script) (signals : List Signal) : Trial :=
  let (early, late) := signals.partition fun s => s.due.le .zero
  { plan := ⟨settings.chunker, settings.limit, settings.topics, settings.publishTopic⟩
    connection := settings.connection
    script
    transport := {
      patience := settings.patience
      ready := .host :: early.map (.signal ·.name)
      timers := late.map fun s => ⟨s.due, .signal s.name⟩ } }

def result? (t : Trial) : Option Result :=
  match t.phase with
  | .ended result => some result
  | _ => none

def mapTransport (t : Trial) (f : Transport → Transport) : Trial :=
  { t with transport := f t.transport }

def log (t : Trial) (entry : Log.Entry) : Trial := t.mapTransport (·.log entry)

def logAll (t : Trial) (entries : List Log.Entry) : Trial := t.mapTransport (·.logAll entries)

end Trial

end BrokerTrial

import BrokerTrial.Host.Gate

/-!
A host with its gate: the history of a host that is advanced and notified, in which a connect
request goes out at most once through notifications.
-/

namespace BrokerTrial

/-- Who listens to a host: the gate, or a recorder that only notes what it is told. -/
inductive Listener
  | gate
  | recorder (tag : String)
deriving DecidableEq, Repr

structure Readiness where
  lifecycle : Lifecycle Listener := {}
  gate : Gate := {}
  verdict : Verdict := {}

namespace Readiness

inductive Act
  | register (listener : Listener)
  | advance (target : Phase)
  /-- Tells the gate directly, past the listeners. -/
  | notify (current target : Phase)
  /-- Requests the connection directly, past the gate. -/
  | connect

inductive Effect
  | log (entry : Log.Entry)
  | told (tag : String) (current target : Phase)
  | connect

/-- The outcome of an act; `answer` is that of a direct connect request. -/
structure Outcome where
  state : Readiness
  effects : List Effect := []
  answer : Option Bool := none
  error : Option Lifecycle.Error := none

/-- Requests the connection; a request that is not accepted fails the run. -/
def request (r : Readiness) (connection : Connection) (accepts : Bool) :
    Readiness × List Effect :=
  let sent := [.log connection.announcement, .connect]
  if accepts then (r, sent)
  else
    let (verdict, entries) := r.verdict.rejectConnect
    ({ r with verdict }, sent ++ entries.map .log)

def tellGate (r : Readiness) (connection : Connection) (accepts : Bool) (current target : Phase) :
    Readiness × List Effect :=
  if r.gate.opensAt current target then
    { r with gate := r.gate.notify current target }.request connection accepts
  else (r, [])

/-- What one notice of a lifecycle does. -/
def notice (connection : Connection) (accepts : Bool) (acc : Readiness × List Effect)
    (n : Lifecycle.Notice Listener) : Readiness × List Effect :=
  match n with
  | .log entry => (acc.1, acc.2 ++ [.log entry])
  | .tell (.recorder tag) current target => (acc.1, acc.2 ++ [.told tag current target])
  | .tell .gate current target =>
    let (r, effects) := acc.1.tellGate connection accepts current target
    (r, acc.2 ++ effects)

/-- One act of a history; `accepts` is what the transport would answer to a connect request. -/
def act (r : Readiness) (connection : Connection) (accepts : Bool) : Act → Outcome
  | .register listener => { state := { r with lifecycle := r.lifecycle.register listener } }
  | .advance target =>
    match r.lifecycle.advance target with
    | .error e => { state := r, error := some e }
    | .ok (lifecycle, notices) =>
      let (r, effects) := notices.foldl (notice connection accepts) (r, [])
      { state := { r with lifecycle }, effects }
  | .notify current target =>
    let (r, effects) := r.tellGate connection accepts current target
    { state := r, effects }
  | .connect =>
    let (r, effects) := r.request connection accepts
    { state := r, effects, answer := some accepts }

end Readiness

end BrokerTrial

import BrokerTrial.Transport.Close
import BrokerTrial.Transport.Connect
import BrokerTrial.Transport.Link

/-!
Running background work: one job after the other, and the clock from timer to timer.
-/

namespace BrokerTrial

namespace Transport

/-- One job of the background. The host and signals are not background work. -/
def runJob (t : Transport) : Job → Transport
  | .link => t.runLink
  | .operation id => t.runOperation id
  | .call id => t.runCall id
  | .callEnded id => t.wakeOperation id
  | .taskEnded => t.countEnded
  | .host | .signal _ => t

/-- Takes the job that became ready first. -/
def nextJob? (t : Transport) : Option (Job × Transport) :=
  match t.ready with
  | [] => none
  | job :: rest => some (job, { t with ready := rest })

/-- The timer that is due first; of two due at once, the one set first. -/
def nextTimer? (t : Transport) : Option Timer :=
  t.timers.foldl (fun first timer =>
    match first with
    | none => some timer
    | some f => if f.due.le timer.due then some f else some timer) none

/-- What a timer makes ready. -/
def ring (t : Transport) : Alarm → Transport
  | .link => t.enqueue .link
  | .operation id => t.wakeOperation id
  | .call id => t.enqueue (.call id)
  | .limit id => t.wakeOperation id
  | .signal name => t.enqueue (.signal name)

/-- Lets the clock jump to a timer. -/
def fire (t : Transport) (timer : Timer) : Transport :=
  let now := if t.now.le timer.due then timer.due else t.now
  { t with now, timers := t.timers.erase timer }.ring timer.alarm

/-- Runs jobs until none is ready or it is the host's turn; answers whether it is. -/
def runJobs : Nat → Transport → Transport × Bool
  | 0, t => (t, false)
  | n + 1, t =>
    match t.nextJob? with
    | none => (t, false)
    | some (.host, t) => (t, true)
    | some (job, t) => runJobs n (t.runJob job)

/-- A bound on the jobs that run before time has to pass: each operation takes up to eight. -/
def jobBound (t : Transport) : Nat := 8 * (t.ready.length + t.operations.length + 4)

/-- Runs everything that can run without time passing. -/
def rest (t : Transport) : Transport := (runJobs t.jobBound t).1

/-- Closes the transport; background work goes on until all tasks have ended. -/
def close (t : Transport) : Transport :=
  let t := t.beginClose
  if t.isQuiet then t.finishClose else (runJobs t.jobBound t).1.finishClose

/-- Moves the clock to `target`, timer by timer. -/
def advanceTo (target : Instant) : Nat → Transport → Transport
  | 0, t => t
  | n + 1, t =>
    match t.nextTimer? with
    | none => { t with now := target }
    | some timer =>
      if timer.due.le target then advanceTo target n (t.fire timer).rest
      else { t with now := target }

/-- A bound on the timers that ring: one for each item of the stream, two for each operation. -/
def timerBound (t : Transport) : Nat :=
  t.timers.length + 2 * t.operations.length +
    (match t.link with
      | none => 0
      | some l => l.stream.length) + 2

def advance (t : Transport) (span : Instant) : Transport :=
  advanceTo (t.now.add span) t.timerBound t

end Transport

end BrokerTrial

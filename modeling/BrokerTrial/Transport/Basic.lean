import BrokerTrial.Client.Script
import BrokerTrial.Session.Event

/-!
The transport: one connection held open by a link, operations that run in the background, and a
queue of events for the session. Background work is done in jobs, which run in the order in which
they became ready; while none is ready, the clock jumps to the next timer.
-/

namespace BrokerTrial

/-- A piece of work that is ready to run. -/
inductive Job
  /-- The run loop, or whoever waits for the transport to close. -/
  | host
  | link
  | operation (id : Nat)
  /-- The client call of an operation that waits for it with a limit. -/
  | call (id : Nat)
  /-- Tells an operation that its client call has ended. -/
  | callEnded (id : Nat)
  /-- Tells whoever closes the transport that one task has ended. -/
  | taskEnded
  | signal (name : String)
deriving DecidableEq, Repr

inductive Alarm
  | link
  | operation (id : Nat)
  | call (id : Nat)
  /-- The limit of an operation is over. -/
  | limit (id : Nat)
  | signal (name : String)
deriving DecidableEq, Repr

structure Timer where
  due : Instant
  alarm : Alarm
deriving DecidableEq

/-- The state of a task that sleeps for its client. -/
inductive Progress
  | unstarted | asleep | ended
deriving DecidableEq, Repr

inductive LinkPhase
  | unstarted
  | connecting
  /-- Waits for the time of the first item of its stream. -/
  | awaitingItem
  /-- Waits for a message out of turn. -/
  | listening
  | ended
deriving DecidableEq, Repr

/-- The task that holds the connection open. -/
structure Link where
  phase : LinkPhase := .unstarted
  /-- A cancellation that the task has not noticed yet. -/
  cancelled : Bool := false
  enter : Reply
  stream : List StreamItem
  inbound : List Inbound := []

inductive Task
  | subscribe (topics : Subscription)
  | publish (topic : Value) (qos : Int) (payload : List UInt8)

/-- The client call of an operation that waits with a limit. -/
structure GuardedCall where
  progress : Progress := .unstarted
  cancelled : Bool := false
  ending : Option Ending := none

/-- Why an operation gave its client call up. -/
inductive GivenUp
  | outOfTime | closing
deriving DecidableEq, Repr

inductive OperationPhase
  | unstarted
  | calling (attempt : Int)
  | guarding (attempt : Int) (call : GuardedCall)
  | givingUp (attempt : Int) (call : GuardedCall) (why : GivenUp)

/-- A task that subscribes or publishes. What its client call will answer is fixed with it. -/
structure Operation where
  id : Nat
  task : Task
  reply : Reply
  phase : OperationPhase := .unstarted
  cancelled : Bool := false

/-- The call that a task makes. -/
def Task.call : Task → ClientCall
  | .subscribe topics => .subscribe topics
  | .publish topic qos payload => .publish topic qos payload

namespace OperationPhase

def call? : OperationPhase → Option GuardedCall
  | .guarding _ call | .givingUp _ call _ => some call
  | _ => none

/-- The phase with another state of its client call. -/
def withCall (p : OperationPhase) (call : GuardedCall) : OperationPhase :=
  match p with
  | .guarding attempt _ => .guarding attempt call
  | .givingUp attempt _ why => .givingUp attempt call why
  | p => p

end OperationPhase

/-- What happened, in the order of its happening. -/
inductive Mark
  | log (entry : Log.Entry)
  | built (client : Built)
  | called (id : Nat) (call : ClientCall)
  | ended (id : Nat) (ending : Ending)

/-- A fault that no task caught; it ends the whole run. -/
structure Breakdown where
  fault : Fault
  /-- Whether it came out of a call that an operation still waits for. -/
  guarded : Bool

structure Transport where
  patience : Patience := {}
  now : Instant := .zero
  ready : List Job := []
  timers : List Timer := []
  events : List Event := []
  /-- Whether the host waits for an event. -/
  hostWaits : Bool := false
  connected : Bool := false
  link : Option Link := none
  operations : List Operation := []
  nextId : Nat := 0
  outgoing : List UInt8 := []
  lastAttempt : Int := 0
  /-- How many tasks have to end before the transport is closed. -/
  closing : Nat := 0
  breakdown : Option Breakdown := none
  /-- The latest mark first. -/
  marks : List Mark := []

namespace Transport

def mark (t : Transport) (m : Mark) : Transport := { t with marks := m :: t.marks }

def log (t : Transport) (entry : Log.Entry) : Transport := t.mark (.log entry)

def logAll (t : Transport) (entries : List Log.Entry) : Transport := entries.foldl log t

def enqueue (t : Transport) (job : Job) : Transport := { t with ready := t.ready ++ [job] }

/-- Puts an event on the queue, and wakes the host if it waits for one. -/
def emit (t : Transport) (e : Event) : Transport :=
  let t := { t with events := t.events ++ [e] }
  if t.hostWaits then { t with hostWaits := false }.enqueue .host else t

def setTimer (t : Transport) (span : Instant) (alarm : Alarm) : Transport :=
  { t with timers := t.timers ++ [⟨t.now.add span, alarm⟩] }

def dropTimer (t : Transport) (alarm : Alarm) : Transport :=
  { t with timers := t.timers.filter (·.alarm ≠ alarm) }

def operation? (t : Transport) (id : Nat) : Option Operation :=
  t.operations.find? (·.id = id)

def updateOperation (t : Transport) (op : Operation) : Transport :=
  { t with operations := t.operations.map fun o => if o.id = op.id then op else o }

/-- A task of those that a closing transport waits for has ended. -/
def noteEnded (t : Transport) : Transport :=
  if t.closing = 0 then t else t.enqueue .taskEnded

def breakDown (t : Transport) (fault : Fault) (guarded : Bool) : Transport :=
  { t with breakdown := some ⟨fault, guarded⟩ }

def entries (t : Transport) : List Log.Entry :=
  t.marks.reverse.filterMap fun
    | .log entry => some entry
    | _ => none

def calls (t : Transport) : List ClientCall :=
  t.marks.reverse.filterMap fun
    | .called _ call => some call
    | _ => none

def clients (t : Transport) : List Built :=
  t.marks.reverse.filterMap fun
    | .built client => some client
    | _ => none

end Transport

end BrokerTrial

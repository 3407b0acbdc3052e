import BrokerTrial.Trial.Basic

/-!
The steps of a trial. A step starts the trial, handles one event, runs one job of the background,
or lets the clock jump; a trial without a step has ended or waits for ever.
-/

namespace BrokerTrial

namespace Trial

/-- The transport is closed: the run is over, and unless an error passes through, its verdict is
told. -/
def finish (t : Trial) (escape : Option Escape) : Trial :=
  let t := t.mapTransport (·.finishClose)
  match escape with
  | some e => { t with phase := .ended (.escaped e) }
  | none =>
    let v := t.standing.verdict
    let reason := match v.reason with
      | none | some "" => "interrupted"
      | some r => r
    let entry := if v.outcome = .success then Log.info "Completed: OK"
      else Log.info s!"Completed: failed ({reason})"
    { t.log entry with phase := .ended (.finished v) }

/-- Signals are no longer handled, and the transport is closed. -/
def beginClosing (t : Trial) (escape : Option Escape) : Trial :=
  let t := { t.mapTransport ({ ·.beginClose with hostWaits := false }) with
    handlesSignals := false }
  if t.transport.isQuiet then t.finish escape else { t with phase := .closing escape }

/-- Requests the connection; a request that is rejected fails the run. -/
def requestConnection (t : Trial) : Trial × Option Escape :=
  let t := t.log t.connection.announcement
  let (transport, answer) := t.transport.connect t.connection t.script
  let t := { t with transport }
  match answer with
  | .accepted => (t, none)
  | .rejected =>
    let (verdict, entries) := t.standing.verdict.rejectConnect
    ({ t with standing := { t.standing with verdict } }.logAll entries, none)
  | .raised e => (t, some (.transport e))

/-- Goes through the notices of the host's start until one of them lets an error through. -/
def follow (t : Trial) : List (Lifecycle.Notice Unit) → Trial × Option Escape
  | [] => (t, none)
  | .log entry :: rest => (t.log entry).follow rest
  | .tell _ current target :: rest =>
    if t.gate.opensAt current target then
      match { t with gate := t.gate.notify current target }.requestConnection with
      | (t, none) => t.follow rest
      | (t, some e) => (t, some e)
    else t.follow rest

/-- What is told on the way of a host from its first phase to its last one. -/
def startNotices : List (Lifecycle.Notice Unit) :=
  (Phase.all).flatMap (({ listeners := [()] } : Lifecycle Unit).noticesIn .operational)

def start (t : Trial) : Trial :=
  match { t with handlesSignals := true }.follow startNotices with
  | (t, none) => { t with phase := .serving }
  | (t, some e) => t.beginClosing (some e)

/-- Whether the transport would take a request now. -/
def accepts (t : Trial) : Request → Bool
  | .write | .cancel => true
  | .subscribe topics => (t.transport.sendSubscribe topics {}).2
  | .publish p chunk => (t.transport.sendPublish p chunk {}).2

/-- Passes a request on. A reply of the script is used up by each operation that starts. -/
def pass (t : Trial) : Request → Trial
  | .write => t.mapTransport (·.requestWrite)
  | .cancel => t.mapTransport (·.cancelService)
  | .subscribe topics =>
    let (reply, script) := t.script.drawSubscribe
    let (transport, accepted) := t.transport.sendSubscribe topics reply
    { t with transport, script := if accepted then script else t.script }
  | .publish p chunk =>
    let (reply, script) := t.script.drawPublish
    let (transport, accepted) := t.transport.sendPublish p chunk reply
    { t with transport, script := if accepted && p.final then script else t.script }

def perform (t : Trial) : Effect → Trial
  | .log entry => t.log entry
  | .request r => t.pass r
  | .deliver topic payload => t.logAll (messageEntries topic payload)

/-- A broken contract fails the run; any other error passes through. -/
def handleError (t : Trial) (e : Session.Error) : Trial :=
  match e with
  | .chunk _ => t.beginClosing (some (.session e))
  | _ =>
    let t := t.log (Log.error s!"Session handler failed: {e.message}")
    let verdict := t.standing.verdict
    { t with standing := { t.standing with verdict := verdict.fail e.message } }.logAll
      (verdict.failEntries e.message)

def handleEvent (t : Trial) (e : Event) : Trial :=
  let reaction := Session.handle t.plan t.accepts t.standing e
  let t := reaction.effects.foldl perform { t with standing := reaction.standing }
  match reaction.error with
  | none => t
  | some error => t.handleError error

/-- Takes the next event, or waits for one. -/
def takeEvent (t : Trial) : Trial :=
  match t.transport.events with
  | [] => { t.mapTransport ({ · with hostWaits := true }) with phase := .waiting }
  | e :: rest =>
    { t with phase := .serving }.mapTransport ({ · with events := rest }) |>.handleEvent e

/-- One turn of the run loop. An interrupt is noticed between events only: a run loop that waits
takes the event that wakes it. -/
def serve (t : Trial) : Trial :=
  if t.standing.verdict.interrupted then t.beginClosing none else t.takeEvent

/-- It is the host's turn: at the start, when an event has come, or when all tasks have ended. -/
def hostTurn (t : Trial) : Trial :=
  match t.phase with
  | .starting => t.start
  | .closing escape => t.finish escape
  | .waiting => t.takeEvent
  | _ => t

def handledSignals : List String := ["SIGINT", "SIGTERM"]

/-- A signal interrupts the run and wakes the run loop, while signals are handled. -/
def receiveSignal (t : Trial) (name : String) : Trial :=
  if t.handlesSignals && handledSignals.contains name then
    let t := t.log (Log.info s!"Received exit signal {name}...")
    { t with standing := { t.standing with verdict := t.standing.verdict.interrupt } }.mapTransport
      (·.cancelService)
  else t

/-- A fault that no task caught passes through. One that comes straight out of its task leaves time
to close the transport, if that is not closing already. -/
def breakDown (t : Trial) (b : Breakdown) : Trial :=
  let escape := Escape.transport (.fault b.fault)
  match t.phase, b.guarded with
  | .closing _, _ | _, true => { t with phase := .ended (.escaped escape) }
  | _, false =>
    (t.mapTransport fun r =>
      { r with breakdown := none, ready := r.ready.filter (· ≠ .host) }).beginClosing (some escape)

def runJob (t : Trial) (job : Job) : Trial :=
  match job with
  | .host => t.hostTurn
  | .signal name => t.receiveSignal name
  | job =>
    let t := t.mapTransport (·.runJob job)
    match t.transport.breakdown with
    | none => t
    | some b => t.breakDown b

def step (t : Trial) : Option Trial :=
  match t.phase with
  | .ended _ => none
  | .serving => some t.serve
  | _ =>
    match t.transport.nextJob? with
    | some (job, transport) => some ({ t with transport }.runJob job)
    | none => t.transport.nextTimer?.map fun timer => t.mapTransport (·.fire timer)

/-- The states that a trial comes through. -/
inductive Reachable (start : Trial) : Trial → Prop
  | start : Reachable start start
  | step {t u : Trial} : Reachable start t → t.step = some u → Reachable start u

end Trial

end BrokerTrial

import BrokerTrial.Transport.Send

/-!
Operations: tasks that make one client call and turn its end into one event. A publish that is to be
acknowledged makes its call in a task of its own and waits for it no longer than the limit.
-/

namespace BrokerTrial

def SubackCode.value : SubackCode → Value
  | .plain v => v
  | .reason value => value

namespace Suback

def truth : Suback → Bool
  | .codes cs => !cs.isEmpty
  | .value v => v.truth

/-- The codes of an answer; elements of a value that is not a sequence of codes are plain. -/
def elements : Suback → Except Value.Misuse (List SubackCode)
  | .codes cs => .ok cs
  | .value v => v.elements.map (·.map .plain)

end Suback

namespace Transport

/-- From this code on, an answer to a subscription refuses its topic. -/
def refusal : Int := 128

/-- A reason code counts by its value, everything else by itself. -/
def refuses (code : SubackCode) : Except Value.Misuse Bool :=
  return refusal ≤ (← code.value.toInt?)

/-- The topics that were refused, by the codes they are paired with. Codes without a topic and
topics without a code do not count. -/
def refusedTopics (topics : Subscription) (granted : Suback) :
    Except Value.Misuse (List String) := do
  let codes ← if granted.truth then granted.elements else .ok []
  let pairs ← (topics.zip codes).filterM fun p => refuses p.2
  return pairs.map (·.1.1)

def shownTopics (topics : List String) : String := (Value.list (topics.map .str)).shown

/-- The operation is over. -/
def endOperation (t : Transport) (op : Operation) (ending : Ending) : Transport :=
  let t := { t with operations := t.operations.filter (·.id ≠ op.id) }
  (t.mark (.ended op.id ending)).noteEnded

/-- Reports the end of a subscribe call. Codes that cannot be read leave no trace. -/
def settleSubscribe (t : Transport) (topics : Subscription) (granted : Suback) :
    Ending → Transport
  | .returned =>
    match refusedTopics topics granted with
    | .error _ => t
    | .ok [] => (t.log (Log.debug s!"Subscribed to {Subscription.shown topics}")).emit .subscribed
    | .ok refused =>
      (t.log (Log.error s!"Broker refused the subscription to {shownTopics refused}")).emit
        (.connectionFailed s!"subscribe refused for {shownTopics refused}")
  | .cancelled => t
  | .failed f =>
    match f.kind with
    | .mqtt => t.emit (.connectionFailed s!"subscribe failed: {f.text}")
    | .cancelled => t
    | .interrupted => t.breakDown f false
    | _ =>
      (t.log (Log.error s!"Subscribe to {Subscription.shown topics} raised")).emit
        (.connectionFailed s!"subscribe failed: {f.shown}")

/-- Reports the end of a publish call. -/
def settlePublish (t : Transport) (topic : Value) (qos : Int) (payload : List UInt8)
    (attempt : Int) : Ending → Transport
  | .returned =>
    (t.log (Log.debug (s!"Published {payload.length} bytes to '{topic.text}' at QoS{qos} " ++
      s!"(attempt {attempt})"))).emit .acknowledged
  | .cancelled => t
  | .failed f =>
    match f.kind with
    | .timeout =>
      (t.log (Log.warning (s!"No ack for publish attempt {attempt} after " ++
        s!"{t.patience.acknowledgement.text}s"))).emit (.resendRequested attempt)
    | .mqtt => t.emit (.connectionFailed s!"publish failed: {f.text}")
    | .cancelled => t
    | .interrupted => t.breakDown f false
    | _ =>
      (t.log (Log.error s!"Publish to '{topic.text}' raised")).emit
        (.connectionFailed s!"publish failed: {f.shown}")

/-- The end of an operation whose client call has ended. -/
def settle (t : Transport) (op : Operation) (attempt : Int) (ending : Ending) : Transport :=
  let t := match op.task with
    | .subscribe topics => t.settleSubscribe topics op.reply.granted ending
    | .publish topic qos payload => t.settlePublish topic qos payload attempt ending
  t.endOperation op ending

/-- Makes the client call in the task of the operation itself. -/
def callDirectly (t : Transport) (op : Operation) (attempt : Int) : Transport :=
  let t := t.mark (.called op.id op.task.call)
  let waiting := { op with phase := .calling attempt }
  match op.reply.wait with
  | .none => t.settle op attempt op.reply.ending
  | .span d => (t.updateOperation waiting).setTimer d (.operation op.id)
  | .forever => t.updateOperation waiting

/-- Makes the client call in a task of its own, which starts when it is its turn. Without any time
to wait the call is cancelled before it starts. -/
def callGuarded (t : Transport) (op : Operation) (attempt : Int) : Transport :=
  match t.patience.acknowledgement.limit with
  | .atOnce =>
    (t.updateOperation
      { op with phase := .givingUp attempt { cancelled := true } .outOfTime }).enqueue
        (.call op.id)
  | .after span =>
    ((t.updateOperation { op with phase := .guarding attempt {} }).setTimer span
      (.limit op.id)).enqueue (.call op.id)

/-- Cancels the client call; a call that sleeps wakes up to notice. -/
def cancelCall (t : Transport) (id : Nat) (call : GuardedCall) : Transport × GuardedCall :=
  let cancelled := { call with cancelled := true }
  if call.progress = .asleep && !t.ready.contains (.call id) then
    ((t.dropTimer (.call id)).enqueue (.call id), cancelled)
  else (t, cancelled)

/-- Gives the client call up and waits for its end. -/
def giveUp (t : Transport) (op : Operation) (attempt : Int) (call : GuardedCall) (why : GivenUp) :
    Transport :=
  let (t, call) := (t.dropTimer (.limit op.id)).cancelCall op.id call
  t.updateOperation { op with phase := .givingUp attempt call why, cancelled := false }

def startOperation (t : Transport) (op : Operation) : Transport :=
  match op.task with
  | .subscribe _ => t.callDirectly op 0
  | .publish _ qos _ =>
    let attempt := t.nextAttempt
    let t := { t with lastAttempt := attempt }
    if qos = 0 then t.callDirectly op attempt else t.callGuarded op attempt

/-- The operation goes on from where it waits. If its client call has ended, that counts more than
a cancellation. -/
def runOperation (t : Transport) (id : Nat) : Transport :=
  match t.operation? id with
  | none => t
  | some op =>
    match op.phase with
    | .unstarted => if op.cancelled then t.endOperation op .cancelled else t.startOperation op
    | .calling attempt =>
      if op.cancelled then t.endOperation op .cancelled
      else t.settle op attempt op.reply.ending
    | .guarding attempt call =>
      match call.ending with
      | some ending => (t.dropTimer (.limit id)).settle op attempt ending
      | none => t.giveUp op attempt call (if op.cancelled then .closing else .outOfTime)
    | .givingUp attempt _ why =>
      if op.cancelled || why = .closing then t.endOperation op .cancelled
      else t.settle op attempt (.failed ⟨.timeout, none⟩)

/-- A client call has ended; its operation is told next. -/
def endCall (t : Transport) (op : Operation) (call : GuardedCall) (ending : Ending) : Transport :=
  let ended := { call with progress := .ended, ending := some ending }
  let t := (t.updateOperation
    { op with phase := op.phase.withCall ended }).enqueue (.callEnded op.id)
  match ending with
  | .failed f => if f.kind = .interrupted then t.breakDown f true else t
  | _ => t

def runCall (t : Transport) (id : Nat) : Transport :=
  match t.operation? id with
  | none => t
  | some op =>
    match op.phase.call? with
    | none => t
    | some call =>
      match call.progress with
      | .ended => t
      | .unstarted =>
        if call.cancelled then t.endCall op call .cancelled
        else
          let t := t.mark (.called id op.task.call)
          let asleep := { op with
            phase := op.phase.withCall { call with progress := .asleep } }
          match op.reply.wait with
          | .none => t.endCall op call op.reply.ending
          | .span d => (t.updateOperation asleep).setTimer d (.call id)
          | .forever => t.updateOperation asleep
      | .asleep =>
        t.endCall op call (if call.cancelled then .cancelled else op.reply.ending)

/-- Wakes an operation that is not awake yet. -/
def wakeOperation (t : Transport) (id : Nat) : Transport :=
  if (t.operation? id).isSome && !t.ready.contains (.operation id) then
    t.enqueue (.operation id)
  else t

end Transport

end BrokerTrial

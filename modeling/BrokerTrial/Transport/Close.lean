import BrokerTrial.Transport.Operation

/-!
Closing: every task is cancelled, and the transport is closed when all of them have ended. What was
collected for a publish and the last attempt number stay.
-/

namespace BrokerTrial

namespace Transport

/-- Cancels an operation; one that waits wakes up to notice. -/
def cancelOperation (t : Transport) (op : Operation) : Transport :=
  let t := t.updateOperation { op with cancelled := true }
  if t.ready.contains (.operation op.id) then t
  else (t.dropTimer (.operation op.id)).enqueue (.operation op.id)

def cancelLink (t : Transport) (l : Link) : Transport :=
  if l.phase = .ended then t
  else
    let t := { t with link := some { l with cancelled := true } }
    if t.ready.contains .link then t else (t.dropTimer .link).enqueue .link

/-- Cancels all tasks. A link that has already ended reports that in its turn. -/
def beginClose (t : Transport) : Transport :=
  let count := t.operations.length + (if t.link.isSome then 1 else 0)
  let t := t.operations.foldl cancelOperation t
  let t := { t with closing := count }
  match t.link with
  | none => t
  | some l => if l.phase = .ended then t.enqueue .taskEnded else t.cancelLink l

/-- One more task has ended; behind the last one the host goes on. -/
def countEnded (t : Transport) : Transport :=
  let t := { t with closing := t.closing - 1 }
  if t.closing = 0 then t.enqueue .host else t

/-- Whether there is nothing to wait for. -/
def isQuiet (t : Transport) : Bool := t.closing = 0

def finishClose (t : Transport) : Transport :=
  { t with link := none }.log (Log.info "MQTT transport closed.")

end Transport

end BrokerTrial

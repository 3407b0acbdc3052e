import BrokerTrial.Transport.Basic

/-!
Requests that send. Chunks are collected until the final one completes the payload that was
declared; then one operation publishes it. A chunk too many or a payload too short empties the
collection.
-/

namespace BrokerTrial

namespace Transport

/-- Starts an operation in the background. -/
def spawn (t : Transport) (task : Task) (reply : Reply) : Transport :=
  let op : Operation := { id := t.nextId, task, reply }
  { t with operations := t.operations ++ [op], nextId := t.nextId + 1 }.enqueue
    (.operation t.nextId)

def sendSubscribe (t : Transport) (topics : Subscription) (reply : Reply) : Transport × Bool :=
  if t.connected then (t.spawn (.subscribe topics) reply, true)
  else (t.log (Log.warning "Subscribe requested while not connected."), false)

def sendPublish (t : Transport) (p : Publication) (chunk : List UInt8) (reply : Reply) :
    Transport × Bool :=
  if !t.connected then
    (t.log (Log.warning "Publish requested while not connected."), false)
  else if p.length < (t.outgoing.length + chunk.length : Int) then
    ({ t with outgoing := [] }.log (Log.error
      (s!"Chunk of {chunk.length} bytes overflows the declared payload of {p.length} bytes " ++
        s!"({t.outgoing.length} already buffered)")), false)
  else
    let collected := t.outgoing ++ chunk
    if !p.final then ({ t with outgoing := collected }, true)
    else if (collected.length : Int) ≠ p.length then
      ({ t with outgoing := [] }.log (Log.error
        s!"Final chunk leaves {collected.length} of {p.length} declared payload bytes"), false)
    else ({ t with outgoing := [] }.spawn (.publish p.topic p.qos collected) reply, true)

def maxAttempt : Int := 65535

/-- Attempts are numbered from one, and start over behind the greatest number. -/
def nextAttempt (t : Transport) : Int := t.lastAttempt % maxAttempt + 1

def requestWrite (t : Transport) : Transport := t.emit .writeOpportunity

def cancelService (t : Transport) : Transport := t.emit .serviceCancelled

end Transport

end BrokerTrial

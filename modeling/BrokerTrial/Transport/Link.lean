import BrokerTrial.Transport.Basic

/-!
The link: it connects, passes on every message that comes in, and reports how the connection ended.
A link that was cancelled reports nothing.
-/

namespace BrokerTrial

/-- The bytes of a payload that is bytes or a byte array; any other payload has none. -/
def MessagePayload.bytes? : MessagePayload → Option (List UInt8)
  | .value (.bytes bs) | .byteArray bs => some bs
  | .value _ | .other => none

namespace Transport

/-- The link is over; the transport is no longer connected. -/
def endLink (t : Transport) (l : Link) : Transport :=
  { t with link := some { l with phase := .ended }, connected := false }.noteEnded

/-- Reports a fault as a failed connection, if it is an ordinary one. -/
def failLink (t : Transport) (l : Link) (f : Fault) : Transport :=
  match f.kind with
  | .mqtt =>
    ((t.log (Log.error s!"MQTT connection lost: {f.text}")).emit
      (.connectionFailed f.text)).endLink l
  | .cancelled => t.endLink l
  | .interrupted => (t.breakDown f false).endLink l
  | _ =>
    ((t.log (Log.error "Unexpected error in the MQTT connection task")).emit
      (.connectionFailed s!"connection task failed: {f.shown}")).endLink l

/-- Passes one thing of the stream on; answers whether the stream goes on. -/
def receive (t : Transport) (l : Link) : Inbound → Transport × Bool
  | .message topic payload => (t.emit (.messageReceived topic.text payload.bytes?), true)
  | .ends => (({ t with connected := false }.emit .connectionClosed).endLink l, false)
  | .fails f => (t.failLink l f, false)

/-- Passes on what came in out of turn, and waits for more. -/
def listen (t : Transport) (l : Link) : List Inbound → Transport
  | [] => { t with link := some { l with phase := .listening, inbound := [] } }
  | item :: rest =>
    match t.receive { l with inbound := rest } item with
    | (t, true) => t.listen l rest
    | (t, false) => t

/-- Passes on the items of the stream whose time has come, and waits for the next one. -/
def follow (t : Transport) (l : Link) : List StreamItem → Transport
  | [] => t.listen { l with stream := [] } l.inbound
  | item :: rest =>
    if item.due.le t.now then
      match t.receive { l with stream := rest } item.content with
      | (t, true) => t.follow l rest
      | (t, false) => t
    else
      { t with
        link := some { l with phase := .awaitingItem, stream := item :: rest }
        timers := t.timers ++ [⟨item.due, .link⟩] }

/-- The attempt to connect has ended. -/
def entered (t : Transport) (l : Link) : Transport :=
  match l.enter.fault with
  | some f => t.failLink l f
  | none => ({ t with connected := true }.emit .connectionEstablished).follow l l.stream

def startLink (t : Transport) (l : Link) : Transport :=
  match l.enter.wait with
  | .none => t.entered l
  | .span d => { t with link := some { l with phase := .connecting } }.setTimer d .link
  | .forever => { t with link := some { l with phase := .connecting } }

/-- The link goes on from where it waits. An item that was waited for is due now. -/
def runLink (t : Transport) : Transport :=
  match t.link with
  | none => t
  | some l =>
    if l.cancelled && l.phase ≠ .ended then t.endLink l
    else
      match l.phase with
      | .unstarted => t.startLink l
      | .connecting => t.entered l
      | .awaitingItem => t.follow l l.stream
      | .listening => t.listen l l.inbound
      | .ended => t

/-- Something comes in out of turn; a link that waits for it is woken. -/
def arrive (t : Transport) (item : Inbound) : Transport :=
  match t.link with
  | none => t
  | some l =>
    let t := { t with link := some { l with inbound := l.inbound ++ [item] } }
    if l.phase = .listening && !t.ready.contains .link then t.enqueue .link else t

end Transport

end BrokerTrial

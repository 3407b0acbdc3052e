import BrokerTrial.Transport.Basic

/-!
The connect request. It is accepted or rejected on the spot; a transport takes one connection until
it is closed.
-/

namespace BrokerTrial

namespace Transport

/-- What a request can raise instead of being accepted or rejected. -/
inductive Escape
  | misuse (m : Value.Misuse)
  | fault (f : Fault)
deriving DecidableEq, Repr

def Escape.message : Escape → String
  | .misuse m => m.message
  | .fault f => f.text

/-- The answer to a connect request. -/
inductive Answer
  | accepted
  | rejected
  | raised (e : Escape)
deriving DecidableEq, Repr

/-- The last will has to be text, because it is sent encoded. -/
def willPayload (c : Connection) : Except Value.Misuse (List UInt8) :=
  match c.will.message with
  | .str s => .ok s.toUTF8.toList
  | v => .error (.noMember v.kind "encode")

/-- Faults of a client's construction that only reject the request. -/
def rejectsConstruction (f : Fault) : Bool := f.kind = .value || f.kind = .mqtt

def connect (t : Transport) (c : Connection) (script : Script) : Transport × Answer :=
  if t.link.isSome then
    (t.log (Log.error "A connection has already been requested."), .rejected)
  else
    match Protocol.ofText? c.protocol with
    | none =>
      (t.log (Log.error s!"Unsupported MQTT protocol version '{c.protocol}'"), .rejected)
    | some protocol =>
      match Tls.setUp c script.authorities with
      | .error (.notPath m) => (t, .raised (.misuse m))
      | .error (.unusable message) =>
        (t.log (Log.error s!"Failed to set up TLS: {message}"), .rejected)
      | .ok tls =>
        match willPayload c with
        | .error m => (t, .raised (.misuse m))
        | .ok payload =>
          match script.construction with
          | some f =>
            if rejectsConstruction f then
              (t.log (Log.error s!"Failed to create MQTT client: {f.text}"), .rejected)
            else (t, .raised (.fault f))
          | none =>
            let link : Link := { enter := script.enter, stream := script.stream }
            let t := t.mark (.built ⟨c, protocol, payload, t.patience.hangup, tls⟩)
            ({ t with link := some link }.enqueue .link, .accepted)

end Transport

end BrokerTrial

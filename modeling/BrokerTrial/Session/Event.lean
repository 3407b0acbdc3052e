import BrokerTrial.HexDump
import BrokerTrial.Settings.Subscription

/-!
What a session is told and what it asks for. Events come from the transport; requests go to it,
and those that send something are accepted or rejected on the spot.
-/

namespace BrokerTrial

inductive Event
  | connectionEstablished
  | connectionFailed (message : Option String)
  | connectionClosed
  | subscribed
  | writeOpportunity
  | acknowledged
  /-- `attempt` is the number of the publish attempt that got no answer in time. -/
  | resendRequested (attempt : Int)
  /-- A message whose payload is no byte string has none. -/
  | messageReceived (topic : String) (payload : Option (List UInt8))
  | serviceCancelled
  /-- An event of no particular kind. -/
  | unspecific
deriving DecidableEq, Repr

/-- One write of a publish: a chunk of a payload of `length` bytes, the last one if `final`. -/
structure Publication where
  topic : Value
  qos : Int
  length : Int
  final : Bool

inductive Request
  | write
  | cancel
  | subscribe (topics : Subscription)
  | publish (publication : Publication) (chunk : List UInt8)

/-- What handling an event causes, besides a new standing. -/
inductive Effect
  | log (entry : Log.Entry)
  | request (r : Request)
  | deliver (topic : String) (payload : List UInt8)

/-- The log of a message that came in. -/
def messageEntries (topic : String) (payload : List UInt8) : List Log.Entry :=
  Log.info s!"Received {payload.length} bytes on '{topic}'" ::
    HexDump.entries .info topic.toUTF8.toList ++ HexDump.entries .info payload

/-- What an effect logs, if messages that come in are logged. -/
def Effect.entries : Effect → List Log.Entry
  | .log entry => [entry]
  | .request _ => []
  | .deliver topic payload => messageEntries topic payload

def Effect.request? : Effect → Option Request
  | .request r => some r
  | _ => none

end BrokerTrial

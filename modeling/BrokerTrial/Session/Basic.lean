import BrokerTrial.Chunk
import BrokerTrial.ResendLimit
import BrokerTrial.Settings.Subscription
import BrokerTrial.Verdict

/-!
The stages of a session and its progress through them. There is one way forward through the
stages, and one way back: a QoS 1 publish that is to be sent again.
-/

namespace BrokerTrial

inductive Stage
  | subscribe | publishQos0 | waitAck0 | publishQos1 | waitAck1 | finish
deriving DecidableEq, Repr

inductive Edge
  | advance | resend
deriving DecidableEq, Repr

namespace Stage

def all : List Stage := [.subscribe, .publishQos0, .waitAck0, .publishQos1, .waitAck1, .finish]

def label : Stage → String
  | .subscribe => "SUBSCRIBE"
  | .publishQos0 => "PUBLISH_QOS0"
  | .waitAck0 => "WAIT_ACK0"
  | .publishQos1 => "PUBLISH_QOS1"
  | .waitAck1 => "WAIT_ACK1"
  | .finish => "FINISH"

/-- The place of a stage in the workflow. -/
def rank : Stage → Nat
  | .subscribe => 0
  | .publishQos0 => 1
  | .waitAck0 => 2
  | .publishQos1 => 3
  | .waitAck1 => 4
  | .finish => 5

/-- The stage that an edge leads to. -/
def next? : Stage → Edge → Option Stage
  | .subscribe, .advance => some .publishQos0
  | .publishQos0, .advance => some .waitAck0
  | .waitAck0, .advance => some .publishQos1
  | .publishQos1, .advance => some .waitAck1
  | .waitAck1, .advance => some .finish
  | .waitAck1, .resend => some .publishQos1
  | _, _ => none

/-- The quality of service of a stage that publishes. -/
def publishQos? : Stage → Option Int
  | .publishQos0 => some 0
  | .publishQos1 => some 1
  | _ => none

end Stage

def Edge.label : Edge → String
  | .advance => "advance"
  | .resend => "resend"

/-- How far a session has come. `subscribePending` holds between the request to subscribe and the
answer to it. -/
structure Session where
  stage : Stage := .subscribe
  position : Int := 0
  resends : Int := 0
  subscribePending : Bool := false
deriving DecidableEq, Repr

/-- What a session is to do. -/
structure Session.Plan where
  chunker : Chunker
  limit : ResendLimit
  topics : Subscription
  publishTopic : Value

/-- A session together with the verdict that it shares with its host. -/
structure Standing where
  session : Session := {}
  verdict : Verdict := {}
deriving DecidableEq, Repr

namespace Standing

def stage (s : Standing) : Stage := s.session.stage

def terminated (s : Standing) : Bool := s.stage = .finish || s.verdict.interrupted

end Standing

end BrokerTrial

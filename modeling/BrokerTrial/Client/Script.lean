import BrokerTrial.Client.Fault
import BrokerTrial.Clock
import BrokerTrial.Settings.Subscription
import BrokerTrial.Settings.Tls

/-!
A scripted client: how each of its operations ends and when, and what it receives. Whatever a
broker and a network can do to a run is some script.
-/

namespace BrokerTrial

/-- How long a client takes to answer. -/
inductive Wait
  | none
  | span (d : Instant)
  | forever
deriving DecidableEq

/-- How a client call ended for the one who made it. -/
inductive Ending
  | returned
  | failed (f : Fault)
  | cancelled
deriving DecidableEq, Repr

/-- A code of an answer to a subscription: a value, or a reason code, which is an object that has a
value. -/
inductive SubackCode
  | plain (v : Value)
  | reason (value : Value)

/-- What a subscribe call returns: a sequence of codes, or anything else. -/
inductive Suback
  | codes (cs : List SubackCode)
  | value (v : Value)

/-- How an operation ends: after a wait, with a fault or with what was granted. -/
structure Reply where
  wait : Wait := .none
  fault : Option Fault := .none
  granted : Suback := .codes [.plain (.int 0), .plain (.int 1)]

def Reply.ending (r : Reply) : Ending :=
  match r.fault with
  | none => .returned
  | some f => if f.kind = .cancelled then .cancelled else .failed f

/-- The payload of a message as the client hands it over: a value, which can be bytes, a mutable
byte array, or an object of any other kind. -/
inductive MessagePayload
  | value (v : Value)
  | byteArray (bs : List UInt8)
  | other

/-- What the stream of messages yields: a message, its end, or a fault. -/
inductive Inbound
  | message (topic : Value) (payload : MessagePayload)
  | ends
  | fails (f : Fault)

/-- Something that is yielded once its time has come. -/
structure StreamItem where
  due : Instant
  content : Inbound

structure Script where
  construction : Option Fault := none
  /-- What reading a file of authorities fails with. -/
  authorities : Option String := some Tls.Error.noSuchFile.message
  enter : Reply := {}
  subscribe : List Reply := []
  publish : List Reply := []
  stream : List StreamItem := []

namespace Script

/-- The reply to the next call and what is left of the replies; the last one is repeated. -/
def draw (replies : List Reply) : Reply × List Reply :=
  match replies with
  | [] => ({}, [])
  | [r] => (r, [r])
  | r :: rest => (r, rest)

def drawSubscribe (s : Script) : Reply × Script :=
  let (r, rest) := draw s.subscribe
  (r, { s with subscribe := rest })

def drawPublish (s : Script) : Reply × Script :=
  let (r, rest) := draw s.publish
  (r, { s with publish := rest })

end Script

/-- Versions of the protocol that a client can speak. -/
inductive Protocol
  | v31 | v311 | v5
deriving DecidableEq, Repr

namespace Protocol

def all : List Protocol := [.v31, .v311, .v5]

def text : Protocol → String
  | .v31 => "3.1"
  | .v311 => "3.1.1"
  | .v5 => "5"

def label : Protocol → String
  | .v31 => "V31"
  | .v311 => "V311"
  | .v5 => "V5"

def ofText? (s : String) : Option Protocol := all.find? fun p => p.text = s

end Protocol

/-- A client as it was constructed. The last will goes out as bytes, and the start without an old
session has another name from version 5 on. -/
structure Built where
  connection : Connection
  protocol : Protocol
  willPayload : List UInt8
  hangup : Seconds
  tls : Option Tls

/-- A call that an operation makes on its client. -/
inductive ClientCall
  | subscribe (topics : Subscription)
  | publish (topic : Value) (qos : Int) (payload : List UInt8)

end BrokerTrial

import BrokerTrial.Settings.Connection
import BrokerTrial.Settings.Error
import BrokerTrial.Settings.Patience
import BrokerTrial.Settings.Subscription

/-!
All settings of a run, read from one configuration value.
-/

namespace BrokerTrial

structure Settings where
  chunker : Chunker
  limit : ResendLimit
  topics : Subscription
  publishTopic : Value
  connection : Connection
  patience : Patience

namespace Settings

/-- Why a configuration makes no run: it is refused, or an error passes through. -/
inductive Failure
  | refused (e : Error)
  | escaped (e : Error)
deriving DecidableEq, Repr

def Failure.ofError (e : Error) : Failure := if e.refuses then .refused e else .escaped e

def Failure.message : Failure → String
  | .refused e => s!"Invalid configuration: {e.message}"
  | .escaped e => e.message

def chunkerOf (payload : List UInt8) (publish : Value) : Except Error Chunker := do
  let size ← lift (do (← publish.member "chunk_size" (.int Chunker.defaultSize)).toInt?)
  (Chunker.ofPayload? payload size).mapError .ofChunker

def limitOf (config : Value) : Except Error ResendLimit := do
  let retry ← lift (config.member "retry" (.mapping []))
  let cap ← lift (do (← retry.member "retry_cap" (.int ResendLimit.usual.cap)).toInt?)
  (ResendLimit.ofCap? cap).mapError .ofLimit

def defaultTopic : Value := .str "test/topic"

/-- Reads the settings in a fixed order, so that of two faults the first one is reported. -/
def read (payload : List UInt8) (config : Value) (tls : Bool) : Except Error Settings := do
  let publish ← lift (config.member "publish" (.mapping []))
  let chunker ← chunkerOf payload publish
  let limit ← limitOf config
  let topics ← lift (do Subscription.ofEntries (← config.member "subscribe" .null))
  let connection ← lift (Connection.ofConfig config tls)
  let patience ← lift (Patience.ofConfig config)
  let publishTopic ← lift (publish.member "topic" defaultTopic)
  return { chunker, limit, topics, publishTopic, connection, patience }

def ofConfig (payload : List UInt8) (config : Value) (tls : Bool) : Except Failure Settings :=
  (read payload config tls).mapError Failure.ofError

end Settings

end BrokerTrial

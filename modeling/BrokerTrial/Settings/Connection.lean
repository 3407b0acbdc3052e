import BrokerTrial.Value.Access
import BrokerTrial.Value.Number
import BrokerTrial.Value.Shown

/-!
The parameters of the one connection. Settings that are only handed on keep the kind they have in
the configuration; numbers and truth values are converted.
-/

namespace BrokerTrial

/-- The message that the broker sends for a client that is gone. -/
structure Will where
  topic : Value
  message : Value
  qos : Int
  retain : Bool

structure Connection where
  host : Value
  port : Int
  clientId : Value
  keepAlive : Int
  cleanStart : Bool
  will : Will
  username : Value
  password : Value
  protocol : String
  useTls : Bool
  allowSelfSigned : Bool
  caFile : Value

namespace Connection

/-- Plain and encrypted listeners sit on different ports. -/
def defaultPort (useTls : Bool) : Int := if useTls then 8883 else 1883

def ofConfig (config : Value) (tls : Bool) : Except Value.Misuse Connection := do
  let mqtt ← config.member "mqtt" (.mapping [])
  let will ← mqtt.member "will" (.mapping [])
  let useTls := tls || (← mqtt.member "tls" (.bool false)).truth
  let host ← mqtt.member "host" (.str "localhost")
  let port ← (← mqtt.member "port" (.int (defaultPort useTls))).toInt?
  let clientId ← mqtt.member "client_id" (.str "lwsMqttClient")
  let keepAlive ← (← mqtt.member "keep_alive" (.int 60)).toInt?
  let cleanStart ← mqtt.member "clean_start" (.bool true)
  let topic ← will.member "topic" (.str "good/bye")
  let message ← will.member "message" (.str "sign-off")
  let qos ← (← will.member "qos" (.int 0)).toInt?
  let retain ← will.member "retain" (.bool false)
  let username ← mqtt.member "username" (.str "lwsUser")
  let password ← mqtt.member "password" (.str "mySecretPassword")
  let protocol ← (← mqtt.member "protocol" (.str "3.1.1")).toText?
  let allowSelfSigned ← mqtt.member "allow_self_signed" (.bool true)
  let caFile ← mqtt.member "ca_file" .null
  return {
    host, port, clientId, keepAlive
    cleanStart := cleanStart.truth
    will := { topic, message, qos, retain := retain.truth }
    username, password
    protocol, useTls
    allowSelfSigned := allowSelfSigned.truth
    caFile }

end Connection

end BrokerTrial

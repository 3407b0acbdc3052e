import BrokerTrial.Source.Load

/-!
The configuration that is used when none is named.
-/

namespace BrokerTrial

namespace Source

def packagedLines : List String := [
  "# Default settings for mqtt-qos-probe. Copy and pass with --config to override.",
  "mqtt:",
  "  host: localhost",
  "  # port defaults to 1883, or 8883 with --tls",
  "  client_id: lwsMqttClient",
  "  keep_alive: 60",
  "  clean_start: true",
  "  protocol: \"3.1.1\"",
  "  username: lwsUser",
  "  password: mySecretPassword",
  "  allow_self_signed: true",
  "  # ca_file: ./mosq-ca.crt",
  "  will:",
  "    topic: good/bye",
  "    message: sign-off",
  "    qos: 0",
  "    retain: false",
  "",
  "retry:",
  "  secs_since_valid_ping: 20    # no ack within this -> resend",
  "  secs_since_valid_hangup: 25  # network operation timeout",
  "  retry_cap: 3",
  "",
  "publish:",
  "  topic: test/topic",
  "  chunk_size: 300",
  "",
  "subscribe:",
  "  - topic: test/topic0",
  "    qos: 0",
  "  - topic: test/topic1",
  "    qos: 1"]

/-- The name of the packaged configuration in messages. -/
def packagedName : String := "<DEFAULT>"

def packaged : Found :=
  .file ("".intercalate (packagedLines.map (· ++ "\n"))).toUTF8.toList

end Source

end BrokerTrial

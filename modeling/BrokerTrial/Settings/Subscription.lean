import BrokerTrial.Value.Access
import BrokerTrial.Value.Number
import BrokerTrial.Value.Shown

/-!
The topics subscribed to in one request, each with its quality of service.
-/

namespace BrokerTrial

abbrev Subscription := List (String × Int)

namespace Subscription

def usual : Subscription := [("test/topic0", 0), ("test/topic1", 1)]

def topicOfEntry (entry : Value) : Except Value.Misuse (String × Int) := do
  let topic ← (← entry.index "topic").toText?
  let qos ← (← entry.member "qos" (.int 0)).toInt?
  return (topic, qos)

/-- Without entries the usual topics are subscribed to. -/
def ofEntries (entries : Value) : Except Value.Misuse Subscription :=
  if entries.truth then do (← entries.elements).mapM topicOfEntry else .ok usual

/-- The request as a log shows it. -/
def shown (topics : Subscription) : String :=
  (Value.list (topics.map fun t => .tuple [.str t.1, .int t.2])).shown

end Subscription

end BrokerTrial

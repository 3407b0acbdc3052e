import BrokerTrial.Host.Lifecycle
import BrokerTrial.Settings.Connection
import BrokerTrial.Verdict

/-!
The gate in front of the connect request. It opens once, the first time that the host is told to be
operational and is so, and stays shut afterwards whatever became of the request.
-/

namespace BrokerTrial

structure Gate where
  opened : Bool := false
deriving DecidableEq, Repr

namespace Gate

/-- Whether a notification opens the gate. -/
def opensAt (g : Gate) (current target : Phase) : Bool :=
  current = .operational && target = .operational && !g.opened

def notify (g : Gate) (current target : Phase) : Gate :=
  if g.opensAt current target then ⟨true⟩ else g

end Gate

namespace Connection

def scheme (c : Connection) : String := if c.useTls then "mqtts" else "mqtt"

/-- Written before the connect request. -/
def announcement (c : Connection) : Log.Entry :=
  Log.info s!"Connecting to {c.scheme}://{c.host.text}:{c.port} as {c.clientId.text}..."

end Connection

/-- What a connect request that is not accepted does to the verdict. -/
def Verdict.rejectConnect (v : Verdict) : Verdict × List Log.Entry :=
  let reason := "connect request rejected by transport"
  (v.fail reason, Log.error "Client connect failed" :: v.failEntries reason)

end BrokerTrial

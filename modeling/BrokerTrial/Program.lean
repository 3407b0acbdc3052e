import BrokerTrial.CommandLine.Usage
import BrokerTrial.Payload
import BrokerTrial.Source.Packaged
import BrokerTrial.Trial.Run

/-!
The program as a whole: it loads the configuration that the command line names, puts the host of the
command line into it, and runs a trial. A refused configuration and an interruption end it with an
exit code of one.
-/

namespace BrokerTrial

namespace Program

open CommandLine (Arguments)

/-- An error that the program does not expect. -/
inductive Escape
  | source (e : Source.Failure)
  | host (m : Value.Misuse)
  | settings (e : Settings.Error)
  | trial (e : Trial.Escape)
deriving DecidableEq, Repr

def Escape.message : Escape → String
  | .source e => e.message
  | .host m => m.message
  | .settings e => e.message
  | .trial e => e.message

inductive Ending
  | exited (code : Nat)
  | escaped (e : Escape)
  /-- The trial waits for something that never happens. -/
  | waiting
deriving DecidableEq, Repr

/-- What the program did: how it ended, its trial if there was one, and its log. -/
structure Report where
  ending : Ending
  trial : Option Trial := none
  entries : List Log.Entry

/-- The section of a configuration that holds the host. -/
def brokerSection : String := "mqtt"

/-- The configuration with another host. -/
def withHost (config : Value) (host : String) : Except Value.Misuse Value := do
  let broker ← match ← config.member brokerSection (.mapping []) with
    | .mapping entries => .ok (Value.insert entries (.str "host") (.str host))
    | v => .error (.notMapping v.kind)
  match config with
  | .mapping entries =>
    return .mapping (Value.insert entries (.str brokerSection) (.mapping broker))
  | v => .error (.notMapping v.kind)

/-- Why the program does not come to a trial. -/
inductive Stop
  | refused (message : String)
  | escaped (e : Escape)
deriving DecidableEq, Repr

def Stop.ofFailure : Source.Failure → Stop
  | .refused r => .refused r.message
  | e => .escaped (.source e)

def Stop.ofSettings : Settings.Failure → Stop
  | .refused e => .refused (Settings.Failure.refused e).message
  | .escaped e => .escaped (.settings e)

/-- The configuration to run with: what is loaded, with the host of the command line if it names
one. -/
def configure (arguments : Arguments) (loaded : Except Source.Failure Value) :
    Except Stop Value := do
  let config ← loaded.mapError Stop.ofFailure
  match arguments.host with
  | none | some "" => return config
  | some host => (withHost config host).mapError fun m => .escaped (.host m)

def greeting (arguments : Arguments) : Log.Entry :=
  let security := if arguments.tls then "tls enabled" else "unencrypted"
  Log.info s!"MQTT QoS probe {security} [-d][-s]"

/-- An interruption from inside a trial is an exit and no error. -/
def Ending.ofTrial (t : Trial) : Ending :=
  match t.result? with
  | none => .waiting
  | some (.finished verdict) => .exited verdict.exitCode
  | some (.escaped (.transport (.fault ⟨.interrupted, _⟩))) => .exited 1
  | some (.escaped e) => .escaped (.trial e)

/-- The path of the configuration, as messages name it. -/
def configPath (arguments : Arguments) : String :=
  match arguments.config with
  | none => Source.packagedName
  | some path => Source.normalPath path

/-- The configuration file; `look` finds those that are named on the command line. -/
def configFile (arguments : Arguments) (look : String → Source.Found) : Source.Found :=
  match arguments.config with
  | none => Source.packaged
  | some path => look (Source.normalPath path)

/-- The settings of a run, or why there is none, and what loading the configuration logs. -/
def prepare (loader : Source.Loader) (arguments : Arguments) (look : String → Source.Found) :
    Except Stop Settings × List Log.Entry :=
  let loaded := Source.load loader (configPath arguments) (configFile arguments look)
  let settings := do
    let config ← configure arguments loaded.result
    (Settings.ofConfig payload config arguments.tls).mapError Stop.ofSettings
  (settings, loaded.entries)

/-- What becomes of the settings: a trial, if there are any. -/
def Report.ofSettings (settings : Except Stop Settings) (script : Script)
    (signals : List Trial.Signal) : Report :=
  match settings with
  | .error (.refused message) => { ending := .exited 1, entries := [Log.error message] }
  | .error (.escaped e) => { ending := .escaped e, entries := [] }
  | .ok settings =>
    let t := (Trial.ofSettings settings script signals).run
    { ending := Ending.ofTrial t, trial := some t, entries := t.transport.entries }

/-- Details are logged only on demand. -/
def leastLevel (arguments : Arguments) : Log.Level := if arguments.debug then .debug else .info

/-- Runs the program on the files that `look` finds, with a scripted client. -/
def run (loader : Source.Loader) (arguments : Arguments) (look : String → Source.Found)
    (script : Script) (signals : List Trial.Signal) : Report :=
  let (settings, loading) := prepare loader arguments look
  let report := Report.ofSettings settings script signals
  let entries := greeting arguments :: loading ++ report.entries
  { report with entries := Log.atLeast (leastLevel arguments) entries }

end Program

end BrokerTrial

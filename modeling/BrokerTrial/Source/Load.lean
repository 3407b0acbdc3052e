import BrokerTrial.Log
import BrokerTrial.Source.Loader
import BrokerTrial.Source.Path

/-!
Loading a configuration. A file that is not there is as good as an empty one. A directory, a
malformed text and a text that writes no mapping are refused; a file that is no text, and a scalar
that does not fit its tag, are errors of their own.
-/

namespace BrokerTrial

namespace Source

/-- What is found at a path. -/
inductive Found
  | nothing
  | directory
  | file (bytes : List UInt8)

/-- Why a configuration is refused. -/
inductive Refusal
  | directory (path : String)
  | malformed (path : String) (e : Yaml.Error)
  | noMapping (path : String) (kind : Value.Kind)
deriving DecidableEq, Repr

def directoryText (path : String) : String := s!"[Errno 21] Is a directory: {Text.quoted path}"

def Refusal.message : Refusal → String
  | .directory path => s!"Cannot read {path}: {directoryText path}"
  | .malformed path e => s!"Cannot read {path}: {e.message}"
  | .noMapping path kind => s!"{path} must hold a mapping at the top level, got {kind.label}"

/-- Why there is no configuration: it is refused, or an error passes through. -/
inductive Failure
  | refused (r : Refusal)
  | undecodable (e : Text.Utf8.Error)
  | unreadable (e : Yaml.Error)
deriving DecidableEq, Repr

def Failure.message : Failure → String
  | .refused r => r.message
  | .undecodable e => e.message
  | .unreadable e => e.message

/-- The outcome of loading, with what it logs. -/
structure Loaded where
  result : Except Failure Value
  entries : List Log.Entry

/-- A configuration that counts as false is as good as an empty one. -/
def orEmpty (v : Value) : Value := if v.truth then v else .mapping []

def failureEntry (reason : String) : Log.Entry :=
  Log.error s!"Failed to parse config file: {reason}"

/-- The configuration that a file holds. -/
def loadFile (loader : Loader) (path : String) (bytes : List UInt8) : Loaded :=
  match loader.load bytes with
  | .error (.undecodable e) => ⟨.error (.undecodable e), []⟩
  | .error (.yaml e) =>
    if e.isMalformed then ⟨.error (.refused (.malformed path e)), [failureEntry e.message]⟩
    else ⟨.error (.unreadable e), []⟩
  | .ok v =>
    match orEmpty v with
    | .mapping entries => ⟨.ok (.mapping entries), [Log.info s!"Loaded configuration from {path}"]⟩
    | v => ⟨.error (.refused (.noMapping path v.kind)), []⟩

/-- The configuration at a path, by what is found there. -/
def load (loader : Loader) (path : String) (found : Found) : Loaded :=
  match found with
  | .nothing =>
    ⟨.ok (.mapping []), [Log.warning s!"Config file not found at {path}. Using defaults."]⟩
  | .directory => ⟨.error (.refused (.directory path)), [failureEntry (directoryText path)]⟩
  | .file bytes => loadFile loader path bytes

end Source

end BrokerTrial

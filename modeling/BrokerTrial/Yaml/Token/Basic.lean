import BrokerTrial.Yaml.Cursor
import BrokerTrial.Yaml.Error

/-!
The tokens of a configuration text: marks of documents, collections and their parts, names, tags
and scalars.
-/

namespace BrokerTrial

namespace Yaml

inductive Directive
  | version (major minor : Nat)
  | handle (handle replacement : String)
  | other
deriving DecidableEq, Repr

/-- A tag in full, or the rest of one behind a handle. -/
structure TagName where
  handle : Option String
  suffix : String
deriving DecidableEq, Repr

inductive Token
  | directive (d : Directive)
  | documentStart
  | documentEnd
  | textEnd
  | blockSequenceStart
  | blockMappingStart
  | blockEnd
  | flowSequenceStart
  | flowSequenceEnd
  | flowMappingStart
  | flowMappingEnd
  | blockEntry
  | flowEntry
  | key
  | value
  | anchor (name : String)
  | alias (name : String)
  | tag (name : TagName)
  | scalar (text : String) (plain : Bool)
deriving DecidableEq, Repr

def malformed {α : Type} (cause : Malformed) : Except Error α := .error (.malformed cause)

end Yaml

end BrokerTrial

import BrokerTrial.Text.Quoted
import BrokerTrial.Value.Misuse

/-!
Errors of configuration text. A malformed text is refused; a scalar that does not fit its tag, and
an escape beyond the last character, are errors of their own.
-/

namespace BrokerTrial

namespace Yaml

/-- What is wrong with a malformed text. -/
inductive Malformed
  | unprintable
  /-- A character that starts no token. -/
  | noToken
  /-- A key that has to be there, without its colon. -/
  | keyWithoutValue
  /-- An entry, a key or a value where none can start. -/
  | misplaced
  | unopened
  | directive
  | name
  | tag
  | header
  | escape
  | unclosed
  | separatorInside
  /-- A token that cannot stand where it does. -/
  | unexpected
  | version
  | repeatedHandle
  | unknownHandle
  | undefinedAlias
  /-- An alias inside of the node that it stands for. -/
  | cyclicAlias
  | repeatedAnchor
  | severalDocuments
  | unknownTag
  | wrongNode
  | unhashableKey
  | notBase64
deriving DecidableEq, Repr

inductive Error
  | malformed (cause : Malformed)
  | misuse (m : Value.Misuse)
  /-- A text that is no number in its base. -/
  | notWhole (base : Nat) (shown : String)
  | emptyNumber
  | notTruth (word : String)
  | notDateTime
  /-- Where a time is written, a mapping with a default. -/
  | dateTimeOfMapping
  | calendar (e : Calendar.Error)
  | noCharacter (code : Nat)
deriving DecidableEq, Repr

namespace Error

/-- The kinds of errors that callers tell apart. -/
inductive Category
  | malformed
  | position
  | misuse (category : Value.Misuse.Category)
deriving DecidableEq, Repr

/-- The greatest number that is looked up as a character at all. -/
def lastNumber : Nat := 0x7FFFFFFF

def category : Error → Category
  | .malformed _ => .malformed
  | .misuse m => .misuse m.category
  | .notWhole .. | .calendar _ => .misuse .value
  | .emptyNumber => .position
  | .notTruth _ => .misuse .lookup
  | .notDateTime => .misuse .attribute
  | .dateTimeOfMapping => .misuse .type
  | .noCharacter code => .misuse (if lastNumber < code then .overflow else .value)

/-- The message; where and why a text is malformed is left out. -/
def message : Error → String
  | .malformed _ => "<yaml error>"
  | .misuse m => m.message
  | .notWhole base shown => s!"invalid literal for int() with base {base}: {shown}"
  | .emptyNumber => "string index out of range"
  | .notTruth word => Text.quoted word
  | .notDateTime => "'NoneType' object has no attribute 'groupdict'"
  | .dateTimeOfMapping => "expected string or bytes-like object, got 'list'"
  | .calendar e => e.message
  | .noCharacter code =>
    if lastNumber < code then "Python int too large to convert to C int"
    else "chr() arg not in range(0x110000)"

def isMalformed : Error → Bool
  | .malformed _ => true
  | _ => false

end Error

end Yaml

end BrokerTrial

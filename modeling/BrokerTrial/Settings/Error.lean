import BrokerTrial.Chunk
import BrokerTrial.ResendLimit
import BrokerTrial.Value.Shown

/-!
Errors of a configuration. Most of them refuse the configuration with a message; a missing member
and an overflow are not expected there and pass through as they are.
-/

namespace BrokerTrial

namespace Settings

inductive Error
  | misuse (m : Value.Misuse)
  | chunker (e : Chunker.Error)
  | limit (e : ResendLimit.Error)
deriving DecidableEq, Repr

namespace Error

def category : Error → Value.Misuse.Category
  | .misuse m => m.category
  | .chunker _ | .limit _ => .value

def message : Error → String
  | .misuse m => m.message
  | .chunker e => e.message
  | .limit e => e.message

/-- The error of a chunker. A size that has no text cannot be named in it. -/
def ofChunker (e : Chunker.Error) : Error :=
  match e with
  | .sizeNotPositive size => if (Value.int size).tooLong then .misuse .tooLong else .chunker e
  | _ => .chunker e

def ofLimit (e : ResendLimit.Error) : Error :=
  match e with
  | .capTooSmall cap => if (Value.int cap).tooLong then .misuse .tooLong else .limit e

/-- Whether the error refuses the configuration. -/
def refuses (e : Error) : Bool :=
  match e.category with
  | .lookup | .type | .value => true
  | .attribute | .overflow => false

end Error

/-- Lets the misuse of a value through as an error of the configuration. -/
def lift {α : Type} (r : Except Value.Misuse α) : Except Error α := r.mapError .misuse

end Settings

end BrokerTrial

import BrokerTrial.Binary64.Shortest
import BrokerTrial.Text.Quoted
import BrokerTrial.Value.Misuse

/-!
The text of a value. `shown` writes a value with its strings in quotes, as it stands inside lists
and mappings; `text` writes a string as it is and any other value as it is shown. Whole numbers of
too many digits have no text.
-/

namespace BrokerTrial

namespace Value

mutual

def shown : Value → String
  | .null => "None"
  | .bool b => if b then "True" else "False"
  | .int n => toString n
  | .float x => x.text
  | .str s => Text.quoted s
  | .bytes bs => Text.quotedBytes bs
  | .list items => "[" ++ ", ".intercalate (shownItems items) ++ "]"
  | .tuple [item] => "(" ++ item.shown ++ ",)"
  | .tuple items => "(" ++ ", ".intercalate (shownItems items) ++ ")"
  | .set [] => "set()"
  | .set items => "\x7b" ++ ", ".intercalate (shownItems items) ++ "\x7d"
  | .mapping entries => "\x7b" ++ ", ".intercalate (shownEntries entries) ++ "\x7d"
  | .date d => d.shown
  | .datetime m => m.shown

def shownItems : List Value → List String
  | [] => []
  | item :: rest => item.shown :: shownItems rest

def shownEntries : List (Value × Value) → List String
  | [] => []
  | (key, value) :: rest => (key.shown ++ ": " ++ value.shown) :: shownEntries rest

end

def text : Value → String
  | .str s => s
  | .date d => d.text
  | .datetime m => m.text
  | v => v.shown

mutual

/-- Whether a whole number in a value has more digits than are written out. -/
def tooLong : Value → Bool
  | .int n => Nat.pow 10 Misuse.digitLimit ≤ n.natAbs
  | .list items | .tuple items | .set items => tooLongItems items
  | .mapping entries => tooLongEntries entries
  | _ => false

def tooLongItems : List Value → Bool
  | [] => false
  | item :: rest => item.tooLong || tooLongItems rest

def tooLongEntries : List (Value × Value) → Bool
  | [] => false
  | (key, value) :: rest => key.tooLong || value.tooLong || tooLongEntries rest

end

/-- The text of a value that is converted to one. -/
def toText? (v : Value) : Except Misuse String :=
  if v.tooLong then .error .tooLong else .ok v.text

end Value

end BrokerTrial

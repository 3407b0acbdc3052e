import BrokerTrial.Binary64.Basic
import BrokerTrial.Value.Calendar

/-!
Dynamic values. A configuration is one value, and each setting in it can be of any kind; mappings
keep the order of their entries.
-/

namespace BrokerTrial

inductive Value
  | null
  | bool (b : Bool)
  | int (n : Int)
  | float (x : Binary64)
  | str (s : String)
  | bytes (bs : List UInt8)
  | list (items : List Value)
  | tuple (items : List Value)
  | set (items : List Value)
  | mapping (entries : List (Value × Value))
  | date (d : Day)
  | datetime (m : DateTime)
deriving Inhabited

namespace Value

inductive Kind
  | null | bool | int | float | str | bytes | list | tuple | set | mapping | date | datetime
deriving DecidableEq, Repr

def kind : Value → Kind
  | .null => .null
  | .bool _ => .bool
  | .int _ => .int
  | .float _ => .float
  | .str _ => .str
  | .bytes _ => .bytes
  | .list _ => .list
  | .tuple _ => .tuple
  | .set _ => .set
  | .mapping _ => .mapping
  | .date _ => .date
  | .datetime _ => .datetime

def Kind.label : Kind → String
  | .null => "NoneType"
  | .bool => "bool"
  | .int => "int"
  | .float => "float"
  | .str => "str"
  | .bytes => "bytes"
  | .list => "list"
  | .tuple => "tuple"
  | .set => "set"
  | .mapping => "dict"
  | .date => "date"
  | .datetime => "datetime"

/-- The name of a kind in the wording of errors. -/
def Kind.longLabel : Kind → String
  | .date => "datetime.date"
  | .datetime => "datetime.datetime"
  | k => k.label

/-- Whether a value counts as true: anything but nothing, zero and what is empty. -/
def truth : Value → Bool
  | .null => false
  | .bool b => b
  | .int n => n ≠ 0
  | .float x => !x.isZero
  | .str s => s ≠ ""
  | .bytes bs => !bs.isEmpty
  | .list items | .tuple items | .set items => !items.isEmpty
  | .mapping entries => !entries.isEmpty
  | .date _ | .datetime _ => true

/-- The exact value of a number of any kind; truth values count as zero and one. -/
def numeric? : Value → Option Rat
  | .bool b => some (if b then 1 else 0)
  | .int n => some n
  | .float x => x.toRat?
  | _ => none

mutual

/-- Whether two values are the same key of a mapping: numbers compare by their exact value, and
times by their instant. -/
def sameKey : Value → Value → Bool
  | .null, .null => true
  | .str s, .str t => s = t
  | .bytes s, .bytes t => s = t
  | .tuple xs, .tuple ys => sameKeys xs ys
  | .date d, .date e => d = e
  | .datetime m, .datetime n => m.sameInstant n
  | .float x, .float y => x = y || x.toRat?.isSome && x.toRat? = y.toRat?
  | x, y => x.numeric?.isSome && x.numeric? = y.numeric?

def sameKeys : List Value → List Value → Bool
  | [], [] => true
  | x :: xs, y :: ys => sameKey x y && sameKeys xs ys
  | _, _ => false

end

/-- The entry under a text key. -/
def member? (entries : List (Value × Value)) (key : String) : Option Value :=
  (entries.find? fun e => e.1.sameKey (.str key)).map (·.2)

/-- Puts a value under a key: in place of the value there, or as the last entry. -/
def insert (entries : List (Value × Value)) (key value : Value) : List (Value × Value) :=
  match entries with
  | [] => [(key, value)]
  | e :: rest => if e.1.sameKey key then (e.1, value) :: rest else e :: insert rest key value

end Value

end BrokerTrial

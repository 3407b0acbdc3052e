import BrokerTrial.Value.Basic

/-!
What can go wrong when a value is used as something it is not, and how that is worded.
-/

namespace BrokerTrial

namespace Value

/-- The cause; a text that is no number is kept as it is shown. -/
inductive Misuse
  | noMember (kind : Kind) (member : String)
  | missingKey (key : String)
  | notIndexable (kind : Kind)
  | textIndex (kind : Kind)
  | notIterable (kind : Kind)
  | notMapping (kind : Kind)
  | notWhole (shown : String)
  | tooManyDigits (count : Nat)
  | wholeOfNan
  | wholeOfInfinity
  | noWhole (kind : Kind)
  | notFraction (shown : String)
  | tooLong
  | tooLarge
  | noFraction (kind : Kind)
  | notPath
  | embeddedNull
deriving DecidableEq, Repr

namespace Misuse

/-- The kinds of misuse that callers tell apart. -/
inductive Category
  | attribute | lookup | type | value | overflow
deriving DecidableEq, Repr

def category : Misuse → Category
  | .noMember .. => .attribute
  | .missingKey _ => .lookup
  | .notIndexable _ | .textIndex _ | .notIterable _ | .notMapping _ | .noWhole _
  | .noFraction _ | .notPath => .type
  | .notWhole _ | .tooManyDigits _ | .wholeOfNan | .notFraction _ | .tooLong
  | .embeddedNull => .value
  | .wholeOfInfinity | .tooLarge => .overflow

def digitLimit : Nat := 4300

def message : Misuse → String
  | .noMember kind member => s!"'{kind.longLabel}' object has no attribute '{member}'"
  | .missingKey key => s!"'{key}'"
  | .notIndexable kind => s!"'{kind.longLabel}' object is not subscriptable"
  | .textIndex .str => "string indices must be integers, not 'str'"
  | .textIndex .bytes => "byte indices must be integers or slices, not str"
  | .textIndex kind => s!"{kind.label} indices must be integers or slices, not str"
  | .notIterable kind => s!"'{kind.longLabel}' object is not iterable"
  | .notMapping kind => s!"'{kind.longLabel}' object is not a mapping"
  | .notWhole shown => s!"invalid literal for int() with base 10: {shown}"
  | .tooManyDigits count =>
    s!"Exceeds the limit ({digitLimit} digits) for integer string conversion: " ++
      s!"value has {count} digits; use sys.set_int_max_str_digits() to increase the limit"
  | .wholeOfNan => "cannot convert float NaN to integer"
  | .wholeOfInfinity => "cannot convert float infinity to integer"
  | .noWhole kind =>
    "int() argument must be a string, a bytes-like object or a real number, not " ++
      s!"'{kind.longLabel}'"
  | .notFraction shown => s!"could not convert string to float: {shown}"
  | .tooLong =>
    s!"Exceeds the limit ({digitLimit} digits) for integer string conversion; " ++
      "use sys.set_int_max_str_digits() to increase the limit"
  | .tooLarge => "int too large to convert to float"
  | .noFraction kind =>
    s!"float() argument must be a string or a real number, not '{kind.longLabel}'"
  | .notPath => "cafile should be a valid filesystem path"
  | .embeddedNull => "embedded null byte"

end Misuse

end Value

end BrokerTrial

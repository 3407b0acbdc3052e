import BrokerTrial.Text.Pieces
import BrokerTrial.Yaml.Scalar.DateTime

/-!
Numbers as they are written: whole numbers in base two, eight, ten or sixteen, fractions, and both
in sixtieths. First which plain texts are numbers, then the number that a text writes.
-/

namespace BrokerTrial

namespace Yaml

open Value.Number (sign ofDigits)

namespace NumberText

def isDigitOrLine (c : Char) : Bool := c.isDigit || c = '_'

def isBit (c : Char) : Bool := c = '0' || c = '1' || c = '_'

def isOctal (c : Char) : Bool := '0' ≤ c && c ≤ '7' || c = '_'

def isHex (c : Char) : Bool := c.isDigit || 'a' ≤ c && c ≤ 'f' || 'A' ≤ c && c ≤ 'F' || c = '_'

def unsigned (cs : List Char) : List Char := (sign cs).2

/-- A digit, and then digits and underscores. -/
def isRun (cs : List Char) : Bool :=
  match cs with
  | c :: rest => c.isDigit && rest.all isDigitOrLine
  | [] => false

/-- A number below sixty, of one digit or two. -/
def isSixtieth : List Char → Bool
  | [d] => d.isDigit
  | [t, d] => '0' ≤ t && t ≤ '5' && d.isDigit
  | _ => false

/-- A number and at least one number of sixtieths, with colons between them. -/
def isSixtieths (cs : List Char) : Bool :=
  match Text.pieces ':' cs with
  | first :: second :: rest => isRun first && (second :: rest).all isSixtieth
  | _ => false

/-- Whether a plain text is a whole number. -/
def isWhole (text : List Char) : Bool :=
  match unsigned (withoutLineFeed text) with
  | [] => false
  | ['0'] => true
  | '0' :: 'b' :: rest => !rest.isEmpty && rest.all isBit
  | '0' :: 'x' :: rest => !rest.isEmpty && rest.all isHex
  | '0' :: rest => rest.all isOctal
  | cs => isRun cs || isSixtieths cs

/-- An exponent with its sign, or none. -/
def isExponent : List Char → Bool
  | [] => true
  | mark :: s :: rest =>
    (mark = 'e' || mark = 'E') && (s = '+' || s = '-') && !rest.isEmpty && rest.all Char.isDigit
  | _ => false

def isInfinity (cs : List Char) : Bool := [".inf", ".Inf", ".INF"].contains (String.ofList cs)

def isNan (cs : List Char) : Bool := [".nan", ".NaN", ".NAN"].contains (String.ofList cs)

/-- Digits, a point, and possibly more digits and an exponent. -/
def isDecimal (cs : List Char) : Bool :=
  match cs.dropWhile isDigitOrLine with
  | '.' :: rest => isRun (cs.takeWhile isDigitOrLine) && isExponent (rest.dropWhile isDigitOrLine)
  | _ => false

/-- A point, digits, and possibly an exponent. -/
def isPointed : List Char → Bool
  | '.' :: rest => isRun (rest.takeWhile isDigitOrLine) && isExponent (rest.dropWhile isDigitOrLine)
  | _ => false

/-- Sixtieths, a point, and possibly digits. -/
def isPointedSixtieths (cs : List Char) : Bool :=
  match cs.dropWhile (· ≠ '.') with
  | '.' :: rest => isSixtieths (cs.takeWhile (· ≠ '.')) && rest.all isDigitOrLine
  | _ => false

/-- Whether a plain text is a fraction. -/
def isFraction (text : List Char) : Bool :=
  let cs := withoutLineFeed text
  let body := unsigned cs
  isDecimal body || isPointed cs || isPointedSixtieths body || isInfinity body || isNan cs

/-- The number in a base that is a power of two; the base can be named in front. -/
def wholeIn (base : Nat) (letters : List Char) (cs : List Char) : Except Error Int :=
  let (negative, body) := sign (Value.Number.plain cs)
  let digits := match body with
    | '0' :: mark :: rest => if letters.contains mark then rest else body
    | _ => body
  let digit (c : Char) : Nat :=
    if c.isDigit then c.toNat - '0'.toNat
    else if isHex c && c ≠ '_' then c.toLower.toNat - 'a'.toNat + 10 else base
  if digits.isEmpty || digits.any (base ≤ digit ·) then
    .error (.notWhole base (String.ofList ((Text.quoted (String.ofList cs)).toList.take 200)))
  else
    let n := digits.foldl (fun n c => n * base + digit c) 0
    .ok (if negative then -(n : Int) else n)

/-- The number in base ten. -/
def decimal (cs : List Char) : Except Error Int :=
  (Value.str (String.ofList cs)).toInt?.mapError .misuse

/-- Numbers of sixtieths together, the last one counting one. -/
def sixtieths (ns : List Int) : Int := ns.foldl (fun total n => total * 60 + n) 0

def wholeUnsigned (cs : List Char) : Except Error Int :=
  match cs with
  | [] => .error .emptyNumber
  | ['0'] => .ok 0
  | '0' :: 'b' :: rest => wholeIn 2 ['b', 'B'] rest
  | '0' :: 'x' :: rest => wholeIn 16 ['x', 'X'] rest
  | '0' :: _ => wholeIn 8 ['o', 'O'] cs
  | cs =>
    if cs.contains ':' then sixtieths <$> (Text.pieces ':' cs).mapM decimal else decimal cs

/-- The text of a number without its underscores, and without a sign if it has one. -/
def signed (cs : List Char) : Except Error (Bool × List Char) :=
  match cs.filter (· ≠ '_') with
  | [] => .error .emptyNumber
  | cs => .ok (sign cs)

/-- The whole number that a text writes. -/
def whole (text : String) : Except Error Int := do
  let (negative, cs) ← signed text.toList
  let n ← wholeUnsigned cs
  return if negative then -n else n

/-- A fraction in base ten. -/
def fractionDecimal (cs : List Char) : Except Error Binary64 :=
  (Value.str (String.ofList cs)).toBinary64?.mapError .misuse

/-- Adds up numbers of sixtieths, the last one first, rounding after each step; `base` is what the
next one counts. -/
def sumSixtieths (base : Int) (total : Binary64) : List Binary64 → Except Error Binary64
  | [] => .ok total
  | x :: rest =>
    match Binary64.ofInt? base with
    | none => .error (.misuse .tooLarge)
    | some b => sumSixtieths (base * 60) (total.add (x.mul b)) rest

def fractionUnsigned (cs : List Char) : Except Error Binary64 :=
  if cs = ".inf".toList then .ok (Binary64.infinity false)
  else if cs = ".nan".toList then .ok Binary64.nan
  else if cs.contains ':' then do
    let parts ← (Text.pieces ':' cs).mapM fractionDecimal
    sumSixtieths 1 Binary64.zero parts.reverse
  else fractionDecimal cs

/-- The fraction that a text writes, in letters of any case. -/
def fraction (text : String) : Except Error Binary64 := do
  let (negative, cs) ← signed (text.toList.map Char.toLower)
  let x ← fractionUnsigned cs
  return if negative then x.neg else x

end NumberText

end Yaml

end BrokerTrial

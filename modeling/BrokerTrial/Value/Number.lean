import BrokerTrial.Binary64.Rounding
import BrokerTrial.Text.Blank
import BrokerTrial.Text.Digit
import BrokerTrial.Text.Quoted
import BrokerTrial.Value.Misuse

/-!
Values as numbers. A text is a number if, without the blanks around it, it is written in decimal
digits of any script, with single underscores between digits.
-/

namespace BrokerTrial

namespace Value

namespace Number

/-- The characters that matter inside a number: any decimal digit counts as its ASCII form. -/
def plainDigit (c : Char) : Char :=
  match Text.digitValue? c with
  | some d => Char.ofNat ('0'.toNat + d)
  | none => c

def plain (cs : List Char) : List Char := (Text.trim cs).map plainDigit

/-- Splits a leading sign off. -/
def sign : List Char → Bool × List Char
  | '-' :: rest => (true, rest)
  | '+' :: rest => (false, rest)
  | cs => (false, cs)

def ofDigits (ds : List Char) : Nat := ds.foldl (fun n c => n * 10 + (c.toNat - '0'.toNat)) 0

/-- No underscore but between two digits. -/
def underscoresApart (cs : List Char) : Bool :=
  let rec go : Option Char → List Char → Bool
    | before, [] => before ≠ some '_'
    | before, c :: rest =>
      (if c = '_' then (before.map Char.isDigit).getD false
       else before ≠ some '_' || c.isDigit) && go (some c) rest
  go none cs

def withoutUnderscores (cs : List Char) : List Char := cs.filter (· ≠ '_')

/-- Why digits are no whole number. -/
inductive Fault
  | malformed
  | tooMany (count : Nat)

/-- A whole number in decimal; the number of digits is bounded, and looked at before what follows
the digits. -/
def whole (cs : List Char) : Except Fault Int :=
  let (negative, body) := sign (plain cs)
  let run := body.takeWhile fun c => c.isDigit || c = '_'
  let digits := withoutUnderscores run
  if run.isEmpty || !underscoresApart run then .error .malformed
  else if Misuse.digitLimit < digits.length then .error (.tooMany digits.length)
  else if run.length ≠ body.length then .error .malformed
  else .ok (if negative then -(ofDigits digits : Int) else ofDigits digits)

/-- The exponent behind a mantissa: nothing, or a mark, a sign and digits. -/
def exponent? (cs : List Char) : Option Int :=
  match cs with
  | [] => some 0
  | mark :: rest =>
    let (negative, digits) := sign rest
    if (mark = 'e' || mark = 'E') && !digits.isEmpty && digits.all Char.isDigit then
      some (if negative then -(ofDigits digits : Int) else ofDigits digits)
    else none

/-- A fraction in decimal, an infinity or not a number, all underscores removed. -/
def fraction? (cs : List Char) : Option Binary64 :=
  let (negative, body) := sign cs
  let lower := body.map Char.toLower
  if lower = "inf".toList ∨ lower = "infinity".toList then some (Binary64.infinity negative)
  else if lower = "nan".toList then some Binary64.nan
  else
    let before := body.takeWhile Char.isDigit
    let rest := body.dropWhile Char.isDigit
    let (after, tail) := match rest with
      | '.' :: more => (more.takeWhile Char.isDigit, more.dropWhile Char.isDigit)
      | _ => ([], rest)
    if before.isEmpty && after.isEmpty then none
    else (exponent? tail).map fun e =>
      Binary64.ofDecimal negative (ofDigits (before ++ after)) (e - after.length)

/-- A fraction with its blanks and underscores. -/
def ofText? (cs : List Char) : Option Binary64 :=
  let body := plain cs
  if underscoresApart body then fraction? (withoutUnderscores body) else none

/-- Bytes read as a text of ASCII characters. -/
def ofBytes (bs : List UInt8) : List Char := bs.map fun b => Char.ofNat b.toNat

/-- Blanks and digits beyond ASCII do not count in bytes. -/
def asciiOnly (cs : List Char) : List Char :=
  cs.map fun c => if c.toNat < 128 then c else '?'

end Number

open Number

def wholeOfText (cs : List Char) (shown : String) : Except Misuse Int :=
  match whole cs with
  | .ok n => .ok n
  | .error .malformed => .error (.notWhole (String.ofList (shown.toList.take 200)))
  | .error (.tooMany count) => .error (.tooManyDigits count)

/-- A value as a whole number: a fraction is cut off toward zero. -/
def toInt? : Value → Except Misuse Int
  | .bool b => .ok (if b then 1 else 0)
  | .int n => .ok n
  | .float x =>
    match x.truncate? with
    | some n => .ok n
    | none => .error (if x.isNaN then .wholeOfNan else .wholeOfInfinity)
  | .str s => wholeOfText s.toList (Text.quoted s)
  | .bytes bs => wholeOfText (asciiOnly (ofBytes bs)) (Text.quotedBytes bs)
  | v => .error (.noWhole v.kind)

def fractionOfText (cs : List Char) (shown : String) : Except Misuse Binary64 :=
  match ofText? cs with
  | some x => .ok x
  | none => .error (.notFraction shown)

/-- A value as a floating-point number. -/
def toBinary64? : Value → Except Misuse Binary64
  | .bool b => .ok (Binary64.nearest false (if b then 1 else 0) 1)
  | .int n =>
    match Binary64.ofInt? n with
    | some x => .ok x
    | none => .error .tooLarge
  | .float x => .ok x
  | .str s => fractionOfText s.toList (Text.quoted s)
  | .bytes bs => fractionOfText (asciiOnly (ofBytes bs)) (Text.quotedBytes bs)
  | v => .error (.noFraction v.kind)

end Value

end BrokerTrial

import BrokerTrial.Value.Number
import BrokerTrial.Yaml.Error

/-!
Days and times as they are written: a year, a month and a day, and possibly a time of the day
with a fraction and a zone.
-/

namespace BrokerTrial

namespace Yaml

open Value.Number (ofDigits)

/-- The text without a line feed at its end. -/
def withoutLineFeed (cs : List Char) : List Char :=
  if cs.getLast? = some '\n' then cs.dropLast else cs

structure TimeText where
  hour : Nat
  minute : Nat
  second : Nat
  microsecond : Nat
  /-- Minutes from universal time, if a zone is written. -/
  offset : Option Int
deriving DecidableEq, Repr

structure DateTimeText where
  year : Nat
  month : Nat
  day : Nat
  time : Option TimeText
deriving DecidableEq, Repr

namespace DateTimeText

/-- A number of `least` to `most` digits, and what stands behind it. -/
def digits? (least most : Nat) (cs : List Char) : Option (Nat × List Char) :=
  let ds := (cs.takeWhile Char.isDigit).take most
  if ds.length < least then none else some (ofDigits ds, cs.drop ds.length)

def mark? (c : Char) : List Char → Option (List Char)
  | x :: rest => if x = c then some rest else none
  | [] => none

def skipBlanks (cs : List Char) : List Char := cs.dropWhile fun c => c = ' ' || c = '\t'

/-- Microseconds by the first six digits of a fraction. -/
def microseconds (digits : List Char) : Nat :=
  ofDigits ((digits ++ List.replicate 6 '0').take 6)

def fraction (cs : List Char) : Nat × List Char :=
  match cs with
  | '.' :: rest => (microseconds (rest.takeWhile Char.isDigit), rest.dropWhile Char.isDigit)
  | cs => (0, cs)

/-- A zone up to the end of the text: none, universal time, or hours and possibly minutes. -/
def zone? (cs : List Char) : Option (Option Int) :=
  match cs, skipBlanks cs with
  | [], _ => some none
  | _, ['Z'] => some (some 0)
  | _, sign :: rest => do
    if sign ≠ '+' ∧ sign ≠ '-' then none
    let (hours, rest) ← digits? 1 2 rest
    let (minutes, rest) ← match rest with
      | ':' :: rest => digits? 2 2 rest
      | rest => some (0, rest)
    if rest ≠ [] then none
    let minutes : Int := hours * 60 + minutes
    return some (if sign = '-' then -minutes else minutes)
  | _, [] => none

/-- A time behind its mark, up to the end of the text. -/
def time? (cs : List Char) : Option TimeText := do
  let rest ← match cs with
    | c :: rest =>
      if c = 'T' || c = 't' then some rest
      else if c = ' ' || c = '\t' then some (skipBlanks rest) else none
    | [] => none
  let (hour, rest) ← digits? 1 2 rest
  let (minute, rest) ← digits? 2 2 (← mark? ':' rest)
  let (second, rest) ← digits? 2 2 (← mark? ':' rest)
  let (microsecond, rest) := fraction rest
  return ⟨hour, minute, second, microsecond, ← zone? rest⟩

def ofText? (text : List Char) : Option DateTimeText := do
  let (year, rest) ← digits? 4 4 (withoutLineFeed text)
  let (month, rest) ← digits? 1 2 (← mark? '-' rest)
  let (day, rest) ← digits? 1 2 (← mark? '-' rest)
  if rest = [] then return ⟨year, month, day, none⟩
  return ⟨year, month, day, some (← time? rest)⟩

/-- Without a tag, a day is a day only if its month and its day have two digits each. -/
def isPlain (text : List Char) : Bool :=
  match ofText? text with
  | some ⟨_, _, _, none⟩ => (withoutLineFeed text).length = 10
  | some ⟨_, _, _, some _⟩ => true
  | none => false

def value (t : DateTimeText) : Except Calendar.Error Value :=
  match t.time with
  | none => .date <$> Day.ofNumbers? t.year t.month t.day
  | some u =>
    .datetime <$>
      DateTime.ofNumbers? t.year t.month t.day u.hour u.minute u.second u.microsecond u.offset

end DateTimeText

end Yaml

end BrokerTrial

import BrokerTrial.Binary64.Basic

/-!
The shortest decimal text of a floating-point number: the fewest digits that read back as the
number, and of those the digits nearest to it.
-/

namespace BrokerTrial

namespace Binary64

/-- A decimal number `digits * 10 ^ exponent`. -/
structure Decimal where
  digits : Nat
  exponent : Int
deriving DecidableEq, Repr

/-- The fractions that round to one number: those between the halfway points to its two
neighbours, given over one denominator; the ends belong to it if its mantissa is even. -/
structure Interval where
  low : Nat
  value : Nat
  high : Nat
  den : Nat
  closed : Bool

/-- The interval of `m * 2 ^ e` with `0 < m`. The lower neighbour of a power of two is half a unit
away. -/
def Interval.of (m : Nat) (e : Int) : Interval :=
  let atPower : Bool := m = Nat.pow 2 52 ∧ -1074 < e
  let value := 4 * m
  let low := if atPower then value - 1 else value - 2
  let high := value + 2
  match e with
  | .ofNat k => ⟨low * Nat.pow 2 k, value * Nat.pow 2 k, high * Nat.pow 2 k, 4, m % 2 = 0⟩
  | .negSucc k => ⟨low, value, high, 4 * Nat.pow 2 (k + 1), m % 2 = 0⟩

def Interval.holds (i : Interval) (num den : Nat) : Bool :=
  if i.closed then i.low * den ≤ num * i.den ∧ num * i.den ≤ i.high * den
  else i.low * den < num * i.den ∧ num * i.den < i.high * den

/-- The number of decimal places in front of the point: the least `k` with `num / den < 10 ^ k`. -/
def leadingPlace (num den : Nat) : Int :=
  if den ≤ num then (Nat.toDigits 10 (num / den)).length
  else 1 - (Nat.toDigits 10 ((den - 1) / num)).length

/-- The neighbours of the value on the grid of multiples of `10 ^ place`, the nearer one first. -/
def gridPoints (i : Interval) (place : Int) : List Nat :=
  let (num, den) := match place with
    | .ofNat k => (i.value, i.den * Nat.pow 10 k)
    | .negSucc k => (i.value * Nat.pow 10 (k + 1), i.den)
  let q := num / den
  let twice := 2 * (num % den)
  if twice < den ∨ (twice = den ∧ q % 2 = 0) then [q, q + 1] else [q + 1, q]

def onGrid (i : Interval) (place : Int) : Option Decimal :=
  (gridPoints i place).findSome? fun d =>
    let inside : Bool := match place with
      | .ofNat k => i.holds (d * Nat.pow 10 k) 1
      | .negSucc k => i.holds d (Nat.pow 10 (k + 1))
    if inside && 0 < d then some ⟨d, place⟩ else none

/-- Tries ever finer grids, from one digit to seventeen. -/
def shortest (m : Nat) (e : Int) : Decimal :=
  let i := Interval.of m e
  let lead := leadingPlace i.value i.den
  ((List.range 17).findSome? fun (k : Nat) => onGrid i (lead - 1 - k)).getD ⟨m, e⟩

/-- How the digits of a number are laid out. -/
structure Layout where
  /-- The places before the point for which the text has no exponent. -/
  leastPlace : Int
  mostPlace : Int
  exponentDigits : Nat

/-- The text of `0.digits * 10 ^ place` in a layout; a whole number keeps one zero after the
point. -/
def Layout.render (l : Layout) (digits : List Char) (place : Int) : List Char :=
  let n : Int := digits.length
  if l.leastPlace ≤ place ∧ place ≤ l.mostPlace then
    if place ≤ 0 then ['0', '.'] ++ List.replicate (-place).toNat '0' ++ digits
    else if n ≤ place then digits ++ List.replicate (place - n).toNat '0' ++ ['.', '0']
    else digits.take place.toNat ++ ['.'] ++ digits.drop place.toNat
  else
    let exponent := place - 1
    let shown := Nat.toDigits 10 exponent.natAbs
    let point := if n = 1 then [] else '.' :: digits.drop 1
    digits.take 1 ++ point ++ ['e', if exponent < 0 then '-' else '+'] ++
      List.replicate (l.exponentDigits - shown.length) '0' ++ shown

/-- Positional from 0.0001 up to below 10 ^ 16, an exponent of at least two digits otherwise. -/
def layout : Layout := ⟨-3, 16, 2⟩

def text (x : Binary64) : String :=
  match x.classify with
  | .nan => "nan"
  | .infinite negative => if negative then "-inf" else "inf"
  | .finite negative m e =>
    let sign := if negative then ['-'] else []
    if m = 0 then String.ofList (sign ++ ['0', '.', '0'])
    else
      let d := shortest m e
      let digits := Nat.toDigits 10 d.digits
      -- a grid point may end in zeros
      let kept := (digits.reverse.dropWhile (· = '0')).reverse
      String.ofList (sign ++ layout.render kept (digits.length + d.exponent))

end Binary64

end BrokerTrial

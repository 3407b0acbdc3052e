/-!
Floating-point numbers of 64 bits, as data: a number is its bit pattern, and its value is an exact
fraction read off the pattern. Nothing here uses machine arithmetic.
-/

namespace BrokerTrial

structure Binary64 where
  bits : UInt64
deriving DecidableEq, Repr

namespace Binary64

/-- A finite number stands for `mantissa * 2 ^ exponent`, negated if `negative`. -/
inductive Class
  | finite (negative : Bool) (mantissa : Nat) (exponent : Int)
  | infinite (negative : Bool)
  | nan
deriving DecidableEq, Repr

def classify (x : Binary64) : Class :=
  let n := x.bits.toNat
  let negative : Bool := n / Nat.pow 2 63 = 1
  let biased : Nat := n / Nat.pow 2 52 % Nat.pow 2 11
  let fraction : Nat := n % Nat.pow 2 52
  if biased = 2047 then
    if fraction = 0 then .infinite negative else .nan
  else if biased = 0 then .finite negative fraction (-1074)
  else .finite negative (fraction + Nat.pow 2 52) ((biased : Int) - 1075)

/-- The pattern of a sign and the 63 bits below it. -/
def ofMagnitude (negative : Bool) (magnitude : Nat) : Binary64 :=
  ⟨UInt64.ofNat (magnitude + if negative then Nat.pow 2 63 else 0)⟩

def infinity (negative : Bool) : Binary64 := ofMagnitude negative (2047 * Nat.pow 2 52)

def nan : Binary64 := ofMagnitude false (2047 * Nat.pow 2 52 + Nat.pow 2 51)

def zero : Binary64 := ofMagnitude false 0

def isNaN (x : Binary64) : Bool := x.classify = .nan

/-- The exact value of a finite number. -/
def toRat? (x : Binary64) : Option Rat :=
  match x.classify with
  | .finite negative m (.ofNat e) =>
    let v : Nat := m * Nat.pow 2 e
    some (if negative then -v else v)
  | .finite negative m (.negSucc e) =>
    let v := mkRat m (Nat.pow 2 (e + 1))
    some (if negative then -v else v)
  | _ => none

/-- Not a number differs from everything, itself included; the two zeros are equal. -/
def isZero (x : Binary64) : Bool :=
  match x.classify with
  | .finite _ m _ => m = 0
  | _ => false

/-- The value with its fraction cut off, for a finite number. -/
def truncate? (x : Binary64) : Option Int :=
  match x.classify with
  | .finite negative m e =>
    let n : Nat := match e with
      | .ofNat k => m * Nat.pow 2 k
      | .negSucc k => m / Nat.pow 2 (k + 1)
    some (if negative then -n else n)
  | _ => none

end Binary64

end BrokerTrial

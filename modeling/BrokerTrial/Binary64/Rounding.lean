import BrokerTrial.Binary64.Basic

/-!
The floating-point number nearest to a fraction. A tie goes to the number whose last bit is zero,
and what lies beyond the largest finite number is infinite.
-/

namespace BrokerTrial

namespace Binary64

/-- The whole number nearest to a quotient, a half going to the even neighbour. -/
def roundQuotient (num den : Nat) : Nat :=
  let q := num / den
  let twice := 2 * (num % den)
  if twice < den then q
  else if twice > den then q + 1
  else q + q % 2

/-- The greatest `k` with `2 ^ k ≤ num / den`. -/
def log2Quotient (num den : Nat) : Int :=
  let guess : Int := (num.log2 : Int) - den.log2
  let reached : Bool := match guess with
    | .ofNat k => den * Nat.pow 2 k ≤ num
    | .negSucc k => den ≤ num * Nat.pow 2 (k + 1)
  if reached then guess else guess - 1

/-- The number nearest to `num / den`, for a positive `den`. -/
def nearest (negative : Bool) (num den : Nat) : Binary64 :=
  if num = 0 then ofMagnitude negative 0
  else
    let unit : Int := max (log2Quotient num den - 52) (-1074)
    let m := match unit with
      | .ofNat k => roundQuotient num (den * Nat.pow 2 k)
      | .negSucc k => roundQuotient (num * Nat.pow 2 (k + 1)) den
    -- below the normal range the fraction stands alone
    let magnitude :=
      if m < Nat.pow 2 52 then m else (unit + 1075).toNat * Nat.pow 2 52 + (m - Nat.pow 2 52)
    if magnitude < 2047 * Nat.pow 2 52 then ofMagnitude negative magnitude else infinity negative

def ofRat (v : Rat) : Binary64 := nearest (v.num < 0) v.num.natAbs v.den

/-- The number nearest to a whole number, unless that lies beyond the finite range. -/
def ofInt? (n : Int) : Option Binary64 :=
  let x := nearest (n < 0) n.natAbs 1
  match x.classify with
  | .infinite _ => none
  | _ => some x

/-- The number nearest to `digits * 10 ^ exponent`. Beyond the range of exponents tested here the
value is zero or infinite, so that no power of ten grows out of bounds. -/
def ofDecimal (negative : Bool) (digits : Nat) (exponent : Int) : Binary64 :=
  let size : Int := (Nat.toDigits 10 digits).length + exponent
  if digits = 0 ∨ size < -330 then ofMagnitude negative 0
  else if size > 310 then infinity negative
  else match exponent with
    | .ofNat k => nearest negative (digits * Nat.pow 10 k) 1
    | .negSucc k => nearest negative digits (Nat.pow 10 (k + 1))

/-- The number with its sign changed. -/
def neg (x : Binary64) : Binary64 := ⟨x.bits ^^^ UInt64.ofNat (Nat.pow 2 63)⟩

/-- The number nearest to a sum; a sum of nothing but negative zeros is negative. -/
def add (x y : Binary64) : Binary64 :=
  match x.classify, y.classify with
  | .nan, _ | _, .nan => nan
  | .infinite s, .infinite t => if s = t then x else nan
  | .infinite _, _ => x
  | _, .infinite _ => y
  | .finite s _ _, .finite t _ _ =>
    let sum := x.toRat?.getD 0 + y.toRat?.getD 0
    if sum = 0 then ofMagnitude (s && t) 0 else ofRat sum

/-- The number nearest to a product; the product of an infinite number and zero is none. -/
def mul (x y : Binary64) : Binary64 :=
  match x.classify, y.classify with
  | .nan, _ | _, .nan => nan
  | .infinite s, .infinite t => infinity (s ≠ t)
  | .infinite s, .finite t m _ | .finite t m _, .infinite s =>
    if m = 0 then nan else infinity (s ≠ t)
  | .finite s _ _, .finite t _ _ =>
    let product := x.toRat?.getD 0 * y.toRat?.getD 0
    nearest (s ≠ t) product.num.natAbs product.den

end Binary64

end BrokerTrial

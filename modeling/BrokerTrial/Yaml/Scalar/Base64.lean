/-!
Bytes written in base 64. Characters outside of the alphabet are passed over; four characters are
three bytes, and the last group is filled up with equals signs.
-/

namespace BrokerTrial

namespace Yaml

namespace Base64

/-- The six bits of a character of the alphabet. -/
def sextet? (c : Char) : Option Nat :=
  if 'A' ≤ c && c ≤ 'Z' then some (c.toNat - 'A'.toNat)
  else if 'a' ≤ c && c ≤ 'z' then some (c.toNat - 'a'.toNat + 26)
  else if c.isDigit then some (c.toNat - '0'.toNat + 52)
  else if c = '+' then some 62
  else if c = '/' then some 63
  else none

/-- The byte that is complete with the sextet `new` at position `place` of a group, behind the
sextet `old`. -/
def byte? (place old new : Nat) : Option UInt8 :=
  match place with
  | 1 => some (UInt8.ofNat (old * 4 + new / 16))
  | 2 => some (UInt8.ofNat (old % 16 * 16 + new / 4))
  | 3 => some (UInt8.ofNat (old % 4 * 64 + new))
  | _ => none

/-- Reads from position `place` of a group, behind the sextet `old` and `pads` equals signs in a
row. The text ends where equals signs fill up a group, and otherwise between two groups. -/
def decodeFrom (place old pads : Nat) : List Char → Option (List UInt8)
  | [] => if place = 0 then some [] else none
  | c :: rest =>
    if c = '=' then
      if 2 ≤ place then
        if 4 ≤ place + pads + 1 then some [] else decodeFrom place old (pads + 1) rest
      else decodeFrom place old pads rest
    else match sextet? c with
      | none => decodeFrom place old pads rest
      | some new =>
        (decodeFrom ((place + 1) % 4) new 0 rest).map ((byte? place old new).toList ++ ·)

/-- The bytes of a text of ASCII characters. -/
def decode? (cs : List Char) : Option (List UInt8) :=
  if cs.all fun c => c.toNat < 128 then decodeFrom 0 0 0 cs else none

end Base64

end Yaml

end BrokerTrial

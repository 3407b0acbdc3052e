/-!
Reading UTF-8. A text is refused at its first byte that starts no character, with the bytes that
are at fault and the reason.
-/

namespace BrokerTrial

namespace Text

namespace Utf8

inductive Fault
  | invalidStart | invalidContinuation | unexpectedEnd
deriving DecidableEq, Repr

def Fault.reason : Fault → String
  | .invalidStart => "invalid start byte"
  | .invalidContinuation => "invalid continuation byte"
  | .unexpectedEnd => "unexpected end of data"

/-- The bytes at fault, and the position of the first one. -/
structure Error where
  fault : Fault
  position : Nat
  bytes : List UInt8
deriving DecidableEq, Repr

def Error.message (e : Error) : String :=
  match e.bytes with
  | [b] =>
    let shown := String.ofList (Nat.toDigits 16 b.toNat)
    let padded := if b.toNat < 16 then "0" ++ shown else shown
    s!"'utf-8' codec can't decode byte 0x{padded} in position {e.position}: {e.fault.reason}"
  | bs =>
    let last := e.position + bs.length - 1
    s!"'utf-8' codec can't decode bytes in position {e.position}-{last}: {e.fault.reason}"

/-- How many bytes a character has that starts with `b`, and the bounds of its second byte. Overlong
forms, surrogates and numbers beyond U+10FFFF are excluded by these bounds. -/
def lead? (b : UInt8) : Option (Nat × Nat × Nat) :=
  let n := b.toNat
  if n < 0x80 then some (1, 0, 0)
  else if n < 0xC2 then none
  else if n < 0xE0 then some (2, 0x80, 0xBF)
  else if n = 0xE0 then some (3, 0xA0, 0xBF)
  else if n = 0xED then some (3, 0x80, 0x9F)
  else if n < 0xF0 then some (3, 0x80, 0xBF)
  else if n = 0xF0 then some (4, 0x90, 0xBF)
  else if n < 0xF4 then some (4, 0x80, 0xBF)
  else if n = 0xF4 then some (4, 0x80, 0x8F)
  else none

/-- How many of the continuation bytes after a leading byte are as they must be. -/
def continued (low high : Nat) : Nat → List UInt8 → Nat
  | 0, _ => 0
  | _ + 1, [] => 0
  | k + 1, b :: rest =>
    if low ≤ b.toNat ∧ b.toNat ≤ high then continued 0x80 0xBF k rest + 1 else 0

def codePoint (length : Nat) (bytes : List UInt8) : Nat :=
  match bytes with
  | [] => 0
  | b :: rest =>
    let top := if length = 1 then b.toNat else b.toNat % Nat.pow 2 (7 - length)
    rest.foldl (fun n c => n * 64 + c.toNat % 64) top

/-- Reads from `position` on. A character cut off by the end of the data is counted from its own
first byte, because it is looked at again only when the end is known. -/
def decodeFrom (position : Nat) (bytes : List UInt8) : Except Error (List Char) :=
  match bytes with
  | [] => .ok []
  | b :: rest =>
    match lead? b with
    | none => .error ⟨.invalidStart, position, [b]⟩
    | some (length, low, high) =>
      let good := continued low high (length - 1) rest
      if good = length - 1 then
        (Char.ofNat (codePoint length (b :: rest.take good)) :: ·) <$>
          decodeFrom (position + length) (rest.drop good)
      else if good = rest.length then .error ⟨.unexpectedEnd, 0, b :: rest⟩
      else
        let start := if 1 < length ∧ good = 0 ∧ rest.length = 1 ∧ atSurrogate b rest then 0
          else position
        .error ⟨.invalidContinuation, start, b :: rest.take good⟩
termination_by bytes.length
decreasing_by simp only [List.length_drop, List.length_cons]; omega
where
  /-- The first two bytes of a surrogate at the end of the data also wait for the end. -/
  atSurrogate (b : UInt8) (rest : List UInt8) : Bool :=
    b = 0xED && rest.all fun c => 0xA0 ≤ c.toNat && c.toNat ≤ 0xBF

def decode (bytes : List UInt8) : Except Error String :=
  String.ofList <$> decodeFrom 0 bytes

end Utf8

end Text

end BrokerTrial

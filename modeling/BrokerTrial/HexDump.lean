import BrokerTrial.Log

/-!
Hex dumps. A line shows an offset, up to sixteen bytes as two-digit hex groups in a field of fixed
width, and the same bytes as text with a full stop for each byte that is not printable ASCII.
-/

namespace BrokerTrial

namespace HexDump

def bytesPerLine : Nat := 16

/-- The upper-case hex digits of a number, padded on the left with zeros to `width`. -/
def hexNumber (width n : Nat) : List Char :=
  let digits := (Nat.toDigits 16 n).map Char.toUpper
  List.replicate (width - digits.length) '0' ++ digits

def hexByte (b : UInt8) : List Char := hexNumber 2 b.toNat

/-- The byte itself if it is printable ASCII. -/
def shownByte (b : UInt8) : Char :=
  if 32 ≤ b.toNat ∧ b.toNat < 127 then Char.ofNat b.toNat else '.'

/-- The hex groups of a row, one blank apart, padded to the width of a full row. -/
def hexField (row : List UInt8) : List Char :=
  let groups := List.intercalate [' '] (row.map hexByte)
  groups ++ List.replicate (bytesPerLine * 3 - 1 - groups.length) ' '

def lineChars (offset : Nat) (row : List UInt8) : List Char :=
  hexNumber 4 offset ++ [':', ' '] ++ hexField row ++ [' ', ' ', ' '] ++ row.map shownByte

def linesFrom (offset : Nat) (data : List UInt8) : List (List Char) :=
  if data = [] then []
  else
    lineChars offset (data.take bytesPerLine) ::
      linesFrom (offset + bytesPerLine) (data.drop bytesPerLine)
termination_by data.length
decreasing_by
  rename_i hl
  have := List.length_pos_iff.2 hl
  simp only [List.length_drop, bytesPerLine]; omega

/-- The dump of a byte string, without a line end. -/
def lines (data : List UInt8) : List String := (linesFrom 0 data).map String.ofList

/-- A dump as it is logged: its size first, then its lines, all at one level. -/
def entries (level : Log.Level) (data : List UInt8) : List Log.Entry :=
  ⟨level, s!"hexdump of {data.length} bytes"⟩ :: (lines data).map (⟨level, ·⟩)

end HexDump

end BrokerTrial

/-!
A place in a text: what is left of it, with the line and the column. Lines end at a line feed, a
next-line character or one of the two Unicode separators; carriage returns have been read as line
feeds before.
-/

namespace BrokerTrial

namespace Yaml

def isBreak (c : Char) : Bool := c = '\n' || c = '\u0085' || c = '\u2028' || c = '\u2029'

/-- Whether nothing follows on the line. -/
def endsLine (c : Option Char) : Bool := c.all isBreak

/-- Whether a space or nothing follows. -/
def endsWord (c : Option Char) : Bool := c.all fun c => c = ' ' || isBreak c

/-- Whether a space, a tab or nothing follows. -/
def endsToken (c : Option Char) : Bool := c.all fun c => c = ' ' || c = '\t' || isBreak c

/-- ASCII letters, digits, the dash and the underscore. -/
def isNameChar (c : Char) : Bool := c.isAlphanum || c = '-' || c = '_'

structure Cursor where
  rest : List Char
  index : Nat := 0
  line : Nat := 0
  column : Nat := 0

namespace Cursor

/-- The start of a text, behind its byte order mark. -/
def ofText (text : String) : Cursor :=
  match text.toList with
  | '\uFEFF' :: rest => { rest }
  | rest => { rest }

def peek (c : Cursor) : Option Char := c.rest.head?

def peekAt (c : Cursor) (n : Nat) : Option Char := c.rest[n]?

/-- A byte order mark inside of a text takes no column. -/
def next (c : Cursor) : Cursor :=
  match c.rest with
  | [] => c
  | x :: rest =>
    if isBreak x then ⟨rest, c.index + 1, c.line + 1, 0⟩
    else ⟨rest, c.index + 1, c.line, if x = '\uFEFF' then c.column else c.column + 1⟩

def advance : Nat → Cursor → Cursor
  | 0, c => c
  | n + 1, c => advance n c.next

def skipWhile (p : Char → Bool) (c : Cursor) : Cursor := c.advance (c.rest.takeWhile p).length

/-- The longest run of characters with `p`, and the place behind it. -/
def span (p : Char → Bool) (c : Cursor) : List Char × Cursor := (c.rest.takeWhile p, c.skipWhile p)

def skipSpaces (c : Cursor) : Cursor := c.skipWhile (· = ' ')

def skipBlanks (c : Cursor) : Cursor := c.skipWhile fun x => x = ' ' || x = '\t'

def skipLine (c : Cursor) : Cursor := c.skipWhile fun x => !isBreak x

/-- Spaces, and a comment if one follows. -/
def skipComment (c : Cursor) : Cursor :=
  let c := c.skipSpaces
  if c.peek = some '#' then c.skipLine else c

/-- The line break at the place, as it counts in the text of a scalar. -/
def lineBreak? (c : Cursor) : Option (Char × Cursor) :=
  match c.rest with
  | x :: _ => if isBreak x then some (if x = '\u0085' then '\n' else x, c.next) else none
  | [] => none

/-- Whether three of the character `x` and nothing else stand at the place. -/
def hasMarker (x : Char) (c : Cursor) : Bool :=
  c.rest.take 3 = [x, x, x] && endsToken (c.peekAt 3)

/-- Whether the start or the end of a document is marked at the place. -/
def atSeparator (c : Cursor) : Bool := c.hasMarker '-' || c.hasMarker '.'

end Cursor

end Yaml

end BrokerTrial

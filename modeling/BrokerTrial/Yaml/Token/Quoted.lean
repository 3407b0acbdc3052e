import BrokerTrial.Yaml.Token.Name

/-!
Scalars in quotes. A line break inside is folded: one break is a space, and of several breaks the
first one is dropped. Double quotes know escapes; in single quotes a quote is written twice.
-/

namespace BrokerTrial

namespace Yaml

/-- The text of a line break with the breaks that follow it. -/
def folded (first : Char) (more : List Char) : List Char :=
  (if first ≠ '\n' then [first] else if more = [] then [' '] else []) ++ more

namespace Quoted

/-- The line breaks of empty lines; the marks of documents cannot stand inside of quotes. -/
def scanBreaks : Nat → Cursor → Except Error (List Char × Cursor)
  | 0, c => .ok ([], c)
  | fuel + 1, c =>
    if c.atSeparator then malformed .separatorInside
    else
      let c := c.skipBlanks
      match c.lineBreak? with
      | none => .ok ([], c)
      | some (x, c) => do
        let (more, c) ← scanBreaks fuel c
        return (x :: more, c)

/-- Blanks stay as they are before a character, and are dropped around a line break. -/
def scanGap (c : Cursor) : Except Error (List Char × Cursor) :=
  let (blanks, c) := c.span fun x => x = ' ' || x = '\t'
  match c.lineBreak? with
  | none => .ok (blanks, c)
  | some (x, c) => do
    let (more, c) ← scanBreaks c.rest.length c
    return (folded x more, c)

/-- The characters that one letter behind a backslash stands for. -/
def escapes : List (Char × Char) := [
  ('0', '\x00'), ('a', '\x07'), ('b', '\x08'), ('t', '\t'), ('\t', '\t'), ('n', '\n'),
  ('v', '\x0b'), ('f', '\x0c'), ('r', '\r'), ('e', '\x1b'), (' ', ' '), ('\x22', '\x22'),
  ('\\', '\\'), ('/', '/'), ('N', '\u0085'), ('_', '\u00a0'), ('L', '\u2028'), ('P', '\u2029')]

/-- The number of digits behind the letters that introduce a code. -/
def codeLength? : Char → Option Nat
  | 'x' => some 2
  | 'u' => some 4
  | 'U' => some 8
  | _ => none

/-- The number in `length` hexadecimal digits. -/
def code? (length : Nat) (cs : List Char) : Option Nat :=
  let digits := cs.take length
  if digits.length = length && digits.all isHexDigit then some (hexValue digits) else none

/-- A code that follows as an escape, with the number of its characters. -/
def escapedCode? (cs : List Char) : Option (Nat × Nat) :=
  match cs with
  | '\\' :: letter :: rest => do
    let length ← codeLength? letter
    return (← code? length rest, length + 2)
  | _ => none

def isHighSurrogate (code : Nat) : Bool := 0xD800 ≤ code && code < 0xDC00

def isLowSurrogate (code : Nat) : Bool := 0xDC00 ≤ code && code < 0xE000

/-- The character of a code, and how much of what follows belongs to it. Two surrogates are one
character; one alone has none and is replaced. -/
def codeChar (code : Nat) (rest : List Char) : Except Error (Char × Nat) :=
  if 0x10FFFF < code then .error (.noCharacter code)
  else if isHighSurrogate code then
    match escapedCode? rest with
    | some (low, length) =>
      if isLowSurrogate low then
        .ok (Char.ofNat (0x10000 + (code - 0xD800) * 0x400 + (low - 0xDC00)), length)
      else .ok ('\uFFFD', 0)
    | none => .ok ('\uFFFD', 0)
  else if isLowSurrogate code then .ok ('\uFFFD', 0)
  else .ok (Char.ofNat code, 0)

/-- What a backslash at the place stands for. -/
def scanEscape (c : Cursor) : Except Error (List Char × Cursor) :=
  let c := c.next
  match c.lineBreak? with
  | some (_, c) => scanBreaks c.rest.length c
  | none =>
    match c.peek with
    | none => malformed .escape
    | some letter =>
      match escapes.lookup letter, codeLength? letter with
      | some x, _ => .ok ([x], c.next)
      | none, none => malformed .escape
      | none, some length =>
        match code? length c.next.rest with
        | none => malformed .escape
        | some code => do
          let c := c.next.advance length
          let (x, more) ← codeChar code c.rest
          return ([x], c.advance more)

/-- What stands at the place inside of quotes, or nothing at the closing quote. -/
def scanPiece (quote : Char) (c : Cursor) : Except Error (Option (List Char × Cursor)) :=
  match c.peek with
  | none => malformed .unclosed
  | some x =>
    if x = quote then
      if quote = '\x27' && c.peekAt 1 = some quote then .ok (some ([quote], c.advance 2))
      else .ok none
    else if x = '\\' && quote = '\x22' then some <$> scanEscape c
    else if endsToken (some x) then some <$> scanGap c
    else .ok (some ([x], c.next))

def scanFrom (quote : Char) : Nat → Cursor → Except Error (List Char × Cursor)
  | 0, _ => malformed .unclosed
  | fuel + 1, c => do
    match ← scanPiece quote c with
    | none => return ([], c.next)
    | some (piece, c) =>
      let (more, c) ← scanFrom quote fuel c
      return (piece ++ more, c)

/-- The text in the quotes at the place. -/
def scan (quote : Char) (c : Cursor) : Except Error (String × Cursor) := do
  let (text, c) ← scanFrom quote (c.rest.length + 1) c.next
  return (String.ofList text, c)

end Quoted

end Yaml

end BrokerTrial

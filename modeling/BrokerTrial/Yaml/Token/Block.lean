import BrokerTrial.Yaml.Token.Quoted

/-!
Scalars in lines of their own. A header says whether their line breaks are kept or folded, what
becomes of those at the end, and how far the lines are indented.
-/

namespace BrokerTrial

namespace Yaml

namespace Block

/-- What becomes of the line breaks at the end: one is left, none or all. -/
inductive Chomping
  | clip | strip | keep
deriving DecidableEq, Repr

structure Header where
  chomping : Chomping := .clip
  increment : Option Nat := none
deriving DecidableEq, Repr

def chomping? : Option Char → Option Chomping
  | some '+' => some .keep
  | some '-' => some .strip
  | _ => none

/-- The increment of the indentation, if a digit stands at the place; it is not zero. -/
def scanIncrement (c : Cursor) : Except Error (Option Nat × Cursor) :=
  match c.peek with
  | some x =>
    if x = '0' then malformed .header
    else if x.isDigit then .ok (some (x.toNat - '0'.toNat), c.next)
    else .ok (none, c)
  | none => .ok (none, c)

/-- The marks of a header, in either order, and the rest of its line. -/
def scanHeader (c : Cursor) : Except Error (Header × Cursor) := do
  let (header, c) ← match chomping? c.peek with
    | some chomping => do
      let (increment, c) ← scanIncrement c.next
      pure (({ chomping, increment } : Header), c)
    | none => do
      let (increment, c) ← scanIncrement c
      match increment, chomping? c.peek with
      | some _, some chomping => pure ({ chomping, increment }, c.next)
      | _, _ => pure ({ increment }, c)
  if !endsWord c.peek then malformed .header
  return (header, ← scanLineEnd .header c)

/-- Skips spaces up to the column `indent`. -/
def skipIndent (indent : Nat) (c : Cursor) : Cursor :=
  c.advance (min (indent - c.column) (c.rest.takeWhile (· = ' ')).length)

/-- The line breaks of empty lines, and the place in the line behind them. -/
def breaks (indent : Nat) : Nat → Cursor → List Char × Cursor
  | 0, c => ([], c)
  | fuel + 1, c =>
    let c := skipIndent indent c
    match c.lineBreak? with
    | none => ([], c)
    | some (x, c) =>
      let (more, c) := breaks indent fuel c
      (x :: more, c)

/-- The line breaks before the first line with text, and the widest indentation up to there. -/
def leading : Nat → Nat → Cursor → List Char × Nat × Cursor
  | 0, widest, c => ([], widest, c)
  | fuel + 1, widest, c =>
    let (widest, c) :=
      if c.peek = some ' ' then (max widest c.skipSpaces.column, c.skipSpaces) else (widest, c)
    match c.lineBreak? with
    | none => ([], widest, c)
    | some (x, c) =>
      let (more, widest, c) := leading fuel widest c
      (x :: more, widest, c)

/-- The lines of a scalar: their text up to the last one with any, the break of that line, the
breaks behind it, and the place behind those. -/
structure Lines where
  text : List Char
  lastBreak : List Char
  trailing : List Char
  place : Cursor

def startsBlank (c : Cursor) : Bool := c.peek = some ' ' || c.peek = some '\t'

/-- Between two lines that do not start with a blank, a break is folded. -/
def joint (folds : Bool) (lineBreak between : List Char) : List Char :=
  if folds && lineBreak = ['\n'] then if between = [] then [' '] else [] else lineBreak

/-- Reads lines while they are indented to `indent`; `before` are the breaks in front of them. -/
def lines (folds : Bool) (indent : Nat) : Nat → List Char → Cursor → Lines
  | 0, before, c => ⟨[], [], before, c⟩
  | fuel + 1, before, c =>
    if c.column = indent && c.peek.isSome then
      let (line, rest) := c.span fun x => !isBreak x
      let (lineBreak, rest) := match rest.lineBreak? with
        | some (x, rest) => ([x], rest)
        | none => ([], rest)
      let (between, place) := breaks indent rest.rest.length rest
      if place.column = indent && place.peek.isSome then
        let joined := joint (folds && !startsBlank c && !startsBlank place) lineBreak between
        let more := lines folds indent fuel between place
        { more with text := before ++ line ++ joined ++ more.text }
      else ⟨before ++ line, lineBreak, between, place⟩
    else ⟨[], [], before, c⟩

/-- The scalar with its mark at the place; `indent` is the column of the collection around it. -/
def scan (folds : Bool) (indent : Int) (c : Cursor) : Except Error (String × Cursor) := do
  let (header, c) ← scanHeader c.next
  let least := max 1 (indent + 1).toNat
  let (before, column, c) := match header.increment with
    | none =>
      let (before, widest, c) := leading c.rest.length 0 c
      (before, max least widest, c)
    | some n =>
      let column := least + n - 1
      let (before, c) := breaks column c.rest.length c
      (before, column, c)
  let read := lines folds column (c.rest.length + 1) before c
  let ending := match header.chomping with
    | .strip => []
    | .clip => read.lastBreak
    | .keep => read.lastBreak ++ read.trailing
  return (String.ofList (read.text ++ ending), read.place)

end Block

end Yaml

end BrokerTrial

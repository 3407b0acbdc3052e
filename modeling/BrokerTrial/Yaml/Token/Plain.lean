import BrokerTrial.Yaml.Token.Quoted

/-!
Scalars without quotes. One ends at a comment, at the colon of a key, inside of brackets also at
their marks, and outside of them at a line that is indented less.
-/

namespace BrokerTrial

namespace Yaml

namespace Plain

/-- The marks of collections in brackets. -/
def isBracketMark (c : Char) : Bool := ",[]\x7b\x7d".toList.contains c

/-- The characters up to a blank or to a mark that ends the scalar. -/
def run (flow : Bool) : List Char → List Char
  | [] => []
  | x :: rest =>
    let endsKey := x = ':' && (endsToken rest.head? || flow && rest.head?.any isBracketMark)
    if endsToken (some x) || endsKey || flow && (isBracketMark x || x = '?') then []
    else x :: run flow rest

/-- The empty lines behind a line break, or nothing before the mark of a document. -/
def breaks? : Nat → Cursor → Option (List Char) × Cursor
  | 0, c => (some [], c)
  | fuel + 1, c =>
    if c.atSeparator then (none, c)
    else
      let c := c.skipSpaces
      match c.lineBreak? with
      | none => (some [], c)
      | some (x, c) =>
        let (more, c) := breaks? fuel c
        (more.map (x :: ·), c)

/-- What stands between two runs: its text, the place behind it, and whether a line ended. -/
structure Gap where
  text : List Char
  place : Cursor
  broken : Bool

def gap (c : Cursor) : Gap :=
  let (spaces, c) := c.span (· = ' ')
  match c.lineBreak? with
  | none => ⟨spaces, c, false⟩
  | some (x, c) =>
    let (more, c) := breaks? c.rest.length c
    ⟨(more.map (folded x)).getD [], c, true⟩

/-- The scalar at the place, as if it were a gap. -/
def scanFrom (flow : Bool) (indent : Int) : Nat → Cursor → Gap
  | 0, c => ⟨[], c, false⟩
  | fuel + 1, c =>
    let first := run flow c.rest
    let g := gap (c.advance first.length)
    let ends := g.text.isEmpty || g.place.peek = some '#' ||
      !flow && g.place.column < indent || (run flow g.place.rest).isEmpty
    if ends then { g with text := first }
    else
      let more := scanFrom flow indent fuel g.place
      { more with text := first ++ g.text ++ more.text }

/-- The scalar at the place; `indent` is the least column of its further lines. -/
def scan (flow : Bool) (indent : Int) (c : Cursor) : Gap := scanFrom flow indent c.rest.length c

end Plain

end Yaml

end BrokerTrial

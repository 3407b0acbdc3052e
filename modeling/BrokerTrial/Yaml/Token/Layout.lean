import BrokerTrial.Yaml.Token.Block
import BrokerTrial.Yaml.Token.Plain

/-!
All tokens of a text. Indentation opens and closes collections, and a token turns out to be a key
only at the colon behind it: the mark of the key is put before it then.
-/

namespace BrokerTrial

namespace Yaml

/-- A token that is a key if a colon follows it, with its number and its place. It has to be one if
it stands at the indentation of its collection. -/
structure PossibleKey where
  number : Nat
  required : Bool
  index : Nat
  line : Nat
  column : Nat
deriving DecidableEq, Repr

/-- Reading tokens: the newest one first, with the column of the collection and of those around it,
and the possible keys of the brackets that are open, the innermost first. -/
structure Layout where
  place : Cursor
  tokens : List Token := []
  count : Nat := 0
  indent : Int := -1
  outer : List Int := []
  keyAllowed : Bool := true
  key : Option PossibleKey := none
  outerKeys : List (Option PossibleKey) := []

namespace Layout

/-- Whether a bracket is open. -/
def inFlow (l : Layout) : Bool := !l.outerKeys.isEmpty

def push (l : Layout) (t : Token) : Layout :=
  { l with tokens := t :: l.tokens, count := l.count + 1 }

/-- Puts tokens, in their order, before the one with the number `n`. -/
def insertAt (l : Layout) (n : Nat) (ts : List Token) : Layout :=
  let behind := l.count - n
  { l with
    tokens := l.tokens.take behind ++ ts.reverse ++ l.tokens.drop behind
    count := l.count + ts.length }

/-- Whether the colon of a key can no longer follow: it stands on the line of the key, and not far
behind it. -/
def isStale (place : Cursor) (k : PossibleKey) : Bool :=
  k.line ≠ place.line || 1024 < place.index - k.index

def dropStale (place : Cursor) : Option PossibleKey → Except Error (Option PossibleKey)
  | none => .ok none
  | some k =>
    if !isStale place k then .ok (some k)
    else if k.required then malformed .keyWithoutValue else .ok none

def withoutStale (l : Layout) : Except Error Layout := do
  let key ← dropStale l.place l.key
  let outerKeys ← l.outerKeys.mapM (dropStale l.place)
  return { l with key, outerKeys }

/-- Gives up the possible key of the innermost collection. -/
def dropKey (l : Layout) : Except Error Layout :=
  if l.key.any (·.required) then malformed .keyWithoutValue else .ok { l with key := none }

/-- The next token is a possible key, if keys can start here. -/
def markKey (l : Layout) : Except Error Layout := do
  if !l.keyAllowed then return l
  let l ← l.dropKey
  let required := !l.inFlow && l.indent = l.place.column
  return { l with key := some ⟨l.count, required, l.place.index, l.place.line, l.place.column⟩ }

/-- Closes collections that are indented more than `column`. -/
def closeFrom (column : Int) : List Int → Layout → Layout
  | [], l => l
  | indent :: outer, l =>
    if column < l.indent then closeFrom column outer { l.push .blockEnd with indent, outer } else l

def close (l : Layout) (column : Int) : Layout :=
  if l.inFlow then l else closeFrom column l.outer l

/-- Opens a collection at a column if it is indented more. -/
def opensAt (l : Layout) (column : Nat) : Bool := l.indent < column

def openAt (l : Layout) (column : Nat) : Layout :=
  { l with indent := column, outer := l.indent :: l.outer }

/-- Blanks, comments and line ends; outside of brackets a key can start on a new line. -/
def skipFrom : Nat → Layout → Layout
  | 0, l => l
  | fuel + 1, l =>
    let place := l.place.skipComment
    match place.lineBreak? with
    | none => { l with place }
    | some (_, place) => skipFrom fuel { l with place, keyAllowed := l.keyAllowed || !l.inFlow }

def skip (l : Layout) : Layout := skipFrom (l.place.rest.length + 1) l

/-- A token of one character. -/
def mark (l : Layout) (t : Token) : Layout := { l.push t with place := l.place.next }

/-- A token that stands outside of all collections. -/
def outside (l : Layout) (t : Token) (place : Cursor) : Except Error Layout := do
  let l ← (l.close (-1)).dropKey
  return { l.push t with place, keyAllowed := false }

def readEnd (l : Layout) : Except Error Layout := l.outside .textEnd l.place

def readDirective (l : Layout) : Except Error Layout := do
  let l ← (l.close (-1)).dropKey
  let (directive, place) ← scanDirective l.place
  return { l.push (.directive directive) with place, keyAllowed := false }

def openBracket (l : Layout) (t : Token) : Except Error Layout := do
  let l ← l.markKey
  return { l.mark t with key := none, outerKeys := l.key :: l.outerKeys, keyAllowed := true }

def closeBracket (l : Layout) (t : Token) : Except Error Layout := do
  let l ← l.dropKey
  match l.outerKeys with
  | [] => malformed .unopened
  | key :: outerKeys => return { l.mark t with key, outerKeys, keyAllowed := false }

def readComma (l : Layout) : Except Error Layout := do
  let l ← l.dropKey
  return { l.mark .flowEntry with keyAllowed := true }

/-- Outside of brackets, a mark that may open a collection at its column. -/
def openBlock (l : Layout) (start : Token) : Except Error Layout :=
  if l.inFlow then .ok l
  else if !l.keyAllowed then malformed .misplaced
  else if l.opensAt l.place.column then .ok ((l.openAt l.place.column).push start)
  else .ok l

def readDash (l : Layout) : Except Error Layout := do
  let l ← (← l.openBlock .blockSequenceStart).dropKey
  return { l.mark .blockEntry with keyAllowed := true }

def readKeyMark (l : Layout) : Except Error Layout := do
  let l ← (← l.openBlock .blockMappingStart).dropKey
  return { l.mark .key with keyAllowed := !l.inFlow }

/-- A colon: the token that was a possible key is one; without such a token, the key was marked or
is empty. -/
def readColon (l : Layout) : Except Error Layout :=
  match l.key with
  | some k =>
    let opened := !l.inFlow && l.opensAt k.column
    let starts := if opened then [.blockMappingStart, .key] else [.key]
    let l := (if opened then l.openAt k.column else l).insertAt k.number starts
    .ok { l.mark .value with key := none, keyAllowed := false }
  | none => do
    let l ← l.openBlock .blockMappingStart
    return { l.mark .value with keyAllowed := !l.inFlow }

/-- A token that can be a key, and its place behind it. -/
def readWord {α : Type} (l : Layout) (token : α → Token)
    (scan : Cursor → Except Error (α × Cursor)) : Except Error Layout := do
  let l ← l.markKey
  let (x, place) ← scan l.place
  return { l.push (token x) with place, keyAllowed := false }

def readQuoted (l : Layout) (quote : Char) : Except Error Layout :=
  l.readWord (.scalar · false) (Quoted.scan quote)

def readBlock (l : Layout) (folds : Bool) : Except Error Layout := do
  let l ← l.dropKey
  let (text, place) ← Block.scan folds l.indent l.place
  return { l.push (.scalar text false) with place, keyAllowed := true }

/-- A key can start behind a plain scalar if its line has ended. -/
def readPlain (l : Layout) : Except Error Layout := do
  let l ← l.markKey
  let read := Plain.scan l.inFlow (l.indent + 1) l.place
  return { l.push (.scalar (String.ofList read.text) true) with
    place := read.place, keyAllowed := read.broken }

/-- Whether the character `x` starts a plain scalar at the place. -/
def startsPlain (l : Layout) (x : Char) : Bool :=
  let marks := "-?:,[]\x7b\x7d#&*!|>'\x22%@`".toList
  !endsToken (some x) && !marks.contains x ||
    !endsToken (l.place.peekAt 1) && (x = '-' || !l.inFlow && (x = '?' || x = ':'))

/-- Whether the mark at the place stands alone. -/
def isAlone (l : Layout) : Bool := endsToken (l.place.peekAt 1)

/-- The token at the place, which is neither blank nor the end. -/
def readAt (l : Layout) (x : Char) : Except Error Layout :=
  let atStart := l.place.column = 0
  if x = '%' && atStart then l.readDirective
  else if x = '-' && atStart && l.place.hasMarker '-' then
    l.outside .documentStart (l.place.advance 3)
  else if x = '.' && atStart && l.place.hasMarker '.' then
    l.outside .documentEnd (l.place.advance 3)
  else if x = '[' then l.openBracket .flowSequenceStart
  else if x = '\x7b' then l.openBracket .flowMappingStart
  else if x = ']' then l.closeBracket .flowSequenceEnd
  else if x = '\x7d' then l.closeBracket .flowMappingEnd
  else if x = ',' then l.readComma
  else if x = '-' && l.isAlone then l.readDash
  else if x = '?' && (l.inFlow || l.isAlone) then l.readKeyMark
  else if x = ':' && (l.inFlow || l.isAlone) then l.readColon
  else if x = '*' then l.readWord .alias scanAnchor
  else if x = '&' then l.readWord .anchor scanAnchor
  else if x = '!' then l.readWord .tag scanTag
  else if (x = '|' || x = '>') && !l.inFlow then l.readBlock (x = '>')
  else if x = '\x27' || x = '\x22' then l.readQuoted x
  else if l.startsPlain x then l.readPlain
  else malformed .noToken

/-- Reads one token, with those that come with it. -/
def read (l : Layout) : Except Error Layout := do
  let l ← l.skip.withoutStale
  let l := l.close l.place.column
  match l.place.peek with
  | none => l.readEnd
  | some x => l.readAt x

/-- How many tokens are settled: before a possible key, another token may still come. -/
def settled (l : Layout) : Nat :=
  let pending := (l.key :: l.outerKeys).filterMap fun k => k.filter fun k => !isStale l.place k
  pending.foldl (fun n k => min n k.number) l.count

end Layout

/-- The tokens of a text in order, and what is met behind them. -/
structure Tokens where
  settled : List Token
  ending : Error

namespace Tokens

def readFrom : Nat → Layout → Tokens
  | 0, l => ⟨l.tokens.reverse, .malformed .noToken⟩
  | fuel + 1, l =>
    match l.read with
    | .error e => ⟨l.tokens.reverse.take l.settled, e⟩
    | .ok l =>
      if l.tokens.head? = some .textEnd then ⟨l.tokens.reverse, .malformed .unexpected⟩
      else readFrom fuel l

def isPrintable (c : Char) : Bool :=
  let n := c.toNat
  n = 0x9 || n = 0xA || n = 0xD || 0x20 ≤ n && n ≤ 0x7E || n = 0x85 || 0xA0 ≤ n && n ≤ 0xD7FF ||
    0xE000 ≤ n && n ≤ 0xFFFD || 0x10000 ≤ n

/-- All tokens of a text; every one of its characters has to be printable. -/
def ofText (text : String) : Tokens :=
  if text.toList.all isPrintable then
    let place := Cursor.ofText text
    readFrom (place.rest.length + 2) { place }
  else ⟨[], .malformed .unprintable⟩

end Tokens

end Yaml

end BrokerTrial

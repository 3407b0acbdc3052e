import BrokerTrial.Text.Utf8
import BrokerTrial.Value.Number
import BrokerTrial.Yaml.Token.Basic

/-!
Names in a configuration text: anchors and aliases, tags, and the directives before a document.
-/

namespace BrokerTrial

namespace Yaml

open Value.Number (ofDigits)

def isHexDigit (c : Char) : Bool :=
  c.isDigit || 'a' ≤ c && c ≤ 'f' || 'A' ≤ c && c ≤ 'F'

def hexDigitValue (c : Char) : Nat :=
  if c.isDigit then c.toNat - '0'.toNat else c.toLower.toNat - 'a'.toNat + 10

def hexValue (cs : List Char) : Nat := cs.foldl (fun n c => n * 16 + hexDigitValue c) 0

/-- What may stand behind the name of an anchor. -/
def endsAnchor (c : Option Char) : Bool := endsToken c || c.any "?:,]\x7d%@`".toList.contains

/-- The name of an anchor or an alias, behind its mark. -/
def scanAnchor (c : Cursor) : Except Error (String × Cursor) :=
  let (name, c) := c.next.span isNameChar
  if name.isEmpty || !endsAnchor c.peek then malformed .name
  else .ok (String.ofList name, c)

def isUriChar (c : Char) : Bool := c.isAlphanum || "-;/?:@&=+$,_.!~*'()[]%".toList.contains c

/-- Bytes that are written as a percent sign and two digits each. -/
def scanOctets : Nat → Cursor → Except Error (List UInt8 × Cursor)
  | 0, c => .ok ([], c)
  | fuel + 1, c =>
    match c.rest with
    | '%' :: a :: b :: _ =>
      if isHexDigit a && isHexDigit b then do
        let (octets, c) ← scanOctets fuel (c.advance 3)
        return (UInt8.ofNat (hexValue [a, b]) :: octets, c)
      else malformed .tag
    | '%' :: _ => malformed .tag
    | _ => .ok ([], c)

/-- Bytes in a row are one text of UTF-8. -/
def scanUriFrom : Nat → Cursor → Except Error (List Char × Cursor)
  | 0, c => .ok ([], c)
  | fuel + 1, c =>
    match c.span fun x => isUriChar x && x ≠ '%' with
    | ([], c) =>
      if c.peek = some '%' then do
        let (octets, c) ← scanOctets c.rest.length c
        match Text.Utf8.decode octets with
        | .error _ => malformed .tag
        | .ok text =>
          let (rest, c) ← scanUriFrom fuel c
          return (text.toList ++ rest, c)
      else .ok ([], c)
    | (plain, c) => do
      let (rest, c) ← scanUriFrom fuel c
      return (plain ++ rest, c)

def scanUri (c : Cursor) : Except Error (String × Cursor) := do
  if !c.peek.any isUriChar then malformed .tag
  let (text, c) ← scanUriFrom c.rest.length c
  return (String.ofList text, c)

/-- A handle: an exclamation mark, or a name between two of them. -/
def scanHandle (c : Cursor) : Except Error (String × Cursor) :=
  match c.rest with
  | '!' :: ' ' :: _ => .ok ("!", c.next)
  | '!' :: _ =>
    let (name, c) := c.next.span isNameChar
    if c.peek = some '!' then .ok (String.ofList ('!' :: name ++ ['!']), c.next)
    else malformed .tag
  | _ => malformed .tag

/-- A tag: in full between angle brackets, or behind a handle, or the bare mark. -/
def scanTagName (c : Cursor) : Except Error (TagName × Cursor) :=
  if c.peekAt 1 = some '<' then do
    let (uri, c) ← scanUri (c.advance 2)
    if c.peek = some '>' then return (⟨none, uri⟩, c.next) else malformed .tag
  else if endsToken (c.peekAt 1) then .ok (⟨none, "!"⟩, c.next)
  else do
    let word := c.next.rest.takeWhile fun x => !endsWord (some x)
    let (handle, c) ← if word.contains '!' then scanHandle c else .ok ("!", c.next)
    let (suffix, c) ← scanUri c
    return (⟨some handle, suffix⟩, c)

def scanTag (c : Cursor) : Except Error (TagName × Cursor) := do
  let (name, c) ← scanTagName c
  if endsWord c.peek then return (name, c) else malformed .tag

/-- A number of a version. -/
def scanNumber (c : Cursor) : Except Error (Nat × Cursor) :=
  let (digits, c) := c.span Char.isDigit
  if digits.isEmpty then malformed .directive
  else if Value.Misuse.digitLimit < digits.length then
    .error (.misuse (.tooManyDigits digits.length))
  else .ok (ofDigits digits, c)

def scanVersion (c : Cursor) : Except Error (Directive × Cursor) := do
  let (major, c) ← scanNumber c.skipSpaces
  if c.peek ≠ some '.' then malformed .directive
  let (minor, c) ← scanNumber c.next
  if endsWord c.peek then return (.version major minor, c) else malformed .directive

def scanHandleDirective (c : Cursor) : Except Error (Directive × Cursor) := do
  let (handle, c) ← scanHandle c.skipSpaces
  if c.peek ≠ some ' ' then malformed .directive
  let (uri, c) ← scanUri c.skipSpaces
  if endsWord c.peek then return (.handle handle uri, c) else malformed .directive

/-- The end of a line that may hold nothing more than a comment. -/
def scanLineEnd (cause : Malformed) (c : Cursor) : Except Error Cursor :=
  let c := c.skipComment
  if endsLine c.peek then .ok c.next else malformed cause

/-- A directive with its line. -/
def scanDirective (c : Cursor) : Except Error (Directive × Cursor) := do
  let (name, c) := c.next.span isNameChar
  if name.isEmpty || !endsWord c.peek then malformed .directive
  let (directive, c) ←
    if name = "YAML".toList then scanVersion c
    else if name = "TAG".toList then scanHandleDirective c
    else .ok (.other, c.skipLine)
  return (directive, ← scanLineEnd .directive c)

end Yaml

end BrokerTrial

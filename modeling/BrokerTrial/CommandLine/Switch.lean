import BrokerTrial.Text.Digit
import BrokerTrial.Text.Quoted

/-!
The options of the command line and the words that ask for them. A word names an option in full, by
the beginning of one long name, or by a short name with more behind it.
-/

namespace BrokerTrial

namespace CommandLine

inductive Switch
  | help | tls | debug | config | host
deriving DecidableEq, Repr

namespace Switch

def all : List Switch := [.help, .tls, .debug, .config, .host]

def names : Switch → List String
  | .help => ["-h", "--help"]
  | .tls => ["-s", "--tls"]
  | .debug => ["-d", "--debug"]
  | .config => ["-c", "--config"]
  | .host => ["--host"]

def label (s : Switch) : String := "/".intercalate s.names

def takesValue : Switch → Bool
  | .config | .host => true
  | .help | .tls | .debug => false

end Switch

/-- One of the names of an option. -/
structure Name where
  switch : Switch
  text : List Char
deriving DecidableEq, Repr

def Name.all : List Name := Switch.all.flatMap fun s => s.names.map fun n => ⟨s, n.toList⟩

/-- Short names have one dash and one letter. -/
def Name.isShort (n : Name) : Bool := n.text.length = 2

def Name.ofText? (text : List Char) : Option Name := Name.all.find? (·.text = text)

/-- Why a command line is refused. -/
inductive Error
  | ambiguous (word : String) (candidates : List String)
  | ignoredValue (switch : Switch) (value : String)
  | missingValue (switch : Switch)
  | unrecognized (words : List String)
deriving DecidableEq, Repr

def Error.message : Error → String
  | .ambiguous word candidates =>
    s!"ambiguous option: {word} could match " ++ ", ".intercalate candidates
  | .ignoredValue switch value =>
    s!"argument {switch.label}: ignored explicit argument {Text.quoted value}"
  | .missingValue switch => s!"argument {switch.label}: expected one argument"
  | .unrecognized words => "unrecognized arguments: " ++ " ".intercalate words

/-- What a word of the command line is. -/
inductive Word
  | operand
  | separator
  | option (name : Name) (attached : Option (List Char))
  | unknown
deriving DecidableEq, Repr

namespace Word

/-- The text before the first equals sign and the text behind it. -/
def splitValue? (cs : List Char) : Option (List Char × List Char) :=
  match cs.dropWhile (· ≠ '=') with
  | [] => none
  | _ :: value => some (cs.takeWhile (· ≠ '='), value)

/-- The long names that a word abbreviates; with one dash, a short name with more behind it. -/
def abbreviated (cs : List Char) : List (Name × Option (List Char)) :=
  match cs with
  | '-' :: '-' :: _ =>
    let (start, value) := match splitValue? cs with
      | some (start, value) => (start, some value)
      | none => (cs, none)
    (Name.all.filter fun n => start.isPrefixOf n.text).map (·, value)
  | _ =>
    Name.all.filterMap fun n =>
      if n.text = cs.take 2 then some (n, some (cs.drop 2))
      else if cs.isPrefixOf n.text then some (n, none)
      else none

/-- A dash, digits, and possibly a point before the last of them; a line may end behind it. -/
def isNegativeNumber (cs : List Char) : Bool :=
  let isDigit (c : Char) : Bool := (Text.digitValue? c).isSome
  match cs with
  | '-' :: body =>
    let body := if body.getLast? = some '\n' then body.dropLast else body
    let fraction := match body.dropWhile isDigit with
      | '.' :: digits => digits
      | _ => []
    !body.isEmpty && body.all isDigit || !fraction.isEmpty && fraction.all isDigit
  | _ => false

/-- What a word that starts with a dash and names nothing in full is. -/
def ofAbbreviation (cs : List Char) : Except Error Word :=
  match abbreviated cs with
  | [] => .ok (if isNegativeNumber cs || cs.contains ' ' then .operand else .unknown)
  | [(name, value)] => .ok (.option name value)
  | several =>
    .error (.ambiguous (String.ofList cs) (several.map fun n => String.ofList n.1.text))

def ofText (cs : List Char) : Except Error Word :=
  if cs.head? ≠ some '-' then .ok .operand
  else match Name.ofText? cs with
    | some name => .ok (.option name none)
    | none =>
      if cs.length = 1 then .ok .operand
      else match splitValue? cs with
        | some (before, value) =>
          match Name.ofText? before with
          | some name => .ok (.option name (some value))
          | none => ofAbbreviation cs
        | none => ofAbbreviation cs

/-- All words; behind a separator there are only operands. -/
def classify : List String → Except Error (List (String × Word))
  | [] => .ok []
  | text :: rest =>
    if text = "--" then .ok ((text, .separator) :: rest.map (·, .operand))
    else do
      let word ← ofText text.toList
      return (text, word) :: (← classify rest)

end Word

end CommandLine

end BrokerTrial

import BrokerTrial.Yaml.Scalar.Number

/-!
Tags say what a node is. A plain scalar without a tag gets one from its text, and any other node
without a tag is text, a sequence or a mapping.
-/

namespace BrokerTrial

namespace Yaml

inductive Tag
  | null | bool | int | float | binary | timestamp | omap | pairs | set | str | seq | map
  | merge
  | default
  /-- Nothing is known of such nodes. -/
  | foreign
deriving DecidableEq, Repr

namespace Tag

/-- What the tags of the core types start with. -/
def corePrefix : String := "tag:yaml.org,2002:"

def ofName (name : String) : Tag :=
  match name with
  | "null" => .null
  | "bool" => .bool
  | "int" => .int
  | "float" => .float
  | "binary" => .binary
  | "timestamp" => .timestamp
  | "omap" => .omap
  | "pairs" => .pairs
  | "set" => .set
  | "str" => .str
  | "seq" => .seq
  | "map" => .map
  | "merge" => .merge
  | "value" => .default
  | _ => .foreign

def ofText (text : String) : Tag :=
  if corePrefix.toList.isPrefixOf text.toList then
    ofName (String.ofList (text.toList.drop corePrefix.length))
  else .foreign

def nulls : List String := ["", "~", "null", "Null", "NULL"]

/-- The words for truth and falsehood, in small letters. -/
def truths : List (String × Bool) := [
  ("yes", true), ("no", false), ("true", true), ("false", false), ("on", true), ("off", false)]

def capitalized : List Char → List Char
  | [] => []
  | c :: rest => c.toUpper :: rest

/-- Whether a text is a word for truth or falsehood, small, capitalized or in capitals. -/
def isTruth (text : List Char) : Bool :=
  truths.any fun (word, _) =>
    let cs := word.toList
    text = cs || text = capitalized cs || text = cs.map Char.toUpper

/-- The tag of a plain scalar. -/
def ofPlain (text : String) : Tag :=
  let cs := text.toList
  let word := withoutLineFeed cs
  if isTruth word then .bool
  else if NumberText.isFraction cs then .float
  else if NumberText.isWhole cs then .int
  else if word = "<<".toList then .merge
  else if text = "" || word ≠ [] && nulls.contains (String.ofList word) then .null
  else if DateTimeText.isPlain cs then .timestamp
  else if word = "=".toList then .default
  else if word = "!".toList || word = "&".toList || word = "*".toList then .foreign
  else .str

end Tag

end Yaml

end BrokerTrial

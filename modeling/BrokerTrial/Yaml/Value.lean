import BrokerTrial.Yaml.Node
import BrokerTrial.Yaml.Scalar.Base64

/-!
The value that a text writes. Collections are filled level by level, so of several errors the one
at the least depth is met, and of those at one depth the first.
-/

namespace BrokerTrial

namespace Yaml

/-- An error and the depth at which it is met. -/
structure Fault where
  depth : Nat
  error : Error
deriving DecidableEq, Repr

namespace Fault

/-- Both results, or the error that is met first. -/
def both {α β : Type} (x : Except Fault α) (y : Except Fault β) : Except Fault (α × β) :=
  match x, y with
  | .ok a, .ok b => .ok (a, b)
  | .error e, .error f => .error (if f.depth < e.depth then f else e)
  | .error e, .ok _ => .error e
  | .ok _, .error f => .error f

def all {α : Type} : List (Except Fault α) → Except Fault (List α)
  | [] => .ok []
  | x :: rest => (both x (all rest)).map fun (a, more) => a :: more

end Fault

namespace Node

def tag : Node → Tag
  | .scalar tag _ | .sequence tag _ | .mapping tag _ => tag

mutual

/-- How deep collections are nested. -/
def height : Node → Nat
  | .scalar .. => 1
  | .sequence _ items => heightOfItems items + 1
  | .mapping _ entries => heightOfEntries entries + 1

def heightOfItems : List Node → Nat
  | [] => 0
  | item :: rest => max item.height (heightOfItems rest)

def heightOfEntries : List (Node × Node) → Nat
  | [] => 0
  | (key, value) :: rest => max (max key.height value.height) (heightOfEntries rest)

end

mutual

/-- The text of a node where a scalar is asked for. A mapping has one under its default key. -/
def text? : Node → Option String
  | .scalar _ text => some text
  | .sequence .. => none
  | .mapping _ entries => defaultText? entries

def defaultText? : List (Node × Node) → Option String
  | [] => none
  | (key, value) :: rest => if key.tag = .default then value.text? else defaultText? rest

end

mutual

/-- The entries of a mapping that another one takes over, its own merges done. -/
def mergeable : Node → Except Error (List (Node × Node))
  | .mapping _ entries => (mergedParts entries).map fun (taken, own) => taken ++ own
  | _ => malformed .wrongNode

/-- The entries that a mapping takes over under a merge key: those of a mapping, or those of a list
of mappings, the last one first. -/
def merges : Node → Except Error (List (Node × Node))
  | .mapping tag entries => mergeable (.mapping tag entries)
  | .sequence _ items => mergesOfItems items
  | .scalar .. => malformed .wrongNode

def mergesOfItems : List Node → Except Error (List (Node × Node))
  | [] => .ok []
  | item :: rest => do
    let first ← mergeable item
    return (← mergesOfItems rest) ++ first

/-- What a mapping takes over, and its own entries. -/
def mergedParts : List (Node × Node) → Except Error (List (Node × Node) × List (Node × Node))
  | [] => .ok ([], [])
  | (key, value) :: rest => do
    let taken ← if key.tag = .merge then merges value else .ok []
    let (more, own) ← mergedParts rest
    return (taken ++ more, if key.tag = .merge then own else (key, value) :: own)

end

/-- All entries of a mapping, those taken over first. -/
def merged (entries : List (Node × Node)) : Except Error (List (Node × Node)) :=
  (mergedParts entries).map fun (taken, own) => taken ++ own

/-- A key that is written as the mark of the default is text here. -/
def asKey : Node → Node
  | .scalar .default text => .scalar .str text
  | .sequence .default items => .sequence .str items
  | .mapping .default entries => .mapping .str entries
  | node => node

/-- Collections are no keys. -/
def isCollection (node : Node) : Bool :=
  match node.tag with
  | .seq | .map | .set | .omap | .pairs => true
  | _ => false

def ofTruthWord (text : String) : Except Error Value :=
  let word := String.ofList (text.toList.map Char.toLower)
  match Tag.truths.lookup word with
  | some b => .ok (.bool b)
  | none => .error (.notTruth word)

/-- A day or a time; a mapping with a default text is none. -/
def ofDateTime (node : Node) (text : String) : Except Error Value :=
  if node matches .mapping .. then .error .dateTimeOfMapping
  else match DateTimeText.ofText? text.toList with
    | none => .error .notDateTime
    | some t => t.value.mapError .calendar

/-- The value of a node that is no collection. -/
def leaf (node : Node) : Except Error Value :=
  match node.tag, node.text? with
  | .merge, _ | .default, _ | .foreign, _ => malformed .unknownTag
  | _, none => malformed .wrongNode
  | .null, some _ => .ok .null
  | .bool, some text => ofTruthWord text
  | .int, some text => .int <$> NumberText.whole text
  | .float, some text => .float <$> NumberText.fraction text
  | .binary, some text =>
    match Base64.decode? text.toList with
    | some bytes => .ok (.bytes bytes)
    | none => malformed .notBase64
  | .timestamp, some text => ofDateTime node text
  | _, some text => .ok (.str text)

/-- The value of a node at a depth. -/
def valueAt : Nat → Nat → Node → Except Fault Value
  | 0, depth, _ => .error ⟨depth, .malformed .unexpected⟩
  | fuel + 1, depth, node =>
    let inside := depth + 1
    let fault {α : Type} (cause : Malformed) : Except Fault α := .error ⟨inside, .malformed cause⟩
    let keyOf (key : Node) : Except Fault Value :=
      if key.isCollection then fault .unhashableKey else valueAt fuel inside key.asKey
    let entriesOf (entries : List (Node × Node)) : Except Fault (List (Value × Value)) := do
      let entries ← (merged entries).mapError (⟨inside, ·⟩)
      let pairs ← Fault.all (entries.map fun (key, value) =>
        Fault.both (keyOf key) (valueAt fuel inside value))
      return pairs.foldl (fun done (key, value) => Value.insert done key value) []
    let pairOf (item : Node) : Except Fault Value :=
      match item with
      | .mapping _ [(key, value)] =>
        (Fault.both (valueAt fuel inside key) (valueAt fuel inside value)).map
          fun (key, value) => .tuple [key, value]
      | _ => fault .wrongNode
    match node.tag, node with
    | .seq, .sequence _ items => .list <$> Fault.all (items.map (valueAt fuel inside))
    | .omap, .sequence _ items => .list <$> Fault.all (items.map pairOf)
    | .pairs, .sequence _ items => .list <$> Fault.all (items.map pairOf)
    | .map, .mapping _ entries => .mapping <$> entriesOf entries
    | .set, .mapping _ entries => (fun es => .set (es.map (·.1))) <$> entriesOf entries
    | _, node =>
      if node.isCollection then fault .wrongNode else node.leaf.mapError (⟨depth, ·⟩)

def value (node : Node) : Except Error Value :=
  (valueAt (node.height + 1) 0 node).mapError (·.error)

end Node

/-- The value that a text writes; a text without a document writes nothing. -/
def read (text : String) : Except Error Value := do
  match ← Node.ofText? text with
  | none => return .null
  | some node => node.value

end Yaml

end BrokerTrial

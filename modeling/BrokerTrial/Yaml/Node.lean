import BrokerTrial.Yaml.Tag
import BrokerTrial.Yaml.Token.Layout

/-!
The nodes of a text: scalars, sequences and mappings, each with its tag. Nodes are read off the
tokens; an alias is replaced by the node that it stands for.
-/

namespace BrokerTrial

namespace Yaml

inductive Node
  | scalar (tag : Tag) (text : String)
  | sequence (tag : Tag) (items : List Node)
  | mapping (tag : Tag) (entries : List (Node × Node))

namespace Node

/-- The node where none is written. -/
def empty : Node := .scalar .null ""

end Node

/-- The tokens to come, the handles of the document and the nodes with an anchor. A node has no
value here before all of it is read. -/
structure Reading where
  tokens : List Token
  ending : Error
  handles : List (String × String) := []
  anchors : List (String × Option Node) := []

/-- Reading nodes off the tokens. -/
abbrev Build := StateT Reading (Except Error)

namespace Build

def fail {α : Type} (cause : Malformed) : Build α := throw (.malformed cause)

def peek : Build Token := do
  let r ← get
  match r.tokens with
  | t :: _ => return t
  | [] => throw r.ending

def skip : Build Unit := modify fun r => { r with tokens := r.tokens.tail }

/-- Takes the next token if it is `t`. -/
def takes (t : Token) : Build Bool := do
  if (← peek) = t then
    skip
    return true
  return false

/-- Whether the next token is one of `ts`. -/
def isAt (ts : List Token) : Build Bool := return ts.contains (← peek)

def isAtDirective : Build Bool := return (← peek) matches .directive _

/-- The anchor and the tag in front of a node. -/
structure Properties where
  anchor : Option String := none
  tag : Option TagName := none

def anchor? : Build (Option String) := do
  match ← peek with
  | .anchor name => skip; return some name
  | _ => return none

def tag? : Build (Option TagName) := do
  match ← peek with
  | .tag name => skip; return some name
  | _ => return none

/-- An anchor and a tag, in either order. -/
def properties : Build Properties := do
  match ← anchor? with
  | some anchor => return { anchor := some anchor, tag := ← tag? }
  | none =>
    match ← tag? with
    | some tag => return { anchor := ← anchor?, tag := some tag }
    | none => return {}

/-- The tag in full; its handle has to be known. -/
def fullTag (name : TagName) : Build String := do
  match name.handle with
  | none => return name.suffix
  | some handle =>
    match (← get).handles.lookup handle with
    | some replacement => return replacement ++ name.suffix
    | none => fail .unknownHandle

/-- The tag of a node: the bare mark leaves it to the kind of the node. -/
def tagOr (tag : Option String) (usual : Tag) : Tag :=
  match tag with
  | none | some "!" => usual
  | some text => Tag.ofText text

/-- The tag of a scalar. Only a plain text without a tag says by itself what it is; the bare mark
makes any text as good as plain. -/
def scalarTag (tag : Option String) (plain : Bool) (text : String) : Tag :=
  if plain || tag = some "!" then tagOr tag (Tag.ofPlain text) else tagOr tag .str

def opens (name : String) : Build Unit := do
  if ((← get).anchors.lookup name).isSome then fail .repeatedAnchor
  modify fun r => { r with anchors := (name, none) :: r.anchors }

def closes (name : String) (node : Node) : Build Unit :=
  modify fun r => { r with anchors := (name, some node) :: r.anchors }

def aliased (name : String) : Build Node := do
  match (← get).anchors.lookup name with
  | none => fail .undefinedAlias
  | some none => fail .cyclicAlias
  | some (some node) => return node

mutual

/-- A node. Outside of brackets it can be a block; behind a key a block sequence needs no
indentation of its own. -/
def node (block unindented : Bool) : Nat → Build Node
  | 0 => fail .unexpected
  | fuel + 1 => do
    if let .alias name ← peek then
      skip
      aliased name
    else
      let properties ← properties
      let tag ← properties.tag.mapM fullTag
      let token ← peek
      if let some name := properties.anchor then opens name
      let node ← content block unindented tag properties.anchor.isSome token fuel
      if let some name := properties.anchor then closes name node
      return node

/-- What stands behind the properties of a node, starting with the token `token`. -/
def content (block unindented : Bool) (tag : Option String) (anchored : Bool) (token : Token) :
    Nat → Build Node
  | 0 => fail .unexpected
  | fuel + 1 =>
    match token, block, unindented with
    | .blockEntry, _, true => .sequence (tagOr tag .seq) <$> unindentedItems fuel
    | .scalar text plain, _, _ => do
      skip
      return .scalar (scalarTag tag plain text) text
    | .flowSequenceStart, _, _ => do
      skip
      .sequence (tagOr tag .seq) <$> flowItems true fuel
    | .flowMappingStart, _, _ => do
      skip
      .mapping (tagOr tag .map) <$> flowEntries true fuel
    | .blockSequenceStart, true, _ => do
      skip
      .sequence (tagOr tag .seq) <$> blockItems fuel
    | .blockMappingStart, true, _ => do
      skip
      .mapping (tagOr tag .map) <$> blockEntries fuel
    | _, _, _ =>
      if anchored || tag.isSome then return .scalar (scalarTag tag tag.isNone "") ""
      else fail .unexpected

/-- A node, or none where one of `ends` follows. -/
def nodeUnless (ends : List Token) (block unindented : Bool) : Nat → Build Node
  | 0 => fail .unexpected
  | fuel + 1 => do
    if ← isAt ends then return .empty
    node block unindented fuel

/-- The items of a block sequence, and its end. -/
def blockItems : Nat → Build (List Node)
  | 0 => fail .unexpected
  | fuel + 1 => do
    if ← takes .blockEntry then
      let item ← nodeUnless [.blockEntry, .blockEnd] true false fuel
      return item :: (← blockItems fuel)
    if ← takes .blockEnd then return []
    fail .unexpected

/-- The items of a block sequence without indentation; it ends before any other token. -/
def unindentedItems : Nat → Build (List Node)
  | 0 => fail .unexpected
  | fuel + 1 => do
    if ← takes .blockEntry then
      let item ← nodeUnless [.blockEntry, .key, .value, .blockEnd] true false fuel
      return item :: (← unindentedItems fuel)
    return []

/-- The value behind a colon, if there is one. -/
def valueUnless (ends : List Token) (block : Bool) : Nat → Build Node
  | 0 => fail .unexpected
  | fuel + 1 => do
    if ← takes .value then nodeUnless ends block block fuel else return .empty

/-- The entries of a block mapping, and its end. -/
def blockEntries : Nat → Build (List (Node × Node))
  | 0 => fail .unexpected
  | fuel + 1 => do
    if ← takes .key then
      let ends := [.key, .value, .blockEnd]
      let key ← nodeUnless ends true true fuel
      let value ← valueUnless ends true fuel
      return (key, value) :: (← blockEntries fuel)
    if ← takes .blockEnd then return []
    fail .unexpected

/-- The items of a sequence in brackets. A key with its value is a mapping of one entry. -/
def flowItems (first : Bool) : Nat → Build (List Node)
  | 0 => fail .unexpected
  | fuel + 1 => do
    if ← takes .flowSequenceEnd then return []
    if !first then
      if !(← takes .flowEntry) then fail .unexpected
    if ← takes .key then
      let key ← nodeUnless [.value, .flowEntry, .flowSequenceEnd] false false fuel
      let value ← valueUnless [.flowEntry, .flowSequenceEnd] false fuel
      return .mapping .map [(key, value)] :: (← flowItems false fuel)
    if ← takes .flowSequenceEnd then return []
    let item ← node false false fuel
    return item :: (← flowItems false fuel)

/-- The entries of a mapping in brackets; a node without a mark is a key without a value. -/
def flowEntries (first : Bool) : Nat → Build (List (Node × Node))
  | 0 => fail .unexpected
  | fuel + 1 => do
    if ← takes .flowMappingEnd then return []
    if !first then
      if !(← takes .flowEntry) then fail .unexpected
    if ← takes .key then
      let key ← nodeUnless [.value, .flowEntry, .flowMappingEnd] false false fuel
      let value ← valueUnless [.flowEntry, .flowMappingEnd] false fuel
      return (key, value) :: (← flowEntries false fuel)
    if ← takes .flowMappingEnd then return []
    let key ← node false false fuel
    return (key, .empty) :: (← flowEntries false fuel)

end

/-- The handles that are known in every document. -/
def usualHandles : List (String × String) := [("!", "!"), ("!!", Tag.corePrefix)]

/-- The directives before a document: at most one version, and each handle once. -/
def directives : List Token → Bool → List (String × String) → Build Unit
  | .directive d :: rest, versioned, handles => do
    skip
    match d with
    | .version major _ =>
      if versioned || major ≠ 1 then fail .version
      directives rest true handles
    | .handle handle replacement =>
      if (handles.lookup handle).isSome then fail .repeatedHandle
      directives rest versioned ((handle, replacement) :: handles)
    | .other => directives rest versioned handles
  | _, _, handles => modify fun r => { r with handles := handles ++ usualHandles }

/-- The node of a document. Its start is marked, unless it has no directives. -/
def document (fuel : Nat) : Build Node := do
  if (← isAtDirective) || (← isAt [.documentStart]) then
    directives (← get).tokens false []
    if !(← takes .documentStart) then fail .unexpected
    if ← isAtDirective then return .empty
    nodeUnless [.documentStart, .documentEnd, .textEnd] true false fuel
  else
    modify fun r => { r with handles := usualHandles }
    node true false fuel

def skipWhile (p : Token → Bool) : Build Unit :=
  modify fun r => { r with tokens := r.tokens.dropWhile p }

/-- Nothing but ends of documents may follow the first document. -/
def noMore : Build Unit := do
  skipWhile (· = .documentEnd)
  if !(← isAt [.textEnd]) then
    skipWhile (· matches .directive _)
    if ← isAt [.documentStart] then fail .severalDocuments else fail .unexpected

/-- The node of the only document, if there is one. -/
def only (fuel : Nat) : Build (Option Node) := do
  if ← isAt [.textEnd] then return none
  let node ← document fuel
  noMore
  return some node

end Build

/-- The node that a text writes, or nothing for a text without a document. -/
def Node.ofText? (text : String) : Except Error (Option Node) := do
  let tokens := Tokens.ofText text
  let bound := 4 * tokens.settled.length + 8
  (Build.only bound).run' ⟨tokens.settled, tokens.ending, [], []⟩

end Yaml

end BrokerTrial

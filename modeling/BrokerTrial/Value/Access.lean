import BrokerTrial.Value.Misuse

/-!
Looking into values: members of mappings with a value to fall back on, indexed members, and the
elements that a value is gone through by.
-/

namespace BrokerTrial

namespace Value

/-- The member of a mapping under a key, or `fallback`; only mappings can be asked. -/
def member (v : Value) (key : String) (fallback : Value) : Except Misuse Value :=
  match v with
  | .mapping entries => .ok ((member? entries key).getD fallback)
  | v => .error (.noMember v.kind "get")

/-- The member under a key that has to be there. -/
def index (v : Value) (key : String) : Except Misuse Value :=
  match v with
  | .mapping entries =>
    match member? entries key with
    | some x => .ok x
    | none => .error (.missingKey key)
  | .str _ => .error (.textIndex .str)
  | .bytes _ => .error (.textIndex .bytes)
  | .list _ => .error (.textIndex .list)
  | .tuple _ => .error (.textIndex .tuple)
  | v => .error (.notIndexable v.kind)

/-- What going through a value yields: characters, bytes, items or keys. -/
def elements (v : Value) : Except Misuse (List Value) :=
  match v with
  | .str s => .ok (s.toList.map fun c => .str (String.singleton c))
  | .bytes bs => .ok (bs.map fun b => .int b.toNat)
  | .list items | .tuple items | .set items => .ok items
  | .mapping entries => .ok (entries.map (·.1))
  | v => .error (.notIterable v.kind)

end Value

end BrokerTrial

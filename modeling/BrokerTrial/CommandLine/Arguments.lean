import BrokerTrial.CommandLine.Switch

/-!
Reading the command line. Options take effect from left to right; what no option takes is reported
together at the end.
-/

namespace BrokerTrial

namespace CommandLine

/-- What the command line asks for; without a configuration file the packaged one is used. -/
structure Arguments where
  tls : Bool := false
  debug : Bool := false
  config : Option String := none
  host : Option String := none
deriving DecidableEq, Repr

/-- Why there are no arguments to run with. -/
inductive Stop
  | help
  | refused (e : Error)
deriving DecidableEq, Repr

/-- One option with the value that is attached to it. -/
structure Setting where
  switch : Switch
  value : Option String
deriving DecidableEq, Repr

/-- The options in one word with something attached. Behind a short name that takes no value stands
the next short name. -/
def Setting.unpack (name : Name) (attached : List Char) : Except Error (List Setting) :=
  if name.switch.takesValue then .ok [⟨name.switch, some (String.ofList attached)⟩]
  else match attached with
    | [] => .error (.ignoredValue name.switch "")
    | c :: rest =>
      match if name.isShort then Name.ofText? ['-', c] else none with
      | none => .error (.ignoredValue name.switch (String.ofList (c :: rest)))
      | some next =>
        let later := if rest = [] then .ok [⟨next.switch, none⟩] else unpack next rest
        later.map (⟨name.switch, none⟩ :: ·)

namespace Arguments

def apply (a : Arguments) (s : Setting) : Except Stop Arguments :=
  match s.switch with
  | .help => .error .help
  | .tls => .ok { a with tls := true }
  | .debug => .ok { a with debug := true }
  | .config => .ok { a with config := s.value }
  | .host => .ok { a with host := s.value }

/-- Reads words that are told apart; `extra` holds those that nothing takes, newest first. -/
def read (a : Arguments) (extra : List String) : List (String × Word) → Except Stop Arguments
  | [] => if extra = [] then .ok a else .error (.refused (.unrecognized extra.reverse))
  | (_, .option name attached) :: rest =>
    let settings := match attached with
      | some attached => Setting.unpack name attached
      | none => .ok [⟨name.switch, none⟩]
    match settings with
    | .error e => .error (.refused e)
    | .ok settings =>
      match settings.find? fun s => s.switch.takesValue && s.value.isNone with
      | none => settings.foldlM apply a >>= fun b => b.read extra rest
      | some bare =>
        match rest with
        | (value, .operand) :: rest =>
          let filled := settings.map fun s => if s = bare then { s with value } else s
          filled.foldlM apply a >>= fun b => b.read extra rest
        | _ => .error (.refused (.missingValue bare.switch))
  | (text, _) :: rest => a.read (text :: extra) rest

def ofWords (words : List String) : Except Stop Arguments :=
  match Word.classify words with
  | .error e => .error (.refused e)
  | .ok classified => ({} : Arguments).read [] classified

end Arguments

end CommandLine

end BrokerTrial

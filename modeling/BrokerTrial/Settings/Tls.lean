import BrokerTrial.Settings.Connection

/-!
How an encrypted connection checks its peer.
-/

namespace BrokerTrial

structure Tls where
  checkHostname : Bool
  requireCertificate : Bool
deriving DecidableEq, Repr

namespace Tls

/-- A file of authorities that cannot be opened is an expected error; one that is no path is not. -/
inductive Error
  | noSuchFile
  | notPath (m : Value.Misuse)
deriving DecidableEq, Repr

def Error.message : Error → String
  | .noSuchFile => "[Errno 2] No such file or directory"
  | .notPath m => m.message

/-- Why encryption cannot be set up, where a file of authorities may be at hand. -/
inductive Failure
  | unusable (message : String)
  | notPath (m : Value.Misuse)

/-- What keeps a value from being the path of a file. -/
def pathMisuse? : Value → Option Value.Misuse
  | .str s => if '\x00' ∈ s.toList then some .embeddedNull else none
  | .bytes bs => if 0 ∈ bs then some .embeddedNull else none
  | _ => some .notPath

/-- Only a file of authorities that is named is read; `fault` is what reading it fails with. A peer
that signed its own certificate is let through if that is allowed. -/
def setUp (c : Connection) (fault : Option String) : Except Failure (Option Tls) :=
  if !c.useTls then .ok none
  else
    let tls : Tls := ⟨!c.allowSelfSigned, !c.allowSelfSigned⟩
    if !c.caFile.truth then .ok (some tls)
    else
      match pathMisuse? c.caFile, fault with
      | some m, _ => .error (.notPath m)
      | none, some message => .error (.unusable message)
      | none, none => .ok (some tls)

/-- Where no file of authorities is at hand, naming one is an error. -/
def ofConnection (c : Connection) : Except Error (Option Tls) :=
  (setUp c (some Error.noSuchFile.message)).mapError fun
    | .unusable _ => .noSuchFile
    | .notPath m => .notPath m

end Tls

end BrokerTrial

import BrokerTrial.Text.Utf8
import BrokerTrial.Yaml.Value

/-!
Reading a configuration file. A file is decoded while it is read, piece by piece, and a loader of
YAML reads on until it comes to a result. So a text that is malformed at its beginning can be found
out before the bytes behind it turn out to be no text. How a file is cut into pieces is up to the
system, and what a loader makes of a text is up to the loader; both are parameters of the program.
-/

namespace BrokerTrial

namespace Source

/-- Line ends as line feeds, in any of the three ways to write them. -/
def lineFeeds : List Char → List Char
  | [] => []
  | '\r' :: '\n' :: rest => '\n' :: lineFeeds rest
  | '\r' :: rest => '\n' :: lineFeeds rest
  | c :: rest => c :: lineFeeds rest

/-- What the reads of a file return, one after the other, and what the read behind them fails with
if it comes to bytes that are no text. -/
structure Reading (bytes : List UInt8) where
  pieces : List String
  fault : Option Text.Utf8.Error
  of_text {text : String} : Text.Utf8.decode bytes = .ok text →
    fault = none ∧ String.join pieces = String.ofList (lineFeeds text.toList)
  of_fault {e : Text.Utf8.Error} : Text.Utf8.decode bytes = .error e → fault.isSome

/-- The whole file in one piece. -/
def Reading.atOnce (bytes : List UInt8) : Reading bytes where
  pieces := match Text.Utf8.decode bytes with
    | .ok text => [String.ofList (lineFeeds text.toList)]
    | .error _ => []
  fault := match Text.Utf8.decode bytes with
    | .ok _ => none
    | .error e => some e
  of_text h := by simp [h]
  of_fault h := by simp [h]

/-- A reader of YAML. Its values are finite, and their texts hold no lone surrogates. On its way to
a configuration the program looks no deeper than the entries of one section, so a value that holds
itself is as good as one that ends further down. -/
structure Loader where
  reading : (bytes : List UInt8) → Reading bytes
  /-- What it comes to from the beginning of a text, if it does not have to read on. -/
  early? : String → Option (Except Yaml.Error Value)
  /-- What it comes to at the end of a text. -/
  whole : String → Except Yaml.Error Value

namespace Loader

inductive Error
  | undecodable (e : Text.Utf8.Error)
  | yaml (e : Yaml.Error)

/-- Goes on from the text that has been read. -/
def resume (l : Loader) (fault : Option Text.Utf8.Error) (seen : String) :
    List String → Except Error Value
  | [] =>
    match l.early? seen, fault with
    | some result, _ => result.mapError .yaml
    | none, some e => .error (.undecodable e)
    | none, none => (l.whole seen).mapError .yaml
  | piece :: rest =>
    match l.early? seen with
    | some result => result.mapError .yaml
    | none => l.resume fault (seen ++ piece) rest

def load (l : Loader) (bytes : List UInt8) : Except Error Value :=
  l.resume (l.reading bytes).fault "" (l.reading bytes).pieces

/-- The loader that the program is run with. It reads a file to the end before anything else. -/
def usual : Loader := ⟨Reading.atOnce, fun _ => none, Yaml.read⟩

end Loader

end Source

end BrokerTrial

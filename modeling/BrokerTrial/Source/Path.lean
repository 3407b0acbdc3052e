import BrokerTrial.Text.Pieces

/-!
Paths of configuration files, as they are named in messages. Empty parts and single dots say nothing
and are left out; two dots stay, because what they mean depends on the files.
-/

namespace BrokerTrial

namespace Source

/-- The slashes that a path starts with: two of them are kept, any more count as one. -/
def root (path : List Char) : List Char :=
  let slashes := path.takeWhile (· = '/')
  if slashes.length ≤ 2 then slashes else ['/']

/-- The parts of a path that say something. -/
def parts (path : List Char) : List (List Char) :=
  (Text.pieces '/' path).filter fun part => part ≠ [] && part ≠ ['.']

/-- The shortest way to write a path. -/
def normalPath (path : String) : String :=
  let cs := path.toList
  let text := root cs ++ ['/'].intercalate (parts cs)
  if text = [] then "." else String.ofList text

end Source

end BrokerTrial

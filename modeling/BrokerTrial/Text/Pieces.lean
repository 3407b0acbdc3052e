/-!
Cutting a text at every occurrence of one character.
-/

namespace BrokerTrial

namespace Text

/-- The pieces of a text between the characters `x`; there is always one more than of these. -/
def pieces (x : Char) : List Char → List (List Char)
  | [] => [[]]
  | c :: rest =>
    if c = x then [] :: pieces x rest
    else match pieces x rest with
      | [] => [[c]]
      | first :: more => (c :: first) :: more

end Text

end BrokerTrial

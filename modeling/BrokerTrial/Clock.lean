import BrokerTrial.Settings.Patience

/-!
Time as exact seconds from the start of a run. The clock only jumps, from one timer to the next.
-/

namespace BrokerTrial

/-- A point in time, or a span of it. -/
inductive Instant
  | finite (seconds : Rat)
  | infinite
deriving DecidableEq

namespace Instant

def zero : Instant := .finite 0

def add : Instant → Instant → Instant
  | .finite a, .finite b => .finite (a + b)
  | _, _ => .infinite

def le : Instant → Instant → Bool
  | .finite a, .finite b => a ≤ b
  | _, .infinite => true
  | .infinite, .finite _ => false

end Instant

/-- How long to wait for an acknowledgement: not at all, or for a span of time. -/
inductive Limit
  | atOnce
  | after (span : Instant)
deriving DecidableEq

/-- A span that is not positive is no time to wait; one that is not a number is over at once. -/
def Seconds.limit (s : Seconds) : Limit :=
  match s with
  | .whole n => if n ≤ 0 then .atOnce else .after (.finite n)
  | .float x =>
    match x.classify with
    | .nan => .after Instant.zero
    | .infinite true => .atOnce
    | .infinite false => .after .infinite
    | .finite .. =>
      let v := x.toRat?.getD 0
      if v ≤ 0 then .atOnce else .after (.finite v)

end BrokerTrial

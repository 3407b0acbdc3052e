/-!
The bound on resends. The caller counts a resend request first and then asks; once the answer is
no, the run has failed for good.
-/

namespace BrokerTrial

structure ResendLimit where
  cap : Int
  cap_pos : 1 ≤ cap
deriving DecidableEq

namespace ResendLimit

inductive Error
  | capTooSmall (cap : Int)
deriving DecidableEq, Repr

def Error.message : Error → String
  | .capTooSmall cap => s!"retry_cap must be at least 1, got {cap}"

def ofCap? (cap : Int) : Except Error ResendLimit :=
  if h : 1 ≤ cap then .ok ⟨cap, h⟩ else .error (.capTooSmall cap)

/-- Three attempts. -/
def usual : ResendLimit := ⟨3, by decide⟩

instance : Inhabited ResendLimit := ⟨usual⟩

/-- Whether a run that has seen `count` resend requests may send once more. -/
def allows (limit : ResendLimit) (count : Int) : Bool := count < limit.cap

end ResendLimit

end BrokerTrial

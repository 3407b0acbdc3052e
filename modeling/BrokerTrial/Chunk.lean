/-!
Payloads in bounded pieces. A `Chunker` cuts a payload into chunks of one size, the last one
possibly shorter; it has no cursor, so a write can start again from any position.
-/

namespace BrokerTrial

/-- A piece of a payload; `final` marks the piece that ends where the payload ends. -/
structure Chunk where
  data : List UInt8
  final : Bool
deriving DecidableEq, Repr

structure Chunker where
  payload : List UInt8
  size : Nat
  size_pos : 0 < size
  payload_ne_nil : payload ≠ []

namespace Chunker

inductive Error
  | sizeNotPositive (size : Int)
  | emptyPayload
  | outside (position : Int) (total : Nat)
deriving DecidableEq, Repr

def Error.message : Error → String
  | .sizeNotPositive size => s!"chunk_size must be positive, got {size}"
  | .emptyPayload => "payload must not be empty"
  | .outside position total => s!"position {position} outside payload of {total} bytes"

def defaultSize : Int := 300

/-- The size is checked before the payload. -/
def ofPayload? (payload : List UInt8) (size : Int) : Except Error Chunker :=
  if hs : 0 < size then
    if hp : payload ≠ [] then
      .ok ⟨payload, size.toNat, by omega, hp⟩
    else .error .emptyPayload
  else .error (.sizeNotPositive size)

def total (c : Chunker) : Nat := c.payload.length

/-- The first piece of what is left of a payload. -/
def cut (size : Nat) (left : List UInt8) : Chunk :=
  ⟨left.take size, (left.drop size).isEmpty⟩

/-- The chunk that starts at `position`. -/
def chunkAt (c : Chunker) (position : Int) : Except Error Chunk :=
  if 0 ≤ position ∧ position < c.total then
    .ok (cut c.size (c.payload.drop position.toNat))
  else .error (.outside position c.total)

/-- Cuts what is left of a payload to its end. -/
def chunksOf (size : Nat) (h : 0 < size) (left : List UInt8) : List Chunk :=
  if left = [] then [] else cut size left :: chunksOf size h (left.drop size)
termination_by left.length
decreasing_by
  rename_i hl
  have := List.length_pos_iff.2 hl
  simp only [List.length_drop]; omega

/-- The whole payload, chunk by chunk. -/
def chunks (c : Chunker) : List Chunk := chunksOf c.size c.size_pos c.payload

end Chunker

end BrokerTrial

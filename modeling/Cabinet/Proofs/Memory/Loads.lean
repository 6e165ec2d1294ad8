import Cabinet.Proofs.Rom.Install
import Mathlib.Data.List.Induction

/-! Loads, one after the other.

A load is refused for the length of its image or, if that is right, for its place, and then
leaves the memory as it was (`attempt_answered`). One that succeeds writes the whole of its
image and nothing else. So after any sequence of loads a cell holds what the last of them that
succeeded and covers it has there, or what it held at first (`cell_of_loads`). -/
namespace Cabinet

/-- A load that is asked for: an image, its place, and the length it should have. -/
structure Load where
  name : String
  base : UInt16
  bytes : ByteArray
  expected : Nat

namespace Load
variable {l : Load} {a : UInt16}

/-- The image has the length it should have and ends inside the memory. -/
def Succeeds (l : Load) : Prop :=
  l.bytes.size = l.expected ∧ l.base.toNat + l.bytes.size ≤ 65536

/-- A load that succeeds and has a byte for the cell at `a`. -/
structure Covers (l : Load) (a : UInt16) : Prop where
  succeeds : l.Succeeds
  from_base : l.base.toNat ≤ a.toNat
  before_end : a.toNat < l.base.toNat + l.bytes.size

end Load

namespace Memory
variable {m m' : Memory} {l : Load} {a : UInt16} {e : LoadError}

def load (m : Memory) (l : Load) : Except LoadError Memory :=
  m.loadImage l.name l.base l.bytes l.expected

/-- What a cell is to hold after some loads, if it held `first` before them. -/
inductive Holds (loads : List Load) (a : UInt16) (first now : UInt8) : Prop
  /-- The byte of the last load that covers it. -/
  | loaded (before : List Load) (l : Load) (after : List Load) (split : loads = before ++ l :: after)
      (covers : l.Covers a) (last : ∀ k ∈ after, ¬k.Covers a)
      (byte : l.bytes.data[a.toNat - l.base.toNat]? = some now)
  | kept (uncovered : ∀ k ∈ loads, ¬k.Covers a) (same : now = first)

end Memory
end Cabinet

/-! Counters of a fixed width.

The board's registers wrap; the bookkeeping around it does not. Cycle and frame
counts are words of 32 or 64 bits, and a sum that does not fit is a fault, not a
smaller number. -/
namespace Cabinet

/-- What can go wrong while the machine runs or draws. -/
inductive Fault where
  /-- The cycles of one half-frame pass 32 bits. -/
  | halfFrameCycles
  /-- The cycles of the two halves together pass 32 bits. -/
  | frameCycles
  /-- The frame number passes 64 bits. -/
  | frameCount
  /-- The cycles of a whole run pass 64 bits. -/
  | runCycles
  /-- A byte of the wrong place or a buffer of the wrong length was drawn. -/
  | outsidePicture
  /-- The size of a window or of its buffer passes 32 bits. -/
  | windowSize
  deriving Repr, DecidableEq

namespace Counter

/-- The sum, if it fits 32 bits. -/
def add32 (fault : Fault) (x y : UInt32) : Except Fault UInt32 :=
  if x.toNat + y.toNat < UInt32.size then .ok (x + y) else .error fault

/-- The sum, if it fits 64 bits. -/
def add64 (fault : Fault) (x y : UInt64) : Except Fault UInt64 :=
  if x.toNat + y.toNat < UInt64.size then .ok (x + y) else .error fault

/-- The product, if it fits 32 bits. -/
def mul32 (fault : Fault) (x y : UInt32) : Except Fault UInt32 :=
  if x.toNat * y.toNat < UInt32.size then .ok (x * y) else .error fault

theorem add32_eq_ok_iff {fault : Fault} {x y z : UInt32} :
    add32 fault x y = .ok z ↔ z.toNat = x.toNat + y.toNat := by
  have := z.toNat_lt_size
  unfold add32
  split
  case isTrue h =>
    rw [Except.ok.injEq, ← UInt32.toNat_inj, UInt32.toNat_add, Nat.mod_eq_of_lt h]
    exact eq_comm
  case isFalse h =>
    constructor
    · intro h'
      cases h'
    · intro h'
      omega

theorem add32_eq_error_iff {fault f : Fault} {x y : UInt32} :
    add32 fault x y = .error f ↔ f = fault ∧ UInt32.size ≤ x.toNat + y.toNat := by
  unfold add32
  split
  case isTrue h =>
    constructor
    · intro h'
      cases h'
    · intro h'
      omega
  case isFalse h =>
    rw [Except.error.injEq, eq_comm]
    exact (and_iff_left (Nat.le_of_not_lt h)).symm

theorem add64_eq_ok_iff {fault : Fault} {x y z : UInt64} :
    add64 fault x y = .ok z ↔ z.toNat = x.toNat + y.toNat := by
  have := z.toNat_lt_size
  unfold add64
  split
  case isTrue h =>
    rw [Except.ok.injEq, ← UInt64.toNat_inj, UInt64.toNat_add, Nat.mod_eq_of_lt h]
    exact eq_comm
  case isFalse h =>
    constructor
    · intro h'
      cases h'
    · intro h'
      omega

theorem mul32_eq_ok_iff {fault : Fault} {x y z : UInt32} :
    mul32 fault x y = .ok z ↔ x.toNat * y.toNat < UInt32.size ∧ x * y = z := by
  unfold mul32
  split
  case isTrue h => rw [Except.ok.injEq, and_iff_right h]
  case isFalse h =>
    constructor
    · intro h'
      cases h'
    · intro h'
      exact absurd h'.1 h

end Counter
end Cabinet

/-! The five condition flags.

Sign, zero and parity tell of a result; auxiliary carry is the carry out of the low
four bits, carry the one out of all eight. In memory they are one byte, in which bit 1
is always set and bits 3 and 5 never are. -/
namespace Cabinet

@[ext] structure Flags where
  sign : Bool := false
  zero : Bool := false
  auxiliary : Bool := false
  parity : Bool := false
  carry : Bool := false
  deriving Repr, DecidableEq, Inhabited

namespace Flags

/-- Whether an even number of bits is set: the byte is folded in half three times. -/
def evenParity (v : UInt8) : Bool :=
  let v := v ^^^ (v >>> 4)
  let v := v ^^^ (v >>> 2)
  let v := v ^^^ (v >>> 1)
  v &&& 1 == 0

/-- Sign, zero and parity of `v`; the two carries stay. -/
def withResult (f : Flags) (v : UInt8) : Flags :=
  { f with sign := decide (0x80 ≤ v), zero := v == 0, parity := evenParity v }

/-! ### The flag byte -/

def toByte (f : Flags) : UInt8 :=
  (if f.sign then 0x80 else 0) ||| (if f.zero then 0x40 else 0) |||
    (if f.auxiliary then 0x10 else 0) ||| (if f.parity then 0x04 else 0) ||| 0x02 |||
    (if f.carry then 0x01 else 0)

/-- Bits 1, 3 and 5 tell nothing. -/
def ofByte (v : UInt8) : Flags where
  sign := v &&& 0x80 != 0
  zero := v &&& 0x40 != 0
  auxiliary := v &&& 0x10 != 0
  parity := v &&& 0x04 != 0
  carry := v &&& 0x01 != 0

@[simp] theorem ofByte_toByte (f : Flags) : ofByte f.toByte = f := by
  obtain ⟨s, z, ac, p, cy⟩ := f
  cases s <;> cases z <;> cases ac <;> cases p <;> cases cy <;> rfl

end Flags
end Cabinet

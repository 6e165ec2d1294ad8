import Cabinet.Processor.Flags
import Cabinet.Processor.Instruction

/-! Arithmetic on bytes, with the flags each operation leaves.

Every operation takes the accumulator (or the byte it works on) and the flags as they
were, and gives both as they become. Sums are formed in the natural numbers, so that
the carries are comparisons with the largest nibble and the largest byte. -/
namespace Cabinet.Alu

/-- The sum of `a` and `v`, and one more with a carry. -/
def add (a v : UInt8) (carry : Bool) (f : Flags) : UInt8 × Flags :=
  let sum := a.toNat + v.toNat + carry.toNat
  let low := a.toNat % 16 + v.toNat % 16 + carry.toNat
  let result := UInt8.ofNat sum
  (result, { f.withResult result with auxiliary := decide (15 < low), carry := decide (255 < sum) })

/-- The difference of `a` and `v`, and one less with a borrow. The carries say where it
borrows. -/
def subtract (a v : UInt8) (borrow : Bool) (f : Flags) : UInt8 × Flags :=
  let result := a - v - borrow.toUInt8
  (result, { f.withResult result with
    auxiliary := decide (a.toNat % 16 < v.toNat % 16 + borrow.toNat)
    carry := decide (a.toNat < v.toNat + borrow.toNat) })

/-- A bitwise result: no carry, and the auxiliary carry as given. -/
def logical (result : UInt8) (auxiliary : Bool) (f : Flags) : UInt8 × Flags :=
  (result, { f.withResult result with auxiliary := auxiliary, carry := false })

/-- One of the eight accumulator operations. A comparison is a subtraction whose
difference is dropped. -/
def apply (op : AluOp) (a v : UInt8) (f : Flags) : UInt8 × Flags :=
  match op with
  | .add => add a v false f
  | .adc => add a v f.carry f
  | .sub => subtract a v false f
  | .sbb => subtract a v f.carry f
  | .ana => logical (a &&& v) true f
  | .xra => logical (a ^^^ v) false f
  | .ora => logical (a ||| v) false f
  | .cmp => (a, (subtract a v false f).2)

/-- One more; the carry stays. -/
def increment (v : UInt8) (f : Flags) : UInt8 × Flags :=
  let result := v + 1
  (result, { f.withResult result with auxiliary := v &&& 0x0f == 0x0f })

/-- One less; the carry stays, and the auxiliary carry is set where the low digit
borrows. -/
def decrement (v : UInt8) (f : Flags) : UInt8 × Flags :=
  let result := v - 1
  (result, { f.withResult result with auxiliary := v &&& 0x0f == 0 })

/-- The sum of two words; of the flags only the carry tells of it. -/
def addWord (x y : UInt16) (f : Flags) : UInt16 × Flags :=
  (x + y, { f with carry := decide (0xffff < x.toNat + y.toNat) })

/-- After a sum of packed decimal bytes, the decimal digits of that sum: six is added
to a digit that passed nine. A carry that was set stays set. -/
def decimalAdjust (a : UInt8) (f : Flags) : UInt8 × Flags :=
  let units := if f.auxiliary || decide (9 < a.toNat % 16) then a.toNat + 0x06 else a.toNat
  let tens := f.carry || decide (0x99 < units)
  let result := UInt8.ofNat (if tens then units + 0x60 else units)
  (result, { f.withResult result with
    auxiliary := (a ^^^ result) &&& 0x10 != 0
    carry := tens })

/-! ### Rotations: only the carry tells of them -/

/-- Left; the top bit goes to the bottom and to the carry. -/
def rotateLeft (a : UInt8) (f : Flags) : UInt8 × Flags :=
  ((a <<< 1) ||| (a >>> 7), { f with carry := a &&& 0x80 != 0 })

/-- Right; the bottom bit goes to the top and to the carry. -/
def rotateRight (a : UInt8) (f : Flags) : UInt8 × Flags :=
  ((a >>> 1) ||| (a <<< 7), { f with carry := a &&& 0x01 != 0 })

/-- Left through the carry: nine bits turn. -/
def rotateLeftCarry (a : UInt8) (f : Flags) : UInt8 × Flags :=
  ((a <<< 1) ||| f.carry.toUInt8, { f with carry := a &&& 0x80 != 0 })

/-- Right through the carry: nine bits turn. -/
def rotateRightCarry (a : UInt8) (f : Flags) : UInt8 × Flags :=
  ((a >>> 1) ||| (f.carry.toUInt8 <<< 7), { f with carry := a &&& 0x01 != 0 })

end Cabinet.Alu

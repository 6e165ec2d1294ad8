import Cabinet.Processor
import Cabinet.Processor.Alu

/-! The byte registers and the flags, by name.

A statement about every register or about every flag but a few speaks of names. An
operand, and each half of a pair, is a register or is none, and two registers make a word
in base 256. What the flags tell of a byte is said here bit by bit, and every operation of
the arithmetic unit that sets sign, zero and parity tells of its result; a comparison tells
of the difference it drops. A condition asks for one flag to stand one way. -/
namespace Cabinet

/-! ### Words -/

/-- What two bytes come to in base 256, the low one first. -/
def Word.little (lo hi : UInt8) : UInt16 :=
  UInt16.ofNat (lo.toNat + 256 * hi.toNat)

namespace Word

theorem join_eq_little (hi lo : UInt8) : join hi lo = little lo hi := by
  have := hi.toNat_lt
  have := lo.toNat_lt
  apply UInt16.toNat_inj.mp
  rw [toNat_join, little, UInt16.toNat_ofNat']
  omega

theorem high_eq_div (w : UInt16) : high w = UInt8.ofNat (w.toNat / 256) := by
  have := w.toNat_lt
  apply UInt8.toNat_inj.mp
  rw [toNat_high, UInt8.toNat_ofNat']
  omega

theorem low_eq_mod (w : UInt16) : low w = UInt8.ofNat (w.toNat % 256) := by
  apply UInt8.toNat_inj.mp
  rw [toNat_low, UInt8.toNat_ofNat', Nat.mod_mod]

end Word

/-! ### Registers -/

inductive Register where
  | a | b | c | d | e | h | l
  deriving Repr, DecidableEq

def Processor.register (p : Processor) : Register → UInt8
  | .a => p.a
  | .b => p.b
  | .c => p.c
  | .d => p.d
  | .e => p.e
  | .h => p.h
  | .l => p.l

/-- The register an operand is, unless it is a memory cell. -/
def Operand.register? : Operand → Option Register
  | .b => some .b
  | .c => some .c
  | .d => some .d
  | .e => some .e
  | .h => some .h
  | .l => some .l
  | .m => none
  | .a => some .a

/-- The register on top of a pair. The stack pointer has no halves. -/
def Pair.upper? : Pair → Option Register
  | .bc => some .b
  | .de => some .d
  | .hl => some .h
  | .sp => none

def Pair.lower? : Pair → Option Register
  | .bc => some .c
  | .de => some .e
  | .hl => some .l
  | .sp => none

def IndexPair.upper : IndexPair → Register
  | .bc => .b
  | .de => .d

def IndexPair.lower : IndexPair → Register
  | .bc => .c
  | .de => .e

def StackPair.upper : StackPair → Register
  | .bc => .b
  | .de => .d
  | .hl => .h
  | .psw => .a

/-- The register at the bottom of a pair. Below the accumulator are the flags. -/
def StackPair.lower? : StackPair → Option Register
  | .bc => some .c
  | .de => some .e
  | .hl => some .l
  | .psw => none

def StackPair.registers (p : StackPair) : List Register :=
  p.upper :: p.lower?.toList

/-- The word in two registers, the upper one first. -/
def Processor.word (p : Processor) (hi lo : Register) : UInt16 :=
  Word.little (p.register lo) (p.register hi)

namespace Processor
variable (p : Processor) (w : UInt16) (r : Register)

theorem hl_eq_word : p.hl = p.word .h .l :=
  Word.join_eq_little ..

theorem indexPair_eq_word (q : IndexPair) : p.indexPair q = p.word q.upper q.lower := by
  cases q <;> exact Word.join_eq_little ..

theorem register_setPair (q : Pair) :
    (p.setPair q w).register r =
      if q.upper? = some r then Word.high w else if q.lower? = some r then Word.low w
      else p.register r := by
  cases q <;> cases r <;> rfl

theorem register_setStackPair (q : StackPair) :
    (p.setStackPair q w).register r =
      if q.upper = r then Word.high w else if q.lower? = some r then Word.low w
      else p.register r := by
  cases q <;> cases r <;> rfl

theorem register_setPair_of_lower {q : Pair} {r : Register} (h : q.lower? = some r) :
    (p.setPair q w).register r = Word.low w := by
  cases q <;> cases h <;> rfl

theorem register_setStackPair_of_lower {q : StackPair} {r : Register} (h : q.lower? = some r) :
    (p.setStackPair q w).register r = Word.low w := by
  cases q <;> cases h <;> rfl

end Processor

/-! ### Flags -/

inductive Flag where
  | sign | zero | auxiliary | parity | carry
  deriving Repr, DecidableEq

/-- Where the flag lies in the flag byte. -/
def Flag.bit : Flag → Nat
  | .sign => 7
  | .zero => 6
  | .auxiliary => 4
  | .parity => 2
  | .carry => 0

namespace Flags

def get (f : Flags) : Flag → Bool
  | .sign => f.sign
  | .zero => f.zero
  | .auxiliary => f.auxiliary
  | .parity => f.parity
  | .carry => f.carry

theorem get_ofByte (v : UInt8) (flag : Flag) : (ofByte v).get flag = v.toNat.testBit flag.bit := by
  cases flag <;>
    exact Word.forall_byte (p := fun v => get (ofByte v) _ = v.toNat.testBit _) (by decide +kernel) v

/-- How many bits of a byte are set. -/
def ones (v : UInt8) : Nat :=
  (List.range 8).countP v.toNat.testBit

/-- Sign is the top bit of `v`, zero tells whether `v` is zero, and parity whether an
even number of its bits is set. -/
structure Tells (f : Flags) (v : UInt8) : Prop where
  sign : f.sign = v.toNat.testBit 7
  zero : f.zero = decide (v = 0)
  parity : f.parity = decide (ones v % 2 = 0)

theorem evenParity_eq (v : UInt8) : evenParity v = decide (ones v % 2 = 0) :=
  Word.forall_byte (p := fun v => evenParity v = decide (ones v % 2 = 0)) (by decide +kernel) v

theorem topBit_eq (v : UInt8) : decide (0x80 ≤ v) = v.toNat.testBit 7 :=
  Word.forall_byte (p := fun v => decide (0x80 ≤ v) = v.toNat.testBit 7) (by decide +kernel) v

/-- Flags set from a result tell of it, whatever becomes of the two carries. -/
theorem tells_withResult (f : Flags) (v : UInt8) (auxiliary carry : Bool) :
    Tells { f.withResult v with auxiliary := auxiliary, carry := carry } v :=
  ⟨topBit_eq v, rfl, evenParity_eq v⟩

end Flags

/-! ### Conditions -/

namespace Condition

/-- The flag that a condition asks for, and how it is to stand. -/
def asks : Condition → Flag × Bool
  | .notZero => (.zero, false)
  | .zero => (.zero, true)
  | .noCarry => (.carry, false)
  | .carry => (.carry, true)
  | .parityOdd => (.parity, false)
  | .parityEven => (.parity, true)
  | .plus => (.sign, false)
  | .minus => (.sign, true)

/-- The flag stands as the condition asks. -/
def Met (cond : Condition) (f : Flags) : Prop :=
  f.get cond.asks.1 = cond.asks.2

instance (cond : Condition) (f : Flags) : Decidable (cond.Met f) :=
  inferInstanceAs (Decidable (_ = _))

theorem holds_iff_met {cond : Condition} {f : Flags} : cond.holds f = true ↔ cond.Met f := by
  cases cond <;> simp [holds, Met, asks, Flags.get]

end Condition

/-! ### The arithmetic unit -/

namespace Alu
variable (a v : UInt8) (f : Flags)

/-- The byte that the flags of an accumulator operation tell of. -/
def outcome (op : AluOp) : UInt8 :=
  if op = .cmp then a - v else (apply op a v f).1

theorem apply_tells (op : AluOp) : (apply op a v f).2.Tells (outcome a v f op) := by
  cases op with
  | cmp =>
    have difference : (subtract a v false f).1 = a - v := UInt8.sub_zero _
    have h : (subtract a v false f).2.Tells (subtract a v false f).1 :=
      Flags.tells_withResult ..
    rw [difference] at h
    exact h
  | _ => exact Flags.tells_withResult ..

theorem increment_tells : (increment v f).2.Tells (v + 1) :=
  Flags.tells_withResult ..

theorem decrement_tells : (decrement v f).2.Tells (v - 1) :=
  Flags.tells_withResult ..

theorem decimalAdjust_tells : (decimalAdjust a f).2.Tells (decimalAdjust a f).1 :=
  Flags.tells_withResult ..

end Alu
end Cabinet

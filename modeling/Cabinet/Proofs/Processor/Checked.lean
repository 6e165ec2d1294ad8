import Cabinet.Processor.Alu
import Cabinet.Word
import Mathlib.Algebra.Group.Nat.Defs

/-! Arithmetic of a fixed width that must not overflow.

Registers wrap, but what is computed on the way to them does not: a sum has to fit the
width it is formed in, a difference must not be negative, and a shift goes by less than the
width. Here the arithmetic unit is laid out over words that fail where they do not fit,
with the widths an implementation of it has, and it never fails: nibbles and bytes are
summed in words that have room for them. -/
namespace Cabinet.Checked

/-! ### What can fail -/

/-- A number that has to fit `bits` bits. -/
def fit (bits n : Nat) : Option Nat :=
  if n < 2 ^ bits then some n else none

/-- A difference that must not be negative. -/
def minus (x y : Nat) : Option Nat :=
  if y ≤ x then some (x - y) else none

/-- A word of `bits` bits, shifted to the left by less than its width. What leaves it at the
top is lost. -/
def shiftLeft (bits x distance : Nat) : Option Nat :=
  if distance < bits then some (x <<< distance % 2 ^ bits) else none

/-- A word of `bits` bits, shifted to the right by less than its width. -/
def shiftRight (bits x distance : Nat) : Option Nat :=
  if distance < bits then some (x >>> distance) else none

theorem fit_of_lt {bits n : Nat} (h : n < 2 ^ bits) : fit bits n = some n :=
  if_pos h

theorem minus_of_le {x y : Nat} (h : y ≤ x) : minus x y = some (x - y) :=
  if_pos h

theorem shiftLeft_of_lt {bits distance : Nat} (x : Nat) (h : distance < bits) :
    shiftLeft bits x distance = some (x <<< distance % 2 ^ bits) :=
  if_pos h

theorem shiftRight_of_lt {bits distance : Nat} (x : Nat) (h : distance < bits) :
    shiftRight bits x distance = some (x >>> distance) :=
  if_pos h

/-- Two numbers and a carry, added one after the other. -/
def sum (bits x y : Nat) (carry : Bool) : Option Nat := do
  fit bits ((← fit bits (x + y)) + carry.toNat)

theorem sum_of_lt {bits x y : Nat} (h : x + y + 1 < 2 ^ bits) (carry : Bool) :
    sum bits x y carry = some (x + y + carry.toNat) := by
  have := carry.toNat_le
  rw [sum, fit_of_lt (by omega)]
  exact fit_of_lt (by omega)

/-! ### The arithmetic unit -/

/-- The sum in a word, the digits in a byte. -/
def add (a v : UInt8) (carry : Bool) (f : Flags) : Option (UInt8 × Flags) := do
  let whole ← sum 16 a.toNat v.toNat carry
  let low ← sum 8 (a.toNat % 16) (v.toNat % 16) carry
  let result := UInt8.ofNat whole
  return (result, { f.withResult result with
    auxiliary := decide (15 < low)
    carry := decide (255 < whole) })

/-- The difference wraps; what is subtracted is formed in a word, and its digit in a byte. -/
def subtract (a v : UInt8) (borrow : Bool) (f : Flags) : Option (UInt8 × Flags) := do
  let low ← fit 8 (v.toNat % 16 + borrow.toNat)
  let whole ← fit 16 (v.toNat + borrow.toNat)
  let result := a - v - borrow.toUInt8
  return (result, { f.withResult result with
    auxiliary := decide (a.toNat % 16 < low)
    carry := decide (a.toNat < whole) })

def apply (op : AluOp) (a v : UInt8) (f : Flags) : Option (UInt8 × Flags) :=
  match op with
  | .add => add a v false f
  | .adc => add a v f.carry f
  | .sub => subtract a v false f
  | .sbb => subtract a v f.carry f
  | .cmp => (fun r => (a, r.2)) <$> subtract a v false f
  | .ana | .xra | .ora => some (Alu.apply op a v f)

/-- The sum of two words in one of twice their width. -/
def addWord (x y : UInt16) (f : Flags) : Option (UInt16 × Flags) := do
  let whole ← fit 32 (x.toNat + y.toNat)
  return (UInt16.ofNat whole, { f with carry := decide (0xffff < whole) })

/-- A digit that is adjusted in a word, if it is to be. -/
def adjust (passed : Bool) (n six : Nat) : Option Nat :=
  if passed then fit 16 (n + six) else some n

def decimalAdjust (a : UInt8) (f : Flags) : Option (UInt8 × Flags) := do
  let units ← adjust (f.auxiliary || decide (9 < a.toNat % 16)) a.toNat 0x06
  let tens := f.carry || decide (0x99 < units)
  let whole ← adjust tens units 0x60
  let result := UInt8.ofNat whole
  return (result, { f.withResult result with
    auxiliary := (a ^^^ result) &&& 0x10 != 0
    carry := tens })

def rotateLeftCarry (a : UInt8) (f : Flags) : Option (UInt8 × Flags) := do
  let shifted ← shiftLeft 8 a.toNat 1
  return (UInt8.ofNat shifted ||| f.carry.toUInt8, { f with carry := a &&& 0x80 != 0 })

def rotateRightCarry (a : UInt8) (f : Flags) : Option (UInt8 × Flags) := do
  let shifted ← shiftRight 8 a.toNat 1
  return (UInt8.ofNat shifted ||| (if f.carry then 0x80 else 0), { f with carry := a &&& 0x01 != 0 })

theorem add_eq (a v : UInt8) (carry : Bool) (f : Flags) :
    add a v carry f = some (Alu.add a v carry f) := by
  have := a.toNat_lt
  have := v.toNat_lt
  rw [add, sum_of_lt (by omega), sum_of_lt (by omega)]
  rfl

theorem subtract_eq (a v : UInt8) (borrow : Bool) (f : Flags) :
    subtract a v borrow f = some (Alu.subtract a v borrow f) := by
  have := v.toNat_lt
  have := borrow.toNat_le
  rw [subtract, fit_of_lt (by omega), fit_of_lt (by omega)]
  rfl

theorem apply_eq (op : AluOp) (a v : UInt8) (f : Flags) :
    apply op a v f = some (Alu.apply op a v f) := by
  cases op with
  | add => exact add_eq ..
  | adc => exact add_eq ..
  | sub => exact subtract_eq ..
  | sbb => exact subtract_eq ..
  | cmp =>
    rw [apply, subtract_eq]
    rfl
  | _ => rfl

theorem addWord_eq (x y : UInt16) (f : Flags) : addWord x y f = some (Alu.addWord x y f) := by
  have := x.toNat_lt
  have := y.toNat_lt
  have wraps : UInt16.ofNat (x.toNat + y.toNat) = x + y := by
    rw [UInt16.ofNat_add, UInt16.ofNat_toNat, UInt16.ofNat_toNat]
  rw [addWord, fit_of_lt (by omega), Alu.addWord, ← wraps]
  rfl

theorem adjust_of_lt {n six : Nat} (h : n + six < 2 ^ 16) (passed : Bool) :
    adjust passed n six = some (if passed then n + six else n) := by
  rw [adjust, fit_of_lt h]
  cases passed <;> rfl

theorem decimalAdjust_eq (a : UInt8) (f : Flags) :
    decimalAdjust a f = some (Alu.decimalAdjust a f) := by
  have := a.toNat_lt
  have room : (if f.auxiliary || decide (9 < a.toNat % 16) then a.toNat + 0x06 else a.toNat) +
      0x60 < 2 ^ 16 := by
    split <;> omega
  rw [decimalAdjust, adjust_of_lt (by omega)]
  simp only [Option.bind_eq_bind, Option.bind_some, adjust_of_lt room]
  rfl

theorem rotateLeftCarry_eq (a : UInt8) (f : Flags) :
    rotateLeftCarry a f = some (Alu.rotateLeftCarry a f) := by
  have shifted : UInt8.ofNat (a.toNat <<< 1 % 2 ^ 8) = a <<< 1 :=
    Word.forall_byte (p := fun a => UInt8.ofNat (a.toNat <<< 1 % 2 ^ 8) = a <<< 1)
      (by decide +kernel) a
  rw [rotateLeftCarry, shiftLeft_of_lt _ (by decide)]
  exact congrArg (fun v => some (v ||| f.carry.toUInt8, _)) shifted

theorem rotateRightCarry_eq (a : UInt8) (f : Flags) :
    rotateRightCarry a f = some (Alu.rotateRightCarry a f) := by
  have shifted : UInt8.ofNat (a.toNat >>> 1) = a >>> 1 :=
    Word.forall_byte (p := fun a => UInt8.ofNat (a.toNat >>> 1) = a >>> 1) (by decide +kernel) a
  rw [rotateRightCarry, shiftRight_of_lt _ (by decide), Alu.rotateRightCarry, ← shifted]
  cases f.carry <;> rfl

end Cabinet.Checked

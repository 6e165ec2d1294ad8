import Cabinet.Word
import Cabinet.Processor.Flags
import Cabinet.Processor.Instruction

/-! The registers of the processor.

Seven bytes, two words, the flags, and two switches: whether it is halted and whether
it takes interrupts. Pairs of byte registers are read and written as words, the first
of the pair on top. -/
namespace Cabinet

/-- The state of the processor; by default as after a reset. -/
@[ext] structure Processor where
  a : UInt8 := 0
  b : UInt8 := 0
  c : UInt8 := 0
  d : UInt8 := 0
  e : UInt8 := 0
  h : UInt8 := 0
  l : UInt8 := 0
  sp : UInt16 := 0
  pc : UInt16 := 0
  flags : Flags := {}
  halted : Bool := false
  interruptsEnabled : Bool := true
  deriving Repr, DecidableEq, Inhabited

namespace Processor

def pair (p : Processor) : Pair → UInt16
  | .bc => Word.join p.b p.c
  | .de => Word.join p.d p.e
  | .hl => Word.join p.h p.l
  | .sp => p.sp

def setPair (p : Processor) (pair : Pair) (w : UInt16) : Processor :=
  match pair with
  | .bc => { p with b := Word.high w, c := Word.low w }
  | .de => { p with d := Word.high w, e := Word.low w }
  | .hl => { p with h := Word.high w, l := Word.low w }
  | .sp => { p with sp := w }

def indexPair (p : Processor) : IndexPair → UInt16
  | .bc => p.pair .bc
  | .de => p.pair .de

def stackPair (p : Processor) : StackPair → UInt16
  | .bc => p.pair .bc
  | .de => p.pair .de
  | .hl => p.pair .hl
  | .psw => Word.join p.a p.flags.toByte

def setStackPair (p : Processor) (pair : StackPair) (w : UInt16) : Processor :=
  match pair with
  | .bc => p.setPair .bc w
  | .de => p.setPair .de w
  | .hl => p.setPair .hl w
  | .psw => { p with a := Word.high w, flags := Flags.ofByte (Word.low w) }

def hl (p : Processor) : UInt16 :=
  p.pair .hl

/-- The accumulator and the flags an operation of the arithmetic unit leaves. -/
def accumulate (p : Processor) (r : UInt8 × Flags) : Processor :=
  { p with a := r.1, flags := r.2 }

end Processor

/-- Whether a condition holds of the flags. -/
def Condition.holds (f : Flags) : Condition → Bool
  | .notZero => !f.zero
  | .zero => f.zero
  | .noCarry => !f.carry
  | .carry => f.carry
  | .parityOdd => !f.parity
  | .parityEven => f.parity
  | .plus => !f.sign
  | .minus => f.sign

end Cabinet

import Cabinet.Memory
import Cabinet.Processor
import Cabinet.Processor.Device

/-! A processor with its memory and what is behind its ports.

Here are the moves that instructions are made of: reading and writing an operand, and
the stack. The stack grows downwards; a pushed word lies at the stack pointer, low
byte first. All address arithmetic wraps. -/
namespace Cabinet

@[ext] structure System (σ : Type) where
  cpu : Processor
  memory : Memory
  device : σ

namespace System
variable {σ : Type}

/-! ### Operands -/

def operand (s : System σ) : Operand → UInt8
  | .b => s.cpu.b
  | .c => s.cpu.c
  | .d => s.cpu.d
  | .e => s.cpu.e
  | .h => s.cpu.h
  | .l => s.cpu.l
  | .m => s.memory.read s.cpu.hl
  | .a => s.cpu.a

def setOperand (s : System σ) (o : Operand) (v : UInt8) : System σ :=
  match o with
  | .b => { s with cpu := { s.cpu with b := v } }
  | .c => { s with cpu := { s.cpu with c := v } }
  | .d => { s with cpu := { s.cpu with d := v } }
  | .e => { s with cpu := { s.cpu with e := v } }
  | .h => { s with cpu := { s.cpu with h := v } }
  | .l => { s with cpu := { s.cpu with l := v } }
  | .m => { s with memory := s.memory.write s.cpu.hl v }
  | .a => { s with cpu := { s.cpu with a := v } }

def setFlags (s : System σ) (f : Flags) : System σ :=
  { s with cpu := { s.cpu with flags := f } }

def setPair (s : System σ) (p : Pair) (w : UInt16) : System σ :=
  { s with cpu := s.cpu.setPair p w }

def setStackPair (s : System σ) (p : StackPair) (w : UInt16) : System σ :=
  { s with cpu := s.cpu.setStackPair p w }

/-- The accumulator and the flags after an operation of the arithmetic unit. -/
def accumulate (s : System σ) (r : UInt8 × Flags) : System σ :=
  { s with cpu := s.cpu.accumulate r }

/-! ### Control flow and the stack -/

def jump (s : System σ) (address : UInt16) : System σ :=
  { s with cpu := { s.cpu with pc := address } }

def push (s : System σ) (w : UInt16) : System σ :=
  let sp := s.cpu.sp - 2
  { s with cpu := { s.cpu with sp := sp }, memory := s.memory.writeWord sp w }

/-- The word on top of the stack. -/
def top (s : System σ) : UInt16 :=
  s.memory.readWord s.cpu.sp

/-- The stack without its top word. -/
def drop (s : System σ) : System σ :=
  { s with cpu := { s.cpu with sp := s.cpu.sp + 2 } }

/-- The program counter goes to the stack, and the processor to `address`. -/
def call (s : System σ) (address : UInt16) : System σ :=
  (s.push s.cpu.pc).jump address

/-- Back to the address on top of the stack. -/
def ret (s : System σ) : System σ :=
  s.drop.jump s.top

/-- Where the restart of a vector goes: one of eight addresses, eight bytes apart. -/
def restartAddress (vector : UInt8) : UInt16 :=
  (vector &&& 7).toUInt16 * 8

def restart (s : System σ) (vector : UInt8) : System σ :=
  s.call (restartAddress vector)

end System
end Cabinet

import Cabinet.System.Execute
import Cabinet.Notice

/-! The processor's clock: one instruction at a time, interrupts in between.

A step decodes the byte at the program counter, executes it and tells what it cost; a
halted processor does nothing and costs nothing. An interrupt is a restart forced from
outside. It is taken only while interrupts are enabled, disables them and ends a halt;
otherwise it is lost. -/
namespace Cabinet.System
variable {σ : Type} (dev : Device σ)

/-- The instruction at the program counter. -/
def fetch (s : System σ) : Instruction :=
  Instruction.decode (s.memory.read s.cpu.pc)

/-- The cycles spent, and the system after it. -/
def step (s : System σ) : UInt32 × System σ :=
  if s.cpu.halted then (0, s)
  else
    let i := s.fetch
    (i.cycles, s.execute dev i)

/-- Take `n` steps; their costs are added to `spent`. -/
def steps : Nat → Nat → System σ → Nat × System σ
  | 0, spent, s => (spent, s)
  | n + 1, spent, s =>
    let (cost, s') := s.step dev
    steps n (spent + cost.toNat) s'

/-! ### Interrupts -/

/-- Restart at `vector`, if interrupts are enabled. -/
def interrupt (s : System σ) (vector : UInt8) : System σ :=
  if s.cpu.interruptsEnabled then
    { s with cpu := { s.cpu with interruptsEnabled := false, halted := false } }.restart vector
  else s

/-- An interrupt that is taken is told, with the address it breaks in at. -/
def interruptNotices (s : System σ) (vector : UInt8) : List Notice :=
  if s.cpu.interruptsEnabled then [.interruptTaken (vector &&& 7) s.cpu.pc] else []

end Cabinet.System

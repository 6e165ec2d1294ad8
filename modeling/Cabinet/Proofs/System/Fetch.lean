import Cabinet.Proofs.Processor.Opcodes
import Cabinet.Proofs.Processor.Views
import Cabinet.System.Step

/-! A step, taken apart.

A system is halted, and then a step is nothing; or it fetches the one instruction that is
written with the byte at its program counter, and then a step is to execute it. What
stands behind the opcode in memory are its immediate byte and its immediate word. These and
the word on top of the stack lie in memory low byte first. -/
namespace Cabinet.System
variable {σ : Type} (dev : Device σ)

/-- The byte behind the opcode. -/
def immediate (s : System σ) : UInt8 :=
  s.memory.read (s.cpu.pc + 1)

/-- The word behind the opcode. -/
def immediateWord (s : System σ) : UInt16 :=
  Word.little (s.memory.read (s.cpu.pc + 1)) (s.memory.read (s.cpu.pc + 2))

/-- The word that the stack pointer is at. -/
def stackWord (s : System σ) : UInt16 :=
  Word.little (s.memory.read s.cpu.sp) (s.memory.read (s.cpu.sp + 1))

theorem readWord_operands (s : System σ) : s.memory.readWord (s.cpu.pc + 1) = s.immediateWord := by
  unfold Memory.readWord immediateWord
  rw [Word.join_eq_little, UInt16.add_assoc]
  rfl

theorem high_immediateWord (s : System σ) :
    Word.high s.immediateWord = s.memory.read (s.cpu.pc + 2) := by
  rw [immediateWord, ← Word.join_eq_little, Word.high_join]

theorem low_immediateWord (s : System σ) : Word.low s.immediateWord = s.immediate := by
  rw [immediateWord, ← Word.join_eq_little, Word.low_join]
  rfl

theorem top_eq_stackWord (s : System σ) : s.top = s.stackWord :=
  Word.join_eq_little ..

/-- The processor is not halted and the byte at the program counter stands for `i` and
for no other instruction. -/
structure Fetches (s : System σ) (i : Instruction) : Prop where
  running : s.cpu.halted = false
  opcode : ∀ j : Instruction, s.memory.read s.cpu.pc ∈ j.opcodes ↔ j = i

theorem fetches_fetch {s : System σ} (running : s.cpu.halted = false) : s.Fetches s.fetch :=
  ⟨running, fun _ => Instruction.mem_opcodes_iff⟩

/-- A running processor fetches what the byte at its program counter stands for. -/
theorem fetches_of_read {s : System σ} {v : UInt8} (running : s.cpu.halted = false)
    (opcode : s.memory.read s.cpu.pc = v) : s.Fetches (Instruction.decode v) :=
  opcode ▸ fetches_fetch running

theorem halted_or_fetches (s : System σ) : s.cpu.halted = true ∨ ∃ i, s.Fetches i := by
  cases running : s.cpu.halted
  · exact .inr ⟨s.fetch, fetches_fetch running⟩
  · exact .inl rfl

theorem Fetches.fetch_eq {s : System σ} {i : Instruction} (h : s.Fetches i) : s.fetch = i :=
  (h.opcode s.fetch).mp (Instruction.mem_opcodes_decode _)

/-- The instruction is as long as its opcode says. -/
theorem Fetches.size_eq {s : System σ} {i : Instruction} (h : s.Fetches i) :
    Instruction.size (s.memory.read s.cpu.pc) = i.length.toNat := by
  rw [← h.fetch_eq]
  exact (Instruction.length_decode _).symm

theorem step_of_halted {s : System σ} (h : s.cpu.halted = true) : s.step dev = (0, s) := by
  unfold step
  rw [if_pos h]

theorem step_of_fetches {s : System σ} {i : Instruction} (h : s.Fetches i) :
    s.step dev = (i.cycles, s.execute dev i) := by
  unfold step
  rw [if_neg (by rw [h.running]; decide), h.fetch_eq]

/-- All that a step can be. -/
theorem step_cases (s : System σ) :
    (s.cpu.halted = true ∧ s.step dev = (0, s)) ∨
      ∃ i, s.Fetches i ∧ s.step dev = (i.cycles, s.execute dev i) := by
  rcases s.halted_or_fetches with halted | ⟨i, h⟩
  · exact .inl ⟨halted, step_of_halted dev halted⟩
  · exact .inr ⟨i, h, step_of_fetches dev h⟩

/-- An instruction is executed on its immediate operands with the program counter past
it. -/
theorem execute_eq (s : System σ) (i : Instruction) :
    s.execute dev i =
      perform dev s.immediate s.immediateWord (s.jump (s.cpu.pc + i.length)) i := by
  unfold execute
  simp only [readWord_operands]
  rfl

end Cabinet.System

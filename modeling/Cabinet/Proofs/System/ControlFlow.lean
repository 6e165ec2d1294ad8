import Cabinet.Proofs.System.Fetch
import Cabinet.Proofs.System.Moves

/-! Where an instruction leaves the program counter and the stack pointer, and what it
costs.

`target` is where control is transferred to, if it is; otherwise the program counter
moves past as many bytes as the table of sizes has for the opcode. A condition asks for one
flag. Both registers are functions of the state before the step, so a word pushed over the
instruction's own operands, or popped from among them, changes neither. -/
namespace Cabinet

namespace Instruction
variable {σ : Type} (s : System σ)

/-- Where control is transferred to, if it is. -/
def target : Instruction → Option UInt16
  | .jmp | .call => some s.immediateWord
  | .jcc cond | .ccc cond => if cond.Met s.cpu.flags then some s.immediateWord else none
  | .ret => some s.stackWord
  | .rcc cond => if cond.Met s.cpu.flags then some s.stackWord else none
  | .rst n => some (8 * n.toUInt16)
  | .pchl => some (s.cpu.word .h .l)
  | _ => none

/-- The program counter after the instruction: at its target, or past as many bytes as its
opcode takes. -/
def pcAfter (i : Instruction) : UInt16 :=
  (i.target s).getD (s.cpu.pc + UInt16.ofNat (size (s.memory.read s.cpu.pc)))

/-- The stack pointer after the instruction. -/
def spAfter : Instruction → UInt16
  | .push _ | .call | .rst _ => s.cpu.sp - 2
  | .ccc cond => if cond.Met s.cpu.flags then s.cpu.sp - 2 else s.cpu.sp
  | .pop _ | .ret => s.cpu.sp + 2
  | .rcc cond => if cond.Met s.cpu.flags then s.cpu.sp + 2 else s.cpu.sp
  | .lxi .sp => s.immediateWord
  | .inx .sp => s.cpu.sp + 1
  | .dcx .sp => s.cpu.sp - 1
  | .sphl => s.cpu.word .h .l
  | _ => s.cpu.sp

end Instruction

namespace System
variable {σ : Type} (dev : Device σ) {s : System σ}

/-- The restarts that have an opcode go to eight times their number. -/
theorem restartAddress_of_lt (n : UInt8) : n < 8 → restartAddress n = 8 * n.toUInt16 :=
  Word.forall_byte (p := fun n => n < 8 → restartAddress n = 8 * n.toUInt16) (by decide +kernel) n

theorem Fetches.restart_lt {n : UInt8} (h : s.Fetches (.rst n)) : n < 8 :=
  (Instruction.mem_opcodes_rst.mp ((h.opcode (.rst n)).mpr rfl)).1

theorem execute_pc {i : Instruction} (h : s.Fetches i) :
    (s.execute dev i).cpu.pc = i.pcAfter s := by
  rw [execute_eq, Instruction.pcAfter, h.size_eq, UInt16.ofNat_toNat]
  cases i with
  | mov dst _ | mvi dst | inr dst | dcr dst => exact pc_setOperand ..
  | lxi p | inx p | dcx p => exact Processor.pc_setPair ..
  | pop p => exact Processor.pc_setStackPair ..
  | jcc cond | ccc cond =>
    show (if cond.holds s.cpu.flags then _ else _ : System σ).cpu.pc =
      (if cond.Met s.cpu.flags then some _ else none).getD _
    simp only [Condition.holds_iff_met]
    split <;> rfl
  | ret => exact s.top_eq_stackWord
  | rcc cond =>
    show (if cond.holds s.cpu.flags then _ else _ : System σ).cpu.pc =
      (if cond.Met s.cpu.flags then some _ else none).getD _
    simp only [Condition.holds_iff_met]
    split
    · exact s.top_eq_stackWord
    · rfl
  | rst n => exact restartAddress_of_lt n h.restart_lt
  | pchl => exact s.cpu.hl_eq_word
  | _ => rfl

theorem execute_sp (i : Instruction) : (s.execute dev i).cpu.sp = i.spAfter s := by
  rw [execute_eq]
  cases i with
  | mov dst _ | mvi dst | inr dst | dcr dst => exact sp_setOperand ..
  | lxi p | inx p | dcx p => cases p <;> rfl
  | pop p => exact Processor.sp_setStackPair ..
  | jcc cond =>
    show (if cond.holds s.cpu.flags then _ else _ : System σ).cpu.sp = _
    split <;> rfl
  | ccc cond | rcc cond =>
    show (if cond.holds s.cpu.flags then _ else _ : System σ).cpu.sp =
      if cond.Met s.cpu.flags then _ else _
    simp only [Condition.holds_iff_met]
    split <;> rfl
  | sphl => exact s.cpu.hl_eq_word
  | _ => rfl

/-- **A step sets the program counter, the stack pointer and the clock exactly as the
instruction at the program counter says**, from the state before it; a halted processor
does not move and spends nothing. -/
theorem step_controlFlow (dev : Device σ) (s : System σ) :
    (s.cpu.halted = true ∧ s.step dev = (0, s)) ∨
      ∃ i, s.Fetches i ∧
        (s.step dev).2.cpu.pc = i.pcAfter s ∧
        (s.step dev).2.cpu.sp = i.spAfter s ∧
        (s.step dev).1.toNat = Instruction.cost (s.memory.read s.cpu.pc) := by
  rcases s.step_cases dev with halted | ⟨i, h, step⟩
  · exact .inl halted
  · refine .inr ⟨i, h, ?_⟩
    rw [step]
    refine ⟨execute_pc dev h, execute_sp dev i, ?_⟩
    show i.cycles.toNat = _
    rw [← h.fetch_eq]
    exact Instruction.cycles_decode _

end System
end Cabinet

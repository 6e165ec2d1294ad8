import Cabinet.Proofs.Processor.Views
import Cabinet.Proofs.System.ControlFlow
import Cabinet.Proofs.System.Stores

/-! All that an instruction changes.

An instruction has registers and flags it may change; `loads` says what a transfer or a
count brings into them, `told` which byte sign, zero and parity tell of. `Effect` is the
whole account of one instruction between the state before and the state after it, with
the program counter, the stack pointer, the two switches, memory and the device: whatever
it does not name is as it was. Every step has the effect of the instruction it fetches
(`step_effect`). -/
namespace Cabinet

namespace Instruction
variable {σ : Type}

/-! ### Destinations -/

/-- The flags an instruction may change. -/
def flags : Instruction → List Flag
  | .alu _ _ | .aluImm _ | .daa | .pop .psw => [.sign, .zero, .auxiliary, .parity, .carry]
  | .inr _ | .dcr _ => [.sign, .zero, .auxiliary, .parity]
  | .dad _ | .rlc | .rrc | .ral | .rar | .stc | .cmc => [.carry]
  | _ => []

/-- The registers an instruction may change. -/
def registers : Instruction → List Register
  | .mov dst _ | .mvi dst | .inr dst | .dcr dst => dst.register?.toList
  | .lxi p | .inx p | .dcx p => p.upper?.toList ++ p.lower?.toList
  | .pop p => p.registers
  | .lhld | .xthl | .dad _ => [.h, .l]
  | .xchg => [.d, .e, .h, .l]
  | .alu .cmp _ | .aluImm .cmp => []
  | .alu _ _ | .aluImm _ => [.a]
  | .lda | .ldax _ | .daa | .rlc | .rrc | .ral | .rar | .cma | .input => [.a]
  | _ => []

/-! ### What comes to them -/

/-- The registers that an instruction loads or counts, each with the byte it gets. -/
def loads (dev : Device σ) (s : System σ) : Instruction → List (Register × UInt8)
  | .mov dst src => dst.register?.toList.map (·, src.value s)
  | .mvi dst => dst.register?.toList.map (·, s.immediate)
  | .lxi p =>
    p.upper?.toList.map (·, s.memory.read (s.cpu.pc + 2)) ++
      p.lower?.toList.map (·, s.memory.read (s.cpu.pc + 1))
  | .lda => [(.a, s.memory.read s.immediateWord)]
  | .ldax p => [(.a, s.memory.read (s.cpu.word p.upper p.lower))]
  | .lhld => [(.h, s.memory.read (s.immediateWord + 1)), (.l, s.memory.read s.immediateWord)]
  | .xchg => [(.h, s.cpu.d), (.l, s.cpu.e), (.d, s.cpu.h), (.e, s.cpu.l)]
  | .xthl => [(.h, s.memory.read (s.cpu.sp + 1)), (.l, s.memory.read s.cpu.sp)]
  | .pop p =>
    (p.upper, s.memory.read (s.cpu.sp + 1)) ::
      p.lower?.toList.map (·, s.memory.read s.cpu.sp)
  | .inr dst => dst.register?.toList.map (·, dst.value s + 1)
  | .dcr dst => dst.register?.toList.map (·, dst.value s - 1)
  | .cma => [(.a, ~~~s.cpu.a)]
  | .input => [(.a, (dev.input s.immediate s.device).1)]
  | _ => []

/-- The byte that sign, zero and parity tell of afterwards, if they are set. -/
def told (s t : System σ) : Instruction → Option UInt8
  | .alu .cmp src => some (s.cpu.a - src.value s)
  | .aluImm .cmp => some (s.cpu.a - s.immediate)
  | .alu _ _ | .aluImm _ | .daa => some t.cpu.a
  | .inr dst => some (dst.value s + 1)
  | .dcr dst => some (dst.value s - 1)
  | _ => none

/-- Whether interrupts are enabled or disabled by an instruction, if either. -/
def gate : Instruction → Option Bool
  | .ei => some true
  | .di => some false
  | _ => none

/-- The device after the instruction: one call, or none. -/
def drive (dev : Device σ) (s : System σ) : Instruction → σ
  | .input => (dev.input s.immediate s.device).2
  | .output => dev.output s.immediate s.cpu.a s.device
  | _ => s.device

end Instruction

/-- What the instruction `i` makes of the system `s`. -/
structure Effect {σ : Type} (dev : Device σ) (i : Instruction) (s t : System σ) : Prop where
  registers : ∀ r, r ∉ i.registers → t.cpu.register r = s.cpu.register r
  loads : ∀ r v, (r, v) ∈ i.loads dev s → t.cpu.register r = v
  flags : ∀ flag, flag ∉ i.flags → t.cpu.flags.get flag = s.cpu.flags.get flag
  told : ∀ v, i.told s t = some v → t.cpu.flags.Tells v
  popped : i = .pop .psw →
    ∀ flag, t.cpu.flags.get flag = (s.memory.read s.cpu.sp).toNat.testBit flag.bit
  sp : t.cpu.sp = i.spAfter s
  pc : t.cpu.pc = i.pcAfter s
  halted : t.cpu.halted = decide (i = .hlt)
  interrupts : t.cpu.interruptsEnabled = i.gate.getD s.cpu.interruptsEnabled
  memory : Memory.Stored (i.stores s) s.memory t.memory
  device : t.device = i.drive dev s

theorem mem_map_register {o : Option Register} {u v : UInt8} {r : Register} :
    (r, v) ∈ o.toList.map (·, u) ↔ o = some r ∧ v = u := by
  cases o <;> simp [eq_comm]

namespace System
variable {σ : Type} (dev : Device σ) (s : System σ)

/-! ### The two switches and the device -/

theorem execute_halted (i : Instruction) :
    (s.execute dev i).cpu.halted = if i = .hlt then true else s.cpu.halted := by
  rw [execute_eq]
  cases i with
  | mov dst _ | mvi dst | inr dst | dcr dst => exact halted_setOperand ..
  | lxi p | inx p | dcx p => exact Processor.halted_setPair ..
  | pop p => exact Processor.halted_setStackPair ..
  | jcc cond | ccc cond | rcc cond =>
    simp only [perform]
    split <;> rfl
  | _ => rfl

theorem execute_interruptsEnabled (i : Instruction) :
    (s.execute dev i).cpu.interruptsEnabled = i.gate.getD s.cpu.interruptsEnabled := by
  rw [execute_eq]
  cases i with
  | mov dst _ | mvi dst | inr dst | dcr dst => exact interruptsEnabled_setOperand ..
  | lxi p | inx p | dcx p => exact Processor.interruptsEnabled_setPair ..
  | pop p => exact Processor.interruptsEnabled_setStackPair ..
  | jcc cond | ccc cond | rcc cond =>
    simp only [perform]
    split <;> rfl
  | _ => rfl

theorem execute_device (i : Instruction) : (s.execute dev i).device = i.drive dev s := by
  rw [execute_eq]
  cases i with
  | mov dst _ | mvi dst | inr dst | dcr dst => exact device_setOperand ..
  | jcc cond | ccc cond | rcc cond =>
    simp only [perform]
    split <;> rfl
  | _ => rfl

/-! ### Registers -/

/-- A register that is no destination is as it was. -/
theorem execute_register {i : Instruction} {r : Register} (h : r ∉ i.registers) :
    (s.execute dev i).cpu.register r = s.cpu.register r := by
  rw [execute_eq]
  cases i with
  | mov dst _ | mvi dst | inr dst | dcr dst =>
    have other : dst.register? ≠ some r := fun e => h (Option.mem_toList.mpr e)
    exact (register_setOperand ..).trans ((if_neg other).trans (register_jump ..))
  | lxi p | inx p | dcx p =>
    simp only [Instruction.registers, List.mem_append, Option.mem_toList, not_or] at h
    refine (Processor.register_setPair ..).trans ?_
    rw [if_neg h.1, if_neg h.2, register_jump]
  | pop p =>
    simp only [Instruction.registers, StackPair.registers, List.mem_cons, Option.mem_toList,
      not_or] at h
    refine (Processor.register_setStackPair ..).trans ?_
    rw [if_neg (Ne.symm h.1), if_neg h.2]
    cases r <;> rfl
  | alu op _ | aluImm op =>
    cases op <;> cases r <;> first | rfl | simp [Instruction.registers] at h
  | lda | ldax _ | lhld | xchg | xthl | dad _ | daa | rlc | rrc | ral | rar | cma | input =>
    cases r <;> first | rfl | simp [Instruction.registers] at h
  | jcc cond | ccc cond | rcc cond =>
    simp only [perform]
    split <;> cases r <;> rfl
  | _ => cases r <;> rfl

/-- A register that is loaded gets its byte from the state before. -/
theorem execute_loads {i : Instruction} {r : Register} {v : UInt8} (h : (r, v) ∈ i.loads dev s) :
    (s.execute dev i).cpu.register r = v := by
  rw [execute_eq]
  cases i with
  | mov dst src =>
    obtain ⟨hr, rfl⟩ := mem_map_register.mp h
    rw [perform, register_setOperand, if_pos hr, operand_jump, operand_eq_value]
  | mvi dst =>
    obtain ⟨hr, rfl⟩ := mem_map_register.mp h
    rw [perform, register_setOperand, if_pos hr]
  | inr dst | dcr dst =>
    obtain ⟨hr, rfl⟩ := mem_map_register.mp h
    refine (register_setOperand ..).trans ((if_pos hr).trans ?_)
    rw [operand_jump, operand_eq_value]
    rfl
  | lxi p =>
    simp only [Instruction.loads, List.mem_append, mem_map_register] at h
    rcases h with ⟨hr, rfl⟩ | ⟨hr, rfl⟩
    · exact (Processor.register_setPair ..).trans ((if_pos hr).trans s.high_immediateWord)
    · exact (Processor.register_setPair_of_lower _ _ hr).trans s.low_immediateWord
  | pop p =>
    simp only [Instruction.loads, List.mem_cons, Prod.mk.injEq, mem_map_register] at h
    rcases h with ⟨rfl, rfl⟩ | ⟨hr, rfl⟩
    · exact (Processor.register_setStackPair ..).trans ((if_pos rfl).trans (Word.high_join ..))
    · exact (Processor.register_setStackPair_of_lower _ _ hr).trans (Word.low_join ..)
  | lda | cma | input =>
    obtain ⟨rfl, rfl⟩ := Prod.mk.inj (List.mem_singleton.mp h)
    rfl
  | ldax p =>
    obtain ⟨rfl, rfl⟩ := Prod.mk.inj (List.mem_singleton.mp h)
    exact congrArg s.memory.read (s.cpu.indexPair_eq_word p)
  | lhld | xthl =>
    simp only [Instruction.loads, List.mem_cons, Prod.mk.injEq, List.not_mem_nil, or_false] at h
    rcases h with ⟨rfl, rfl⟩ | ⟨rfl, rfl⟩
    · exact Word.high_join ..
    · exact Word.low_join ..
  | xchg =>
    simp only [Instruction.loads, List.mem_cons, Prod.mk.injEq, List.not_mem_nil, or_false] at h
    rcases h with ⟨rfl, rfl⟩ | ⟨rfl, rfl⟩ | ⟨rfl, rfl⟩ | ⟨rfl, rfl⟩
    · exact Word.high_join ..
    · exact Word.low_join ..
    · exact Word.high_join ..
    · exact Word.low_join ..
  | _ => cases h

/-! ### Flags -/

theorem execute_flag {i : Instruction} {flag : Flag} (h : flag ∉ i.flags) :
    (s.execute dev i).cpu.flags.get flag = s.cpu.flags.get flag := by
  rw [execute_eq]
  cases i with
  | mov dst _ | mvi dst => exact congrArg (·.get flag) (flags_setOperand ..)
  | lxi p | inx p | dcx p => exact congrArg (·.get flag) (Processor.flags_setPair ..)
  | alu _ _ | aluImm _ | daa => cases flag <;> simp [Instruction.flags] at h
  | inr _ | dcr _ | dad _ | rlc | rrc | ral | rar | stc | cmc =>
    cases flag <;> first | rfl | simp [Instruction.flags] at h
  | pop p => cases p <;> cases flag <;> first | rfl | simp [Instruction.flags] at h
  | jcc cond | ccc cond | rcc cond =>
    simp only [perform]
    split <;> rfl
  | _ => rfl

theorem execute_told {i : Instruction} {v : UInt8} (h : i.told s (s.execute dev i) = some v) :
    (s.execute dev i).cpu.flags.Tells v := by
  rw [execute_eq] at h ⊢
  cases i with
  | alu op src =>
    have tells := Alu.apply_tells s.cpu.a (src.value s) s.cpu.flags op
    rw [perform, operand_jump, operand_eq_value] at h ⊢
    cases op <;> (obtain rfl := Option.some.inj h; exact tells)
  | aluImm op =>
    have tells := Alu.apply_tells s.cpu.a s.immediate s.cpu.flags op
    cases op <;> (obtain rfl := Option.some.inj h; exact tells)
  | daa =>
    obtain rfl := Option.some.inj h
    exact Alu.decimalAdjust_tells ..
  | inr dst =>
    obtain rfl := Option.some.inj h
    rw [perform, operand_jump, operand_eq_value]
    exact Alu.increment_tells ..
  | dcr dst =>
    obtain rfl := Option.some.inj h
    rw [perform, operand_jump, operand_eq_value]
    exact Alu.decrement_tells ..
  | _ => cases h

theorem execute_popped (flag : Flag) :
    (s.execute dev (.pop .psw)).cpu.flags.get flag =
      (s.memory.read s.cpu.sp).toNat.testBit flag.bit := by
  have low : Word.low s.top = s.memory.read s.cpu.sp := Word.low_join ..
  rw [← low]
  exact Flags.get_ofByte _ flag

/-- **A step has the effect of the instruction at the program counter and no other**; a
halted processor changes nothing. -/
theorem step_effect (dev : Device σ) (s : System σ) :
    (s.cpu.halted = true ∧ s.step dev = (0, s)) ∨
      ∃ i, s.Fetches i ∧ Effect dev i s (s.step dev).2 := by
  rcases s.step_cases dev with halted | ⟨i, h, step⟩
  · exact .inl halted
  · refine .inr ⟨i, h, ?_⟩
    rw [step]
    exact {
      registers := fun _ => execute_register dev s
      loads := fun _ _ => execute_loads dev s
      flags := fun _ => execute_flag dev s
      told := fun _ => execute_told dev s
      popped := by
        rintro rfl flag
        exact execute_popped dev s flag
      sp := execute_sp dev i
      pc := execute_pc dev h
      halted := by
        rw [execute_halted, h.running]
        rfl
      interrupts := execute_interruptsEnabled dev s i
      memory := stored_execute dev s i
      device := execute_device dev s i }

end System
end Cabinet

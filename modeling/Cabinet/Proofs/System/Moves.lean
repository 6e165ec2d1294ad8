import Cabinet.Proofs.Processor.Views
import Cabinet.System

/-! What the moves of an instruction read, and what they leave alone.

An operand is the byte of its register, or of the cell at HL. Writing an operand reaches
the registers and memory, writing a pair the registers and the stack pointer, and popping
into a pair besides the flags. Whatever else the system has is as it was. -/
namespace Cabinet

/-! ### Pairs -/

namespace Processor
variable (p : Processor) (w : UInt16)

@[simp] theorem pc_setPair (q : Pair) : (p.setPair q w).pc = p.pc := by
  cases q <;> rfl

@[simp] theorem flags_setPair (q : Pair) : (p.setPair q w).flags = p.flags := by
  cases q <;> rfl

@[simp] theorem halted_setPair (q : Pair) : (p.setPair q w).halted = p.halted := by
  cases q <;> rfl

@[simp] theorem interruptsEnabled_setPair (q : Pair) :
    (p.setPair q w).interruptsEnabled = p.interruptsEnabled := by
  cases q <;> rfl

@[simp] theorem pc_setStackPair (q : StackPair) : (p.setStackPair q w).pc = p.pc := by
  cases q <;> rfl

@[simp] theorem sp_setStackPair (q : StackPair) : (p.setStackPair q w).sp = p.sp := by
  cases q <;> rfl

@[simp] theorem halted_setStackPair (q : StackPair) : (p.setStackPair q w).halted = p.halted := by
  cases q <;> rfl

@[simp] theorem interruptsEnabled_setStackPair (q : StackPair) :
    (p.setStackPair q w).interruptsEnabled = p.interruptsEnabled := by
  cases q <;> rfl

end Processor

/-! ### Operands -/

/-- The byte an operand stands for. -/
def Operand.value {σ : Type} (s : System σ) (o : Operand) : UInt8 :=
  match o.register? with
  | some r => s.cpu.register r
  | none => s.memory.read (s.cpu.word .h .l)

namespace System
variable {σ : Type} (s : System σ) (o : Operand) (v : UInt8) (address : UInt16)

theorem operand_eq_value : s.operand o = o.value s := by
  cases o with
  | m => exact congrArg s.memory.read s.cpu.hl_eq_word
  | _ => rfl

theorem register_setOperand (r : Register) :
    (s.setOperand o v).cpu.register r = if o.register? = some r then v else s.cpu.register r := by
  cases o <;> cases r <;> rfl

@[simp] theorem pc_setOperand : (s.setOperand o v).cpu.pc = s.cpu.pc := by
  cases o <;> rfl

@[simp] theorem sp_setOperand : (s.setOperand o v).cpu.sp = s.cpu.sp := by
  cases o <;> rfl

@[simp] theorem flags_setOperand : (s.setOperand o v).cpu.flags = s.cpu.flags := by
  cases o <;> rfl

@[simp] theorem halted_setOperand : (s.setOperand o v).cpu.halted = s.cpu.halted := by
  cases o <;> rfl

@[simp] theorem interruptsEnabled_setOperand :
    (s.setOperand o v).cpu.interruptsEnabled = s.cpu.interruptsEnabled := by
  cases o <;> rfl

@[simp] theorem device_setOperand : (s.setOperand o v).device = s.device := by
  cases o <;> rfl

/-! ### Jumps -/

@[simp] theorem flags_jump : (s.jump address).cpu.flags = s.cpu.flags := rfl

@[simp] theorem register_jump (r : Register) :
    (s.jump address).cpu.register r = s.cpu.register r := by
  cases r <;> rfl

@[simp] theorem operand_jump : (s.jump address).operand o = s.operand o := by
  cases o <;> rfl

end System
end Cabinet

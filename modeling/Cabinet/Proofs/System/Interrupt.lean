import Cabinet.Proofs.System.ControlFlow
import Cabinet.Proofs.System.Stores

/-! An interrupt, taken or lost.

There is nothing between the two: an interrupt that finds the switch open is a restart
at the program counter as it stands, which closes the switch and ends a halt; one that
finds it closed leaves the whole system as it was, so none is ever kept for later. -/
namespace Cabinet.System
variable {σ : Type} {s t : System σ} {v : UInt8}

/-- Both switches off, as an interrupt leaves them. -/
def silenced (s : System σ) : System σ :=
  { s with cpu := { s.cpu with halted := false, interruptsEnabled := false } }

/-- The system `s` takes the interrupt at `v` and becomes `t`. -/
structure Accepts (v : UInt8) (s t : System σ) : Prop where
  enabled : s.cpu.interruptsEnabled = true
  cpu : t.cpu =
    { s.cpu with
      sp := s.cpu.sp - 2
      pc := 8 * v.toUInt16
      halted := false
      interruptsEnabled := false }
  memory :
    Memory.Stored (s.pushed (Word.high s.cpu.pc) (Word.low s.cpu.pc)) s.memory t.memory
  device : t.device = s.device
  /-- It is what a restart instruction does with the program counter where it is, but for
  the switches. -/
  restart : ∀ dev byte word, t = (perform dev byte word s (.rst v)).silenced

theorem interrupt_of_enabled (h : s.cpu.interruptsEnabled = true) (v : UInt8) :
    s.interrupt v = s.silenced.restart v :=
  if_pos h

theorem accepts_interrupt (h : s.cpu.interruptsEnabled = true) (hv : v < 8) :
    Accepts v s (s.interrupt v) := by
  rw [interrupt_of_enabled h]
  exact {
    enabled := h
    cpu := by
      show ({ s.cpu with
        sp := s.cpu.sp - 2, pc := restartAddress v, halted := false,
        interruptsEnabled := false } : Processor) = _
      rw [restartAddress_of_lt v hv]
    memory := s.stored_push s.cpu.pc
    device := rfl
    restart := fun _ _ _ => rfl }

theorem interrupt_of_disabled (h : s.cpu.interruptsEnabled = false) (v : UInt8) :
    s.interrupt v = s := by
  unfold interrupt
  rw [h]
  rfl

/-- Taken or lost, as the switch says. -/
theorem interrupt_cases (s : System σ) (hv : v < 8) :
    Accepts v s (s.interrupt v) ∨ (s.cpu.interruptsEnabled = false ∧ s.interrupt v = s) := by
  cases h : s.cpu.interruptsEnabled
  · exact .inr ⟨rfl, interrupt_of_disabled h v⟩
  · exact .inl (accepts_interrupt h hv)

end Cabinet.System

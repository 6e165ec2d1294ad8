import Cabinet.Proofs.Machine.Operations
import Mathlib.Algebra.Group.Nat.Defs
import Mathlib.Order.Bounds.Basic

/-! The budget of half a frame, counted in steps.

Half a frame is over as soon as its budget is spent or the processor is halted, and it ends
with the first step after which that is so. Before any step but the last the half is not over,
since the budget is not spent and there is an instruction to execute (`not_over`). From this
come its length, since no instruction is free, and how far it can pass the budget, since none
costs much (`half_by_steps`). -/
namespace Cabinet.Machine
variable {m : Machine} {is : List Instruction} {t : System Board} {n : Nat}

/-- After `n` steps half a frame is over: its budget is spent, or the processor is halted. -/
def Over (m : Machine) (n : Nat) : Prop :=
  m.halfFrameCycles.toNat ≤ (m.steps n).1 ∨ (m.steps n).2.system.cpu.halted = true

/-- What half a frame is to be that takes `n` steps, costs `r` cycles and leaves `t`. -/
structure Spends (m : Machine) (n : Nat) (r : UInt32) (t : System Board) : Prop where
  /-- It ends with the first step after which it is over. -/
  least : IsLeast {k | m.Over k} n
  steps : m.steps n = (r.toNat, { m with system := t })
  /-- A quarter of the budget, rounded up. -/
  few : n ≤ (m.halfFrameCycles.toNat + 3) / 4
  passed : r.toNat ≤ m.halfFrameCycles.toNat + 17
  short : r.toNat < m.halfFrameCycles.toNat → t.cpu.halted = true
  idle : 0 < m.halfFrameCycles.toNat → (r = 0 ↔ m.system.cpu.halted = true)

/-- Instructions that are executed are the steps of the machine. -/
theorem steps_of_executes (h : System.Executes Board.device m.system is t) :
    m.steps is.length = (Instruction.cyclesOf is, { m with system := t }) := by
  rw [steps, h.steps_eq 0, Nat.zero_add]

/-- With instructions left to execute, half a frame is not over. -/
theorem not_over (h : System.Halves Board.device m.halfFrameCycles.toNat 0 m.system is t)
    (left : n < is.length) : ¬m.Over n := by
  have whole : is = is.take n ++ is[n] :: is.drop (n + 1) := by
    rw [List.getElem_cons_drop, List.take_append_drop]
  have executes := h.executes
  rw [whole] at executes
  obtain ⟨u, front, back⟩ := executes.split
  have reached : m.steps n = (Instruction.cyclesOf (is.take n), { m with system := u }) := by
    have := steps_of_executes front
    rwa [List.length_take_of_le (Nat.le_of_lt left)] at this
  rw [Over, reached]
  intro ended
  cases ended with
  | inl spent =>
    have := h.within n left
    omega
  | inr halted =>
    cases back with
    | cons fetches _ =>
      rw [fetches.running] at halted
      cases halted

/-- All steps but the last cost four cycles each at least and still do not spend the budget. -/
theorem length_le (h : System.Halves Board.device m.halfFrameCycles.toNat 0 m.system is t) :
    is.length ≤ (m.halfFrameCycles.toNat + 3) / 4 := by
  cases length : is.length with
  | zero => exact Nat.zero_le _
  | succ n =>
    have before := h.within n (by omega)
    have cost := Instruction.four_mul_length_le (is.take n)
    rw [List.length_take_of_le (by omega)] at cost
    omega

/-- A half costs nothing just if there is no instruction to begin with. -/
theorem cyclesOf_eq_zero_iff
    (h : System.Halves Board.device m.halfFrameCycles.toNat 0 m.system is t)
    (some : 0 < m.halfFrameCycles.toNat) :
    Instruction.cyclesOf is = 0 ↔ m.system.cpu.halted = true := by
  cases is with
  | nil =>
    cases h.executes
    exact iff_of_true rfl (h.ended.resolve_left (Nat.not_le_of_lt some))
  | cons i is =>
    cases h.executes with
    | cons fetches _ =>
      have := i.four_le_toNat_cycles
      rw [Instruction.cyclesOf_cons, fetches.running]
      exact iff_of_false (by omega) nofun

theorem spends_of_halves {r : UInt32}
    (h : System.Halves Board.device m.halfFrameCycles.toNat 0 m.system is t)
    (cost : r.toNat = Instruction.cyclesOf is) : m.Spends is.length r t where
  least := by
    constructor
    · show m.Over is.length
      rw [Over, steps_of_executes h.executes, ← Nat.zero_add (Instruction.cyclesOf is)]
      exact h.ended
    · intro k ended
      by_contra before
      exact not_over h (Nat.lt_of_not_le before) ended
  steps := by rw [steps_of_executes h.executes, cost]
  few := length_le h
  passed := cost ▸ h.cyclesOf_le
  short := fun below => h.ended.resolve_left (by omega)
  idle := fun some => by rw [← UInt32.toNat_inj, cost, UInt32.toNat_zero, cyclesOf_eq_zero_iff h some]

/-- **Half a frame takes just the steps it needs**, whatever state the machine is in: unless its
budget lies within eighteen of the counter's end, it comes to an end, with the first step that
has its budget spent or the processor halted. That is at most one step for every four cycles of
the budget, which it passes by seventeen at most, and falls short of only when halted. -/
theorem half_by_steps (m : Machine) (room : m.halfFrameCycles.toNat ≤ 2 ^ 32 - 18) :
    ∃ n r t, m.runHalf m.system = .ok (r, t) ∧ m.Spends n r t := by
  rcases System.runHalf_cases Board.device m.halfFrameCycles 0 m.system with
    ⟨_, large⟩ | ⟨is, r, t, ran, cost, halves⟩
  · exact absurd large (Nat.not_lt.mpr room)
  · rw [UInt32.toNat_zero, Nat.zero_add] at cost
    exact ⟨is.length, r, t, ran, spends_of_halves halves cost⟩

/-- The largest budget there is room for, which a program that halts at once does not spend. -/
theorem half_by_steps_halted :
    let m : Machine :=
      { system := { cpu := {}, memory := Memory.blank.write 1 0x76, device := .new {} }
        frames := 0
        halfFrameCycles := 4294967278 }
    m.halfFrameCycles.toNat ≤ 2 ^ 32 - 18 ∧
      ∃ t, m.runHalf m.system = .ok (11, t) ∧ m.Spends 2 11 t ∧ t.cpu.halted = true := by
  intro m
  have room : m.halfFrameCycles.toNat ≤ 2 ^ 32 - 18 := by decide
  let next := (m.system.step Board.device).2
  have first : m.system.Fetches .nop :=
    System.fetches_of_read (v := 0x00) rfl (by simp [m, Memory.read_write])
  have second : next.Fetches .hlt := by
    have stepped : next = m.system.execute Board.device .nop :=
      congrArg Prod.snd (System.step_of_fetches _ first)
    rw [stepped]
    have opcode : m.system.memory.read 1 = 0x76 := by simp [m, Memory.read_write]
    exact System.fetches_of_read (v := 0x76) rfl opcode
  have ended : (next.step Board.device).2.cpu.halted = true := by
    rw [System.step_of_fetches _ second]
    rfl
  have halves : System.Halves Board.device m.halfFrameCycles.toNat 0 m.system [.nop, .hlt] _ :=
    .cons first (by decide) (.cons second (by decide) (.of_halted ended))
  have own : m.Spends 2 11 (next.step Board.device).2 := spends_of_halves halves rfl
  obtain ⟨n, r, t, ran, spends⟩ := half_by_steps m room
  obtain rfl : n = 2 := spends.least.unique own.least
  have same := spends.steps.symm.trans own.steps
  obtain rfl : r = 11 := UInt32.toNat_inj.mp (congrArg Prod.fst same)
  exact ⟨room, t, ran, spends, spends.short (by decide)⟩

end Cabinet.Machine

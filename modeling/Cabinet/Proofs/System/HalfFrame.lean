import Cabinet.Counter
import Cabinet.Machine.Frame
import Cabinet.Proofs.System.Fetch
import Mathlib.Data.List.Induction

/-! Half a frame, instruction by instruction.

The loop that spends a budget is a sequence of steps of a processor that runs. It takes
the next one as long as what is spent lies below the budget, and ends when the budget is
reached or the processor is halted. An instruction costs at least four cycles, so the
loop ends, and at most eighteen, so that only a budget within eighteen of the end of the
counter can make it overflow. -/
namespace Cabinet

namespace Instruction

/-- The cycles of these instructions together. -/
def cyclesOf : List Instruction → Nat
  | [] => 0
  | i :: is => i.cycles.toNat + cyclesOf is

@[simp] theorem cyclesOf_cons (i : Instruction) (is : List Instruction) :
    cyclesOf (i :: is) = i.cycles.toNat + cyclesOf is := rfl

theorem cyclesOf_append (is js : List Instruction) :
    cyclesOf (is ++ js) = cyclesOf is + cyclesOf js := by
  induction is with
  | nil => exact (Nat.zero_add _).symm
  | cons i is ih => rw [List.cons_append, cyclesOf_cons, ih, cyclesOf_cons, Nat.add_assoc]

theorem toNat_cycles_le (i : Instruction) : i.cycles.toNat ≤ 18 :=
  UInt32.le_iff_toNat_le.mp i.cycles_le_eighteen

theorem four_le_toNat_cycles (i : Instruction) : 4 ≤ i.cycles.toNat :=
  UInt32.le_iff_toNat_le.mp i.four_le_cycles

theorem four_mul_length_le (is : List Instruction) : 4 * is.length ≤ cyclesOf is := by
  induction is with
  | nil => exact Nat.le_refl 0
  | cons i is ih =>
    have := i.four_le_toNat_cycles
    rw [List.length_cons, cyclesOf_cons]
    omega

theorem cycles_ne_zero (i : Instruction) : i.cycles ≠ 0 := fun h =>
  absurd (h ▸ i.four_le_cycles) (by decide)

end Instruction

namespace System
variable {σ : Type} (dev : Device σ)

/-- From the first system to the second by executing these instructions, each the one
that is fetched there. -/
inductive Executes : System σ → List Instruction → System σ → Prop
  | nil {s : System σ} : Executes s [] s
  | cons {s t : System σ} {i : Instruction} {is : List Instruction} (fetches : s.Fetches i)
      (rest : Executes (s.step dev).2 is t) : Executes s (i :: is) t

/-- From the first system to the second by the instructions of half a frame, when `spent`
cycles of its `budget` are gone. -/
structure Halves (budget spent : Nat) (s : System σ) (is : List Instruction) (t : System σ) :
    Prop where
  executes : Executes dev s is t
  within : ∀ k < is.length, spent + Instruction.cyclesOf (is.take k) < budget
  ended : budget ≤ spent + Instruction.cyclesOf is ∨ t.cpu.halted = true

variable {dev} {budget spent : Nat} {s t : System σ}

theorem Halves.none_left (h : budget ≤ spent) : Halves dev budget spent s [] s where
  executes := .nil
  within := fun _ hk => absurd hk (Nat.not_lt_zero _)
  ended := .inl h

theorem Halves.of_halted (h : s.cpu.halted = true) : Halves dev budget spent s [] s where
  executes := .nil
  within := fun _ hk => absurd hk (Nat.not_lt_zero _)
  ended := .inr h

theorem Halves.cons {i : Instruction} {is : List Instruction} (fetches : s.Fetches i)
    (left : spent < budget)
    (rest : Halves dev budget (spent + i.cycles.toNat) (s.step dev).2 is t) :
    Halves dev budget spent s (i :: is) t where
  executes := .cons fetches rest.executes
  within := by
    intro k hk
    cases k with
    | zero => exact left
    | succ k =>
      have := rest.within k (Nat.lt_of_succ_lt_succ hk)
      rw [List.take_succ_cons, Instruction.cyclesOf_cons]
      omega
  ended := by
    rcases rest.ended with reached | halted
    · left
      rw [Instruction.cyclesOf_cons]
      omega
    · exact .inr halted

theorem Executes.append {u : System σ} {is js : List Instruction} (h : Executes dev s is t)
    (h' : Executes dev t js u) : Executes dev s (is ++ js) u := by
  induction h with
  | nil => exact h'
  | cons fetches _ ih => exact .cons fetches (ih h')

/-- An execution can be stopped anywhere and taken up again. -/
theorem Executes.split {is js : List Instruction} (h : Executes dev s (is ++ js) t) :
    ∃ u, Executes dev s is u ∧ Executes dev u js t := by
  induction is generalizing s with
  | nil => exact ⟨s, .nil, h⟩
  | cons i is ih =>
    cases h with
    | cons fetches rest =>
      obtain ⟨u, front, back⟩ := ih rest
      exact ⟨u, .cons fetches front, back⟩

/-- What is executed is so many steps, and costs what they cost. -/
theorem Executes.steps_eq {is : List Instruction} (h : Executes dev s is t) (spent : Nat) :
    s.steps dev is.length spent = (spent + Instruction.cyclesOf is, t) := by
  induction h generalizing spent with
  | nil => rfl
  | @cons s t i is fetches _ ih =>
    rw [List.length_cons, steps, step_of_fetches dev fetches, Instruction.cyclesOf_cons,
      ← Nat.add_assoc]
    rw [step_of_fetches dev fetches] at ih
    exact ih _

/-- What is fetched is executed, and the rest of the half comes after it. -/
theorem Halves.tail {i j : Instruction} {is : List Instruction}
    (h : Halves dev budget spent s (j :: is) t) (fetches : s.Fetches i) :
    Halves dev budget (spent + i.cycles.toNat) (s.step dev).2 is t := by
  cases h.executes with
  | cons fetches' rest =>
    obtain rfl : i = j := fetches.fetch_eq.symm.trans fetches'.fetch_eq
    refine ⟨rest, fun k hk => ?_, ?_⟩
    · have := h.within (k + 1) (Nat.succ_lt_succ hk)
      rwa [List.take_succ_cons, Instruction.cyclesOf_cons, ← Nat.add_assoc] at this
    · have := h.ended
      rwa [Instruction.cyclesOf_cons, ← Nat.add_assoc] at this

/-- A half goes through every run of instructions that its budget has room for. -/
theorem Halves.through {u : System σ} {is ps : List Instruction}
    (h : Halves dev budget spent s is u) (ran : Executes dev s ps t)
    (room : spent + Instruction.cyclesOf ps ≤ budget) :
    ∃ js, Halves dev budget (spent + Instruction.cyclesOf ps) t js u := by
  induction ran generalizing spent is with
  | nil => exact ⟨is, h⟩
  | @cons s t i ps fetches _ ih =>
    rw [Instruction.cyclesOf_cons, ← Nat.add_assoc] at room ⊢
    cases is with
    | cons j is => exact ih (h.tail fetches) room
    | nil =>
      cases h.executes with
      | nil =>
        rcases h.ended with reached | halted
        · have := i.four_le_toNat_cycles
          have : budget ≤ spent := reached
          omega
        · rw [fetches.running] at halted
          cases halted

/-- A half that comes to a system that stays as it is ends there. -/
theorem Halves.settled {is : List Instruction} (h : Halves dev budget spent s is t)
    (still : (s.step dev).2 = s) : t = s := by
  induction is generalizing spent with
  | nil =>
    cases h.executes
    rfl
  | cons i is ih =>
    cases h.executes with
    | cons fetches _ =>
      have rest := h.tail fetches
      rw [still] at rest
      exact ih rest

/-- The last instruction begins below the budget, so it passes it by seventeen at most. -/
theorem Halves.cyclesOf_le {is : List Instruction} (h : Halves dev budget 0 s is t) :
    Instruction.cyclesOf is ≤ budget + 17 := by
  induction is using List.reverseRecOn with
  | nil => exact Nat.zero_le _
  | append_singleton is i _ =>
    have before := h.within is.length (by simp)
    rw [List.take_left, Nat.zero_add] at before
    have := i.toNat_cycles_le
    rw [Instruction.cyclesOf_append]
    show _ + (i.cycles.toNat + 0) ≤ _
    omega

/-- A step without cost is that of a halted processor. -/
theorem halted_of_step (h : s.step dev = (0, t)) : s.cpu.halted = true ∧ t = s := by
  rcases s.step_cases dev with ⟨halted, step⟩ | ⟨i, _, step⟩
  · rw [step] at h
    exact ⟨halted, (Prod.mk.inj h).2.symm⟩
  · rw [step] at h
    exact absurd (Prod.mk.inj h).1 i.cycles_ne_zero

/-- Any other is that of an instruction, which the cost belongs to. -/
theorem fetches_of_step {cost : UInt32} (h : s.step dev = (cost, t)) (hc : cost ≠ 0) :
    ∃ i, s.Fetches i ∧ cost = i.cycles := by
  rcases s.step_cases dev with ⟨_, step⟩ | ⟨i, fetches, step⟩
  · rw [step] at h
    exact absurd (Prod.mk.inj h).1.symm hc
  · rw [step] at h
    exact ⟨i, fetches, (Prod.mk.inj h).1.symm⟩

/-! ### The loop -/

/-- A halted processor ends the half, whatever is left of it. -/
theorem runHalf_of_halted (budget spent : UInt32) (h : s.cpu.halted = true) :
    s.runHalf dev budget spent = .ok (spent, s) := by
  rw [runHalf, step_of_halted dev h]
  exact ite_self _

/-- An instruction is executed, if anything is left, and its cost is added. -/
theorem runHalf_of_fetches {i : Instruction} {budget spent : UInt32} (h : s.Fetches i)
    (left : spent < budget) :
    s.runHalf dev budget spent = (do
      let spent ← Counter.add32 .halfFrameCycles spent i.cycles
      (s.step dev).2.runHalf dev budget spent) := by
  rw [runHalf, if_pos left, step_of_fetches dev h]
  simp only [if_neg i.cycles_ne_zero]
  split <;> simp only [*] <;> rfl

/-- The loop either overflows its counter, which takes a budget within eighteen of
its end, or runs the instructions of the half and returns what they cost. -/
theorem runHalf_cases (dev : Device σ) (budget spent : UInt32) (s : System σ) :
    (s.runHalf dev budget spent = .error .halfFrameCycles ∧ UInt32.size - 18 < budget.toNat) ∨
      ∃ is r t, s.runHalf dev budget spent = .ok (r, t) ∧
        r.toNat = spent.toNat + Instruction.cyclesOf is ∧
        Halves dev budget.toNat spent.toNat s is t := by
  fun_induction runHalf dev budget spent s with
  | case1 spent s left s' stepped =>
    obtain ⟨halted, rfl⟩ := halted_of_step stepped
    exact .inr ⟨[], spent, _, rfl, rfl, .of_halted halted⟩
  | case2 spent s left cost s' stepped costly fault overflow =>
    obtain ⟨rfl, beyond⟩ := Counter.add32_eq_error_iff.mp overflow
    obtain ⟨i, _, rfl⟩ := fetches_of_step stepped costly
    have := UInt32.lt_iff_toNat_lt.mp left
    have := i.toNat_cycles_le
    exact .inl ⟨rfl, by omega⟩
  | case3 spent s left cost s' stepped costly spent' fits ih =>
    have sum := Counter.add32_eq_ok_iff.mp fits
    obtain ⟨i, fetches, rfl⟩ := fetches_of_step stepped costly
    obtain rfl : (s.step dev).2 = s' := congrArg Prod.snd stepped
    rcases ih with overflow | ⟨is, r, t, ran, total, rest⟩
    · exact .inl overflow
    · rw [sum] at rest
      refine .inr ⟨i :: is, r, t, ran, ?_, .cons fetches (UInt32.lt_iff_toNat_lt.mp left) rest⟩
      rw [Instruction.cyclesOf_cons]
      omega
  | case4 spent s reached =>
    have : budget.toNat ≤ spent.toNat :=
      Nat.le_of_not_lt fun h => reached (UInt32.lt_iff_toNat_lt.mpr h)
    exact .inr ⟨[], spent, s, rfl, rfl, .none_left this⟩

end System
end Cabinet

import Cabinet.Proofs.Machine.Occurrences
import Mathlib.Algebra.Group.Nat.Defs

/-! Frames in a row and what they cost.

A half of a frame costs its budget and at most seventeen cycles more, so from the budget
it can be told that the cycles of a frame can be added up, and those of a run
(`totalCycles_ok`). A run of frames that keeps their reports leaves the machine that the
frames leave as operations (`Frames.run_ok`). -/
namespace Cabinet

/-! ### One frame -/

/-- Neither half has cost more than an instruction can pass the budget by. -/
structure FrameReport.Within (budget : Nat) (r : FrameReport) : Prop where
  first : r.first.toNat ≤ budget + 17
  second : r.second.toNat ≤ budget + 17

theorem FrameReport.total_of_within {budget : Nat} {r : FrameReport} (h : r.Within budget)
    (small : budget ≤ 2 ^ 31 - 18) : r.total = .ok (r.first + r.second) := by
  have := h.first
  have := h.second
  exact if_pos (show _ < 4294967296 by omega)

namespace Machine
variable {m m' : Machine}

theorem Framed.within {is js : List Instruction} {middle last : System Board} {f : Frame}
    (h : m.Framed is middle js last f) : f.report.Within m.halfFrameCycles.toNat where
  first := h.first ▸ h.firstHalf.cyclesOf_le
  second := h.second ▸ h.secondHalf.cyclesOf_le

theorem runFrame_within {f : Frame} (ran : m.runFrame = .ok f) :
    f.report.Within m.halfFrameCycles.toNat := by
  rcases m.runFrame_cases with ⟨failed, _⟩ | ⟨failed, _⟩ | ⟨_, _, _, _, g, done, framed⟩
  · rw [failed] at ran
    cases ran
  · rw [failed] at ran
    cases ran
  · rw [done] at ran
    cases ran
    exact framed.within

theorem operate_frame_ok :
    m.operate .frame = .ok m' ↔ ∃ f, m.runFrame = .ok f ∧ f.machine = m' := by
  rw [operate]
  exact map_eq_ok

/-- No operation moves the budget. -/
theorem operate_halfFrameCycles {op : Operation} (ran : m.operate op = .ok m') :
    m'.halfFrameCycles = m.halfFrameCycles := by
  rcases m.operate_cases op with ⟨failed, _⟩ | ⟨failed, _⟩ | ⟨_, _, done, serves⟩
  · rw [failed] at ran
    cases ran
  · rw [failed] at ran
    cases ran
  · rw [done] at ran
    cases ran
    exact serves.halfFrameCycles

theorem run_halfFrameCycles {ops : List Operation} (ran : m.run ops = .ok m') :
    m'.halfFrameCycles = m.halfFrameCycles := by
  induction ops generalizing m with
  | nil =>
    cases ran
    rfl
  | cons op ops ih =>
    obtain ⟨m₁, first, rest⟩ := run_cons_ok.mp ran
    exact (ih rest).trans (operate_halfFrameCycles first)

/-! ### Many -/

/-- A machine as it comes up runs all that is done with it, unless its budget lies within
eighteen of the counter's end or there are 2^64 frames. -/
theorem fresh_runs (roms : RomSet) {config : Config} {ops : List Operation}
    (small : config.halfFrameCycles.toNat ≤ UInt32.size - 18)
    (few : ops.count .frame < UInt64.size) : ∃ m, (fresh roms config).run ops = .ok m := by
  rcases (fresh roms config).run_cases ops with ⟨_, large⟩ | ⟨_, full⟩ | ⟨_, m, ran, _⟩
  · exact absurd large (Nat.not_lt.mpr small)
  · have none_yet : (fresh roms config).frames.toNat = 0 := rfl
    omega
  · exact ⟨m, ran⟩

theorem Frames.run_add (n k : Nat) (f : Frames) :
    Frames.run (n + k) f = (do let f ← Frames.run n f; Frames.run k f) := by
  induction n generalizing f with
  | zero =>
    rw [Nat.zero_add]
    rfl
  | succ n ih =>
    rw [Nat.succ_add, Frames.run, Frames.run]
    cases f.next with
    | error fault => rfl
    | ok g => exact ih g

/-- Frames as operations, one by one, or all together with their reports. -/
theorem Frames.run_replicate (n : Nat) (f : Frames) :
    f.machine.run (.replicate n .frame) = (·.machine) <$> Frames.run n f := by
  induction n generalizing f with
  | zero => rfl
  | succ n ih =>
    rw [List.replicate_succ, Machine.run, Frames.run, Frames.next]
    show ((·.machine) <$> f.machine.runFrame >>= _) = _
    cases f.machine.runFrame with
    | error fault => rfl
    | ok frame =>
      exact ih {
        machine := frame.machine
        reports := frame.report :: f.reports
        notices := frame.notices.reverse ++ f.notices }

theorem run_replicate_frame_ok {n : Nat} :
    m.run (.replicate n .frame) = .ok m' ↔ ∃ f, m.runFrames n = .ok f ∧ f.machine = m' := by
  rw [Frames.run_replicate n { machine := m }]
  exact map_eq_ok

theorem Frames.run_ok {f : Frames} {n : Nat} (ran : f.machine.run (.replicate n .frame) = .ok m) :
    ∃ g, Frames.run n f = .ok g ∧ g.machine = m ∧
      g.reports.length = f.reports.length + n ∧
      ∀ r ∈ g.reports, r ∈ f.reports ∨ r.Within f.machine.halfFrameCycles.toNat := by
  induction n generalizing f with
  | zero =>
    cases ran
    exact ⟨f, rfl, rfl, rfl, fun _ => .inl⟩
  | succ n ih =>
    obtain ⟨m₁, first, rest⟩ := run_cons_ok.mp ran
    obtain ⟨frame, done, rfl⟩ := operate_frame_ok.mp first
    let next : Frames :=
      { machine := frame.machine
        reports := frame.report :: f.reports
        notices := frame.notices.reverse ++ f.notices }
    have step : f.next = .ok next := by
      rw [Frames.next, done]
      rfl
    obtain ⟨g, through, machine, length, reports⟩ := ih (f := next) rest
    rw [operate_halfFrameCycles first] at reports
    refine ⟨g, ?_, machine, ?_, fun r hr => ?_⟩
    · rw [Frames.run, step]
      exact through
    · rw [length, List.length_cons]
      omega
    · rcases reports r hr with new | within
      · rcases List.mem_cons.mp new with rfl | old
        · exact .inr (runFrame_within done)
        · exact .inl old
      · exact .inr within

/-- One frame's cycles more, if there is room for as many as a frame can have. -/
theorem addCycles_ok {budget : Nat} {r : FrameReport} (within : r.Within budget)
    (small : budget ≤ 2 ^ 31 - 18) {sum : UInt64} (room : sum.toNat + 2 * (budget + 17) < 2 ^ 64) :
    ∃ next : UInt64, (do Counter.add64 .runCycles sum (← r.total).toUInt64) = .ok next ∧
      next.toNat ≤ sum.toNat + 2 * (budget + 17) := by
  have total := r.total_of_within within small
  have cost : (r.first + r.second).toUInt64.toNat ≤ 2 * (budget + 17) := by
    have := within.first
    have := within.second
    rw [UInt32.toNat_toUInt64, Counter.add32_eq_ok_iff.mp total]
    omega
  have fits : sum.toNat + (r.first + r.second).toUInt64.toNat < UInt64.size :=
    Nat.lt_of_le_of_lt (Nat.add_le_add_left cost _) room
  rw [total]
  refine ⟨sum + (r.first + r.second).toUInt64, if_pos fits, ?_⟩
  rw [UInt64.toNat_add, Nat.mod_eq_of_lt fits]
  exact Nat.add_le_add_left cost _

/-- The cycles of so many frames fit their counter as have room for the most each can have. -/
theorem totalCycles_ok {budget : Nat} {reports : List FrameReport}
    (within : ∀ r ∈ reports, r.Within budget) (small : budget ≤ 2 ^ 31 - 18)
    (room : reports.length * (2 * (budget + 17)) < 2 ^ 64) :
    ∃ cycles, totalCycles reports = .ok cycles := by
  have start : (0 : UInt64).toNat + reports.length * (2 * (budget + 17)) < 2 ^ 64 := by
    rwa [UInt64.toNat_zero, Nat.zero_add]
  unfold totalCycles
  generalize (0 : UInt64) = sum at start
  induction reports generalizing sum with
  | nil => exact ⟨sum, rfl⟩
  | cons r rest ih =>
    rw [List.length_cons, Nat.succ_mul] at start room
    have here : sum.toNat + 2 * (budget + 17) < 2 ^ 64 := by omega
    obtain ⟨next, added, bound⟩ := addCycles_ok (within r List.mem_cons_self) small here
    rw [List.foldlM_cons, added]
    exact ih (fun r hr => within r (List.mem_cons_of_mem _ hr)) (by omega) next (by omega)

end Machine
end Cabinet

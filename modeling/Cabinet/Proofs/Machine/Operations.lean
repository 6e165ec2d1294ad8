import Cabinet.Machine.Frame
import Cabinet.Proofs.Rom.Install
import Cabinet.Proofs.System.HalfFrame

/-! Machines and what is done with them.

A machine is built, whatever its images, and from then on it is stepped, run for a frame,
has its buttons moved or is reset. Only a frame can fail, and only by a counter that
overflows: of cycles, if the budget lies within eighteen of the counter's end, or of
frames, at 2^64 of them. A frame that does not fail is two halves and an interrupt after
each. -/
namespace Cabinet

/-- What is done with a machine from outside. -/
inductive Operation where
  | step
  | frame
  | button (b : Button) (down : Bool)
  | reset
  deriving Repr, DecidableEq

namespace Machine

/-! ### Construction -/

/-- The machine as it comes up. -/
def fresh (roms : RomSet) (config : Config) : Machine where
  system := { cpu := {}, memory := roms.installed .blank, device := .new config.switches }
  frames := 0
  halfFrameCycles := config.halfFrameCycles

theorem fresh_memory (roms : RomSet) (config : Config) :
    (fresh roms config).memory = roms.installed .blank :=
  rfl

theorem new_eq (roms : RomSet) (config : Config) : new roms config = .ok (fresh roms config) := by
  unfold new
  rw [RomSet.install_eq]
  rfl

/-! ### Operations -/

def operate (m : Machine) : Operation → Except Fault Machine
  | .step => .ok (m.steps 1).2
  | .frame => (·.machine) <$> m.runFrame
  | .button b down => .ok (m.setButton b down)
  | .reset => .ok m.reset

/-- One operation after the other, up to the first that fails. -/
def run (m : Machine) : List Operation → Except Fault Machine
  | [] => .ok m
  | op :: ops => do
    let m ← m.operate op
    run m ops

theorem run_append (m : Machine) (ops ops' : List Operation) :
    m.run (ops ++ ops') = (do let m ← m.run ops; m.run ops') := by
  induction ops generalizing m with
  | nil => rfl
  | cons op ops ih =>
    rw [List.cons_append, run, run]
    cases m.operate op with
    | error fault => rfl
    | ok m' => exact ih m'

/-- A run that is through was through with its first part. -/
theorem run_append_ok {m m' : Machine} {ops ops' : List Operation} :
    m.run (ops ++ ops') = .ok m' ↔ ∃ m₁, m.run ops = .ok m₁ ∧ m₁.run ops' = .ok m' := by
  rw [run_append]
  exact bind_eq_ok

theorem run_singleton (m : Machine) (op : Operation) : m.run [op] = m.operate op := by
  rw [run]
  cases m.operate op <;> rfl

theorem run_cons_ok {m m' : Machine} {op : Operation} {ops : List Operation} :
    m.run (op :: ops) = .ok m' ↔ ∃ m₁, m.operate op = .ok m₁ ∧ m₁.run ops = .ok m' :=
  bind_eq_ok

/-! ### Frames -/

/-- What a frame is made of: the instructions of its two halves, and the systems these led
to. The interrupts come in between and at the end. -/
structure Framed (m : Machine) (is : List Instruction) (middle : System Board)
    (js : List Instruction) (last : System Board) (f : Frame) : Prop where
  firstHalf : System.Halves Board.device m.halfFrameCycles.toNat 0 m.system is middle
  secondHalf :
    System.Halves Board.device m.halfFrameCycles.toNat 0 (middle.interrupt midScreenVector) js last
  first : f.report.first.toNat = Instruction.cyclesOf is
  second : f.report.second.toNat = Instruction.cyclesOf js
  counted : m.frames.toNat + 1 < UInt64.size
  machine : f.machine =
    { m with system := last.interrupt endOfScreenVector, frames := m.frames + 1 }

/-- One frame more, if there is room for its number. -/
theorem count_cases (n : UInt64) :
    (Counter.add64 .frameCount n 1 = .error .frameCount ∧ n.toNat + 1 = UInt64.size) ∨
      (Counter.add64 .frameCount n 1 = .ok (n + 1) ∧ n.toNat + 1 < UInt64.size) := by
  have := n.toNat_lt_size
  rcases Nat.lt_or_ge (n.toNat + 1) (UInt64.size) with room | full
  · exact .inr ⟨if_pos room, room⟩
  · exact .inl ⟨if_neg (Nat.not_lt.mpr full), by omega⟩

/-- A frame overflows one of the two counters, or runs through. -/
theorem runFrame_cases (m : Machine) :
    (m.runFrame = .error .halfFrameCycles ∧ UInt32.size - 18 < m.halfFrameCycles.toNat) ∨
      (m.runFrame = .error .frameCount ∧ m.frames.toNat + 1 = UInt64.size) ∨
      ∃ is middle js last f, m.runFrame = .ok f ∧ m.Framed is middle js last f := by
  rcases System.runHalf_cases Board.device m.halfFrameCycles 0 m.system with
    ⟨overflow, large⟩ | ⟨is, first, middle, ran, firstCost, firstHalf⟩
  · refine .inl ⟨?_, large⟩
    simp only [runFrame, runHalf, overflow]
    rfl
  rcases System.runHalf_cases Board.device m.halfFrameCycles 0 (middle.interrupt midScreenVector)
    with ⟨overflow, large⟩ | ⟨js, second, last, ran', secondCost, secondHalf⟩
  · refine .inl ⟨?_, large⟩
    simp only [runFrame, runHalf, ran, overflow, bind, Except.bind]
  rcases count_cases m.frames with ⟨overflow, full⟩ | ⟨count, room⟩
  · refine .inr (.inl ⟨?_, full⟩)
    simp only [runFrame, runHalf, ran, ran', overflow, bind, Except.bind]
  have done : ∃ f, m.runFrame = .ok f ∧ f.report = ⟨first, second⟩ ∧
      f.machine = { m with system := last.interrupt endOfScreenVector, frames := m.frames + 1 } := by
    simp only [runFrame, runHalf, ran, ran', count, bind, Except.bind]
    exact ⟨_, rfl, rfl, rfl⟩
  obtain ⟨f, frame, report, machine⟩ := done
  exact .inr (.inr ⟨is, middle, js, last, f, frame, {
    firstHalf := firstHalf
    secondHalf := secondHalf
    first := by rw [report, firstCost, UInt32.toNat_zero, Nat.zero_add]
    second := by rw [report, secondCost, UInt32.toNat_zero, Nat.zero_add]
    counted := room
    machine := machine }⟩)

end Machine
end Cabinet

import Cabinet.Proofs.Machine.Reset
import Mathlib.Algebra.Group.Nat.Defs

/-! What begins a halt, what ends it, and what goes on during it.

A processor is halted by HLT and by nothing else, and runs again only behind an interrupt it
accepts or a reset (`Happens.turns`). With interrupts disabled there is none to accept, so a
machine that is halted then sleeps: its steps and frames cost nothing, and short of a reset
they leave all but the count of frames and the buttons as it was (`Asleep.run`). With
interrupts enabled a frame has nothing to do in its first half and wakes the machine in its
middle (`runFrame_waking`). -/
namespace Cabinet

/-! ### Beginning and end -/

namespace Occurrence

/-- How an occurrence sets the halt, if it does. -/
def halt : Occurrence → Option Bool
  | .executed i => if i = .hlt then some true else none
  | .accepted _ | .reset => some false
  | _ => none

theorem halt_executed (i : Instruction) :
    (executed i).halt = if i = .hlt then some true else none := rfl

theorem halt_eq_true_iff {e : Occurrence} : e.halt = some true ↔ e = .executed .hlt := by
  cases e with
  | executed i =>
    rw [halt_executed, executed.injEq]
    by_cases hlt : i = .hlt <;> simp [hlt]
  | _ => exact ⟨nofun, nofun⟩

theorem halt_eq_false_iff {e : Occurrence} :
    e.halt = some false ↔ e = .reset ∨ ∃ v, e = .accepted v := by
  cases e with
  | executed i =>
    rw [halt_executed]
    by_cases hlt : i = .hlt <;> simp [hlt]
  | accepted v => exact iff_of_true rfl (.inr ⟨v, rfl⟩)
  | reset => exact iff_of_true rfl (.inl rfl)
  | refused _ | counted | pressed _ _ => exact iff_of_false nofun (by simp)

end Occurrence

namespace Machine
variable {m m' : Machine} {e : Occurrence} {op : Operation} {ops : List Operation}

/-- What an occurrence is to do to a halt: HLT alone begins one, and only a reset or an
interrupt that is accepted ends it. -/
structure Turns (e : Occurrence) (m m' : Machine) : Prop where
  begins : m.system.cpu.halted = false → (m'.system.cpu.halted = true ↔ e = .executed .hlt)
  ends : m.system.cpu.halted = true →
    (m'.system.cpu.halted = false ↔ e = .reset ∨ ∃ v, e = .accepted v)

/-- One occurrence sets the halt as it says, or leaves it. -/
theorem Happens.halted (h : Happens m e m') :
    m'.system.cpu.halted = e.halt.getD m.system.cpu.halted := by
  cases h with
  | @executed i fetches =>
    show (m.system.step Board.device).2.cpu.halted = _
    rw [System.step_of_fetches _ fetches]
    show (m.system.execute Board.device i).cpu.halted = _
    rw [System.execute_halted, Occurrence.halt_executed]
    split <;> rfl
  | accepted accepts => exact congrArg Processor.halted accepts.cpu
  | _ => rfl

theorem Happens.turns (h : Happens m e m') : Turns e m m' where
  begins := by
    intro running
    rw [h.halted, running, ← Occurrence.halt_eq_true_iff]
    cases e.halt <;> simp
  ends := by
    intro halted
    rw [h.halted, halted, ← Occurrence.halt_eq_false_iff]
    cases e.halt <;> simp

/-! ### A frame of a halted machine -/

/-- The first half is over before it has begun. -/
theorem runFrame_of_halted (halted : m.system.cpu.halted = true) :
    m.runFrame = (do
      let (second, last) ← m.runHalf (m.system.interrupt midScreenVector)
      let frames ← Counter.add64 .frameCount m.frames 1
      let system := last.interrupt endOfScreenVector
      return {
        report := ⟨0, second⟩
        notices := m.system.interruptNotices midScreenVector ++
          last.interruptNotices endOfScreenVector ++ [.frameDone frames 0 second system.cpu.pc]
        machine := { m with system := system, frames := frames } }) := by
  have first : m.runHalf m.system = .ok (0, m.system) := System.runHalf_of_halted _ 0 halted
  rw [runFrame, first]
  rfl

/-- A half that comes to its end makes a frame, if there is room for its number. -/
theorem runFrame_of_half {second : UInt32} {last : System Board}
    (halted : m.system.cpu.halted = true)
    (half : m.runHalf (m.system.interrupt midScreenVector) = .ok (second, last)) :
    (m.runFrame = .error .frameCount ∧ m.frames.toNat + 1 = UInt64.size) ∨
      ∃ f, m.runFrame = .ok f ∧ f.report = ⟨0, second⟩ ∧
        f.machine = { m with system := last.interrupt endOfScreenVector, frames := m.frames + 1 } := by
  rw [runFrame_of_halted halted, half]
  rcases count_cases m.frames with ⟨overflow, full⟩ | ⟨count, _⟩
  · exact .inl ⟨by rw [overflow]; rfl, full⟩
  · rw [count]
    exact .inr ⟨_, rfl, rfl, rfl⟩

/-! ### Sleep -/

/-- Halted, with interrupts disabled. -/
structure Asleep (m : Machine) : Prop where
  halted : m.system.cpu.halted = true
  disabled : m.system.cpu.interruptsEnabled = false

/-- The answer of an operation that costs nothing. -/
def Answer.idle : Operation → Answer
  | .step => .cycles 0
  | .frame => .report ⟨0, 0⟩
  | _ => .done

/-- The machine with another port 1 and another count of frames. -/
def altered (m : Machine) (port1 : UInt8) (frames : UInt64) : Machine :=
  { m with system := { m.system with device := { m.board with port1 := port1 } }, frames := frames }

/-- What these operations are to leave of a machine that sleeps: its frames are counted, its
buttons are moved, and all else is as it was. -/
structure Slept (ops : List Operation) (m m' : Machine) : Prop where
  cpu : m'.system.cpu = m.system.cpu
  memory : m'.memory = m.memory
  shifter : m'.board.shifter = m.board.shifter
  checksum : Checksum.ofBlock m'.videoRam = Checksum.ofBlock m.videoRam
  frames : m'.frames.toNat = m.frames.toNat + ops.count .frame
  others : m' = m.altered m'.board.port1 m'.frames

theorem slept_altered {port1 : UInt8} {frames : UInt64}
    (counted : frames.toNat = m.frames.toNat + ops.count .frame) :
    Slept ops m (m.altered port1 frames) where
  cpu := rfl
  memory := rfl
  shifter := rfl
  checksum := rfl
  frames := counted
  others := rfl

theorem Slept.asleep (h : Slept ops m m') (asleep : m.Asleep) : m'.Asleep where
  halted := h.cpu ▸ asleep.halted
  disabled := h.cpu ▸ asleep.disabled

theorem Slept.cons {m'' : Machine} (first : Slept [op] m m') (rest : Slept ops m' m'') :
    Slept (op :: ops) m m'' := by
  have alike : m'' = m.altered m''.board.port1 m''.frames := by
    rw [rest.others, first.others]
    rfl
  rw [alike]
  refine slept_altered ?_
  have := first.frames
  have := rest.frames
  rw [List.count_cons]
  rw [List.count_singleton] at *
  omega

/-- An interrupt does not reach a machine that sleeps. -/
theorem Asleep.interrupt (h : m.Asleep) (v : UInt8) : m.system.interrupt v = m.system :=
  System.interrupt_of_disabled h.disabled v

theorem Asleep.runFrame (h : m.Asleep) (room : m.frames.toNat + 1 < UInt64.size) :
    ∃ f, m.runFrame = .ok f ∧ f.report = ⟨0, 0⟩ ∧
      f.machine = { m with frames := m.frames + 1 } := by
  have half : m.runHalf (m.system.interrupt midScreenVector) = .ok (0, m.system) := by
    rw [h.interrupt]
    exact System.runHalf_of_halted _ 0 h.halted
  rcases runFrame_of_half h.halted half with ⟨_, full⟩ | ⟨f, ran, report, machine⟩
  · omega
  · rw [h.interrupt] at machine
    exact ⟨f, ran, report, machine⟩

/-- No operation but a reset disturbs it. -/
theorem Asleep.see (h : m.Asleep) (kept : op ≠ .reset)
    (room : m.frames.toNat + [op].count .frame < UInt64.size) :
    ∃ m', m.see op = .ok ((Answer.idle op).by m') ∧ Slept [op] m m' := by
  cases op with
  | step =>
    refine ⟨m, ?_, slept_altered rfl⟩
    rw [Machine.see, System.step_of_halted _ h.halted]
    rfl
  | frame =>
    obtain ⟨f, ran, report, machine⟩ := h.runFrame room
    refine ⟨{ m with frames := m.frames + 1 }, ?_, slept_altered ?_⟩
    · rw [Machine.see, ran, ← machine]
      show Except.ok (Answer.by (.report f.report) f.machine) = _
      rw [report]
      rfl
    · rw [UInt64.toNat_add]
      exact Nat.mod_eq_of_lt room
  | button b down => exact ⟨m.setButton b down, rfl, slept_altered rfl⟩
  | reset => exact absurd rfl kept

/-- It sleeps through any number of them. -/
theorem Asleep.run (h : m.Asleep) (kept : .reset ∉ ops)
    (room : m.frames.toNat + ops.count .frame < UInt64.size) :
    ∃ m', m.run ops = .ok m' ∧ Slept ops m m' ∧
      (m.watch ops).map ((·.answer) <$> ·) = ops.map fun op => .ok (.idle op) := by
  induction ops generalizing m with
  | nil => exact ⟨m, rfl, slept_altered rfl, rfl⟩
  | cons op ops ih =>
    have split : (op :: ops).count .frame = [op].count .frame + ops.count .frame := by
      rw [← List.count_append]
      rfl
    obtain ⟨m₁, seen, first⟩ := h.see (fun e => kept (e ▸ List.mem_cons_self)) (by omega)
    obtain ⟨m', ran, rest, answers⟩ := ih (first.asleep h)
      (fun inside => kept (List.mem_cons_of_mem _ inside)) (by have := first.frames; omega)
    have done : m.operate op = .ok m₁ := by
      rw [← machine_see, seen]
      rfl
    refine ⟨m', run_cons_ok.mpr ⟨m₁, done, ran⟩, first.cons rest, ?_⟩
    rw [watch, seen]
    exact congrArg (_ :: ·) answers

/-! ### Waking -/

/-- What is to become of a machine that is woken from a halt: it is at the vector for the
middle of the screen, with the address it was halted at on its stack. -/
structure Wakes (m : Machine) (woken : System Board) : Prop where
  accepts : System.Accepts midScreenVector m.system woken
  pc : woken.cpu.pc = 0x0008
  sp : woken.cpu.sp = m.system.cpu.sp - 2
  back : woken.memory.readWord (m.system.cpu.sp - 2) = m.system.cpu.pc

theorem wakes (enabled : m.system.cpu.interruptsEnabled = true) :
    Wakes m (m.system.interrupt midScreenVector) := by
  have accepts := System.accepts_interrupt enabled (v := midScreenVector) (by decide)
  exact {
    accepts := accepts
    pc := congrArg Processor.pc accepts.cpu
    sp := congrArg Processor.sp accepts.cpu
    back := by
      rw [System.interrupt_of_enabled enabled]
      exact Memory.readWord_writeWord .. }

/-- What a frame is to be that wakes a machine: nothing in its first half, and its second half
from where the interrupt has led. Only its counters can stop it. -/
inductive Waking (m : Machine) (woken : System Board) : Prop
  | overflow (half : m.runHalf woken = .error .halfFrameCycles)
      (frame : m.runFrame = .error .halfFrameCycles)
      (large : UInt32.size - 18 < m.halfFrameCycles.toNat)
  | full (frame : m.runFrame = .error .frameCount) (last : m.frames.toNat + 1 = UInt64.size)
  | ran (second : UInt32) (last : System Board) (f : Frame)
      (half : m.runHalf woken = .ok (second, last)) (frame : m.runFrame = .ok f)
      (report : f.report = ⟨0, second⟩)
      (machine : f.machine =
        { m with system := last.interrupt endOfScreenVector, frames := m.frames + 1 })

theorem runFrame_waking (halted : m.system.cpu.halted = true) :
    Waking m (m.system.interrupt midScreenVector) := by
  rcases System.runHalf_cases Board.device m.halfFrameCycles 0 (m.system.interrupt midScreenVector)
    with ⟨overflow, large⟩ | ⟨_, second, last, ran, _, _⟩
  · refine .overflow overflow ?_ large
    rw [runFrame_of_halted halted, runHalf, overflow]
    rfl
  · rcases runFrame_of_half halted ran with ⟨frame, full⟩ | ⟨f, frame, report, machine⟩
    · exact .full frame full
    · exact .ran second last f ran frame report machine

/-- **A halt lasts until an interrupt or a reset**, whatever state the machine is in. In a run
of it no other occurrence ends a halt, and none but HLT begins one. With interrupts disabled,
steps, frames and buttons in any number, as long as the count of frames has room for them, find
nothing to do, and leave the machine as it was but for that count and the buttons. With
interrupts enabled, the first half of a frame costs nothing, its interrupt is taken with the
address of the halt on the stack, and the second half runs from the vector on. -/
theorem halted_until_woken (m : Machine) :
    (∀ ops m', m.run ops = .ok m' →
      ∃ es, Served m ops es m' ∧ ∀ before e after, es = before ++ e :: after →
        ∃ a b, Runs m before a ∧ Happens a e b ∧ Runs b after m' ∧ Turns e a b) ∧
      (m.Asleep → ∀ ops, .reset ∉ ops → m.frames.toNat + ops.count .frame < 2 ^ 64 →
        ∃ m', m.run ops = .ok m' ∧ Slept ops m m' ∧
          (m.watch ops).map ((·.answer) <$> ·) = ops.map fun op => .ok (.idle op)) ∧
      (m.system.cpu.halted = true → m.system.cpu.interruptsEnabled = true →
        ∃ woken, Wakes m woken ∧ Waking m woken) := by
  refine ⟨fun ops m' ran => ?_, fun asleep ops kept room => asleep.run kept room,
    fun halted enabled => ⟨_, wakes enabled, runFrame_waking halted⟩⟩
  rcases m.run_cases ops with ⟨failed, _⟩ | ⟨failed, _⟩ | ⟨es, _, done, served⟩
  · rw [failed] at ran
    cases ran
  · rw [failed] at ran
    cases ran
  · rw [done] at ran
    cases ran
    refine ⟨es, served, fun before e after split => ?_⟩
    have runs := served.runs
    rw [split] at runs
    obtain ⟨a, front, back⟩ := runs.split
    cases back with
    | cons happens rest => exact ⟨a, _, front, happens, rest, happens.turns⟩

/-- A machine that is put to sleep by its program, through frames and a coin, until a reset; and
the same one when it may be woken, to halt again at once. -/
theorem halted_until_woken_again :
    let cpu : Processor := { pc := 0x1234, sp := 0x2400, halted := true, interruptsEnabled := false }
    let system : System Board :=
      { cpu := cpu, memory := Memory.blank.write 0x0008 0x76, device := .new {} }
    let asleep : Machine := { system := system, frames := 41, halfFrameCycles := 16667 }
    let waiting : Machine :=
      { asleep with system := { system with cpu := { cpu with interruptsEnabled := true } } }
    let ops : List Operation := [.step, .frame, .button .coin true, .frame]
    (asleep.Asleep ∧ .reset ∉ ops ∧ asleep.frames.toNat + ops.count .frame < 2 ^ 64 ∧
        ∃ m', asleep.run ops = .ok m' ∧ m'.frames.toNat = 43 ∧ m'.system.cpu = cpu ∧
          (asleep.watch ops).map ((·.answer) <$> ·) =
            [.ok (.cycles 0), .ok (.report ⟨0, 0⟩), .ok .done, .ok (.report ⟨0, 0⟩)]) ∧
      (asleep.run [.reset] = .ok asleep.reset ∧ Turns .reset asleep asleep.reset) ∧
      waiting.system.cpu.halted = true ∧ waiting.system.cpu.interruptsEnabled = true ∧
        ∃ f, waiting.runFrame = .ok f ∧ f.report = ⟨0, 7⟩ ∧ f.machine.system.cpu.pc = 0x0009 := by
  intro cpu system asleep waiting ops
  obtain ⟨turns, sleeps, _⟩ := halted_until_woken asleep
  obtain ⟨_, _, wakes⟩ := halted_until_woken waiting
  have sleeping : asleep.Asleep := ⟨rfl, rfl⟩
  have kept : Operation.reset ∉ ops := by decide
  have room : asleep.frames.toNat + ops.count .frame < 2 ^ 64 := show 43 < 2 ^ 64 by decide
  refine ⟨⟨sleeping, kept, room, ?_⟩, ⟨rfl, ?_⟩, rfl, rfl, ?_⟩
  · obtain ⟨m', ran, slept, answers⟩ := sleeps sleeping ops kept room
    exact ⟨m', ran, slept.frames, slept.cpu, answers⟩
  · obtain ⟨es, served, happen⟩ := turns [.reset] asleep.reset rfl
    cases served with
    | cons first rest =>
      cases first
      cases rest
      obtain ⟨a, b, front, happens, back, turned⟩ := happen [] .reset [] rfl
      cases front
      cases back
      exact turned
  · obtain ⟨woken, awake, waking⟩ := wakes rfl rfl
    have running : woken.cpu.halted = false := congrArg Processor.halted awake.accepts.cpu
    have code : woken.memory.read woken.cpu.pc = 0x76 := by
      have apart : ∀ hi lo v, ((0x0008 : UInt16), v) ∉ waiting.system.pushed hi lo := by
        intro hi lo v inside
        have cell : (0x0008 : UInt16) = 0x2400 - 2 ∨ (0x0008 : UInt16) = 0x2400 - 1 :=
          Memory.cell_of_mem inside
        exact absurd cell (by decide)
      rw [awake.pc, awake.accepts.memory.kept 0x0008 (apart _ _)]
      show (Memory.blank.write 0x0008 0x76).read 0x0008 = 0x76
      rw [Memory.read_write, if_pos rfl]
    have fetches : woken.Fetches .hlt := System.fetches_of_read (v := 0x76) running code
    have half : waiting.runHalf woken = .ok (7, woken.execute Board.device .hlt) := by
      have left : (0 : UInt32) < waiting.halfFrameCycles := by decide
      rw [runHalf, System.runHalf_of_fetches fetches left, System.step_of_fetches _ fetches]
      exact System.runHalf_of_halted _ 7 rfl
    cases waking with
    | overflow failed _ _ =>
      rw [half] at failed
      cases failed
    | full _ last =>
      have few : waiting.frames.toNat + 1 < UInt64.size := by decide
      exact absurd last (Nat.ne_of_lt few)
    | ran second last f ran frame report machine =>
      rw [half] at ran
      obtain ⟨rfl, rfl⟩ := Prod.mk.inj (Except.ok.inj ran)
      have disabled : (woken.execute Board.device .hlt).cpu.interruptsEnabled = false :=
        congrArg Processor.interruptsEnabled awake.accepts.cpu
      refine ⟨f, frame, report, ?_⟩
      rw [machine, System.interrupt_of_disabled disabled]
      show woken.cpu.pc + 1 = 0x0009
      rw [awake.pc]
      rfl

end Machine
end Cabinet

import Cabinet.Checksum
import Cabinet.Proofs.Machine.Frames

/-! Where the inputs get in.

Buttons and switches reach the program through two ports. A machine that is given the inputs
of another board does the same, step by step, as long as no instruction reads one of these
(`step_withInputsOf`): the inputs can be put in before a half, a frame or any number of frames
as well as after them. So two machines that differ in their inputs alone cannot be told apart
by frames that do not look at them, and it makes no difference on which side of such frames a
button is moved (`frames_blind`). -/
namespace Cabinet

/-! ### Other inputs -/

/-- The same board with the buttons and the switches of another. -/
def Board.withInputsOf (b inputs : Board) : Board :=
  { inputs with shifter := b.shifter }

def System.withInputsOf (s : System Board) (inputs : Board) : System Board :=
  { s with device := s.device.withInputsOf inputs }

namespace Board
variable (b inputs : Board)

/-- Only two ports show the inputs. -/
theorem input_withInputsOf {port : UInt8} (h : ¬(port = 1 ∨ port = 2)) :
    (b.withInputsOf inputs).input port = b.input port := by
  rw [not_or] at h
  simp only [input, h.1, h.2, if_false]
  rfl

theorem output_withInputsOf (port v : UInt8) :
    (b.withInputsOf inputs).output port v = (b.output port v).withInputsOf inputs := by
  simp only [output]
  split
  · rfl
  · split <;> rfl

end Board

namespace System
variable {s t : System Board} {i : Instruction} {inputs : Board} {budget spent : Nat}

/-! ### A step -/

/-- The instruction at the program counter reads the buttons or the switches. -/
def Looks (s : System Board) : Prop :=
  s.Fetches .input ∧ (s.immediate = 1 ∨ s.immediate = 2)

theorem fetches_withInputsOf : (s.withInputsOf inputs).Fetches i ↔ s.Fetches i :=
  ⟨fun h => ⟨h.running, h.opcode⟩, fun h => ⟨h.running, h.opcode⟩⟩

theorem looks_withInputsOf : (s.withInputsOf inputs).Looks ↔ s.Looks :=
  and_congr_left fun _ => fetches_withInputsOf

/-- Apart from reading them, no instruction can tell one board's inputs from another's. -/
theorem perform_withInputsOf {byte : UInt8} (word : UInt16) (s : System Board) (inputs : Board)
    (h : ¬(i = .input ∧ (byte = 1 ∨ byte = 2))) :
    perform Board.device byte word (s.withInputsOf inputs) i =
      (perform Board.device byte word s i).withInputsOf inputs := by
  cases i with
  | input =>
    have same := s.device.input_withInputsOf inputs fun reads => h ⟨rfl, reads⟩
    exact congrArg
      (fun v => { ({ s with cpu := { s.cpu with a := v } } : System Board) with
        device := s.device.withInputsOf inputs }) same
  | output =>
    exact congrArg (fun d => ({ s with device := d } : System Board))
      (s.device.output_withInputsOf inputs byte s.cpu.a)
  | mov dst src => cases dst <;> cases src <;> rfl
  | mvi dst | inr dst | dcr dst => cases dst <;> rfl
  | alu op src => cases src <;> rfl
  | jcc cond | ccc cond | rcc cond =>
    simp only [perform, apply_ite (withInputsOf · inputs)]
    rfl
  | _ => rfl

theorem step_withInputsOf (s : System Board) (inputs : Board) (h : ¬s.Looks) :
    (s.withInputsOf inputs).step Board.device =
      ((s.step Board.device).1, (s.step Board.device).2.withInputsOf inputs) := by
  rcases s.halted_or_fetches with halted | ⟨i, fetches⟩
  · rw [step_of_halted (s := s.withInputsOf inputs) _ halted, step_of_halted _ halted]
  · rw [step_of_fetches _ (fetches_withInputsOf.mpr fetches), step_of_fetches _ fetches,
      execute_eq, execute_eq]
    refine congrArg (i.cycles, ·) (perform_withInputsOf _ (s.jump _) inputs ?_)
    rintro ⟨rfl, reads⟩
    exact h ⟨fetches, reads⟩

theorem interrupt_withInputsOf (s : System Board) (inputs : Board) (vector : UInt8) :
    (s.withInputsOf inputs).interrupt vector = (s.interrupt vector).withInputsOf inputs := by
  cases enabled : s.cpu.interruptsEnabled with
  | true =>
    rw [interrupt_of_enabled enabled, interrupt_of_enabled (s := s.withInputsOf inputs) enabled]
    rfl
  | false =>
    rw [interrupt_of_disabled enabled, interrupt_of_disabled (s := s.withInputsOf inputs) enabled]

/-! ### Half a frame -/

/-- No instruction that half a frame executes from here reads the buttons or the switches:
none that begins before the budget is spent. -/
def Blind (budget spent : Nat) (s : System Board) : Prop :=
  ∀ is t, Executes Board.device s is t → spent + Instruction.cyclesOf is < budget → ¬t.Looks

theorem Blind.here (h : Blind budget spent s) (left : spent < budget) : ¬s.Looks :=
  h [] s .nil left

theorem Blind.step (h : Blind budget spent s) (fetches : s.Fetches i) :
    Blind budget (spent + i.cycles.toNat) (s.step Board.device).2 := by
  intro is t executes within
  refine h (i :: is) t (.cons fetches executes) ?_
  rwa [Instruction.cyclesOf_cons, ← Nat.add_assoc]

theorem blind_of_spent (h : budget ≤ spent) (s : System Board) : Blind budget spent s :=
  fun _ _ _ within => absurd within (by omega)

theorem blind_of_step (here : ¬s.Looks)
    (rest : ∀ i, s.Fetches i → Blind budget (spent + i.cycles.toNat) (s.step Board.device).2) :
    Blind budget spent s := by
  rintro (_ | ⟨i, is⟩) t executes within
  · cases executes
    exact here
  · rw [Instruction.cyclesOf_cons, ← Nat.add_assoc] at within
    cases executes with
    | cons fetches executes => exact rest i fetches is t executes within

/-- With other inputs the half comes to the same systems with these inputs. -/
theorem Blind.executes {is : List Instruction} (h : Blind budget spent s)
    (executes : Executes Board.device (s.withInputsOf inputs) is t)
    (within : spent + Instruction.cyclesOf is < budget) :
    ∃ u, Executes Board.device s is u ∧ t = u.withInputsOf inputs := by
  induction is generalizing s spent with
  | nil =>
    cases executes
    exact ⟨s, .nil, rfl⟩
  | cons i is ih =>
    rw [Instruction.cyclesOf_cons, ← Nat.add_assoc] at within
    cases executes with
    | cons fetches rest =>
      have fetches := fetches_withInputsOf.mp fetches
      rw [step_withInputsOf s inputs (h.here (by omega))] at rest
      obtain ⟨u, through, same⟩ := ih (h.step fetches) rest within
      exact ⟨u, .cons fetches through, same⟩

theorem Blind.withInputsOf (h : Blind budget spent s) (inputs : Board) :
    Blind budget spent (s.withInputsOf inputs) := by
  intro is t executes within
  obtain ⟨u, through, rfl⟩ := h.executes executes within
  rw [looks_withInputsOf]
  exact h is u through within

theorem Blind.runHalf_withInputsOf {budget spent : UInt32} {s : System Board}
    (h : Blind budget.toNat spent.toNat s) (inputs : Board) :
    (s.withInputsOf inputs).runHalf Board.device budget spent =
      (fun r => (r.1, r.2.withInputsOf inputs)) <$> s.runHalf Board.device budget spent := by
  fun_induction runHalf Board.device budget spent s with
  | case1 spent s left s' stepped =>
    obtain ⟨halted, rfl⟩ := halted_of_step stepped
    exact runHalf_of_halted _ _ halted
  | case2 spent s left cost s' stepped costly fault overflow =>
    obtain ⟨i, fetches, rfl⟩ := fetches_of_step stepped costly
    rw [runHalf_of_fetches (fetches_withInputsOf.mpr fetches) left, overflow]
    rfl
  | case3 spent s left cost s' stepped costly spent' fits ih =>
    obtain ⟨i, fetches, rfl⟩ := fetches_of_step stepped costly
    obtain rfl : (s.step Board.device).2 = s' := congrArg Prod.snd stepped
    rw [runHalf_of_fetches (fetches_withInputsOf.mpr fetches) left, fits,
      step_withInputsOf s inputs (h.here (UInt32.lt_iff_toNat_lt.mp left))]
    refine ih ?_
    rw [Counter.add32_eq_ok_iff.mp fits]
    exact h.step fetches
  | case4 spent s reached =>
    rw [runHalf, if_neg reached]
    rfl

end System

namespace Machine
variable {m m' : Machine} {n : Nat}

/-! ### Frames -/

def withInputsOf (m : Machine) (inputs : Board) : Machine :=
  { m with system := m.system.withInputsOf inputs }

/-- No instruction of the next frame reads the buttons or the switches. -/
structure Blind (m : Machine) : Prop where
  firstHalf : m.system.Blind m.halfFrameCycles.toNat 0
  secondHalf : ∀ cost middle, m.runHalf m.system = .ok (cost, middle) →
    (middle.interrupt midScreenVector).Blind m.halfFrameCycles.toNat 0

theorem runHalf_withInputsOf {s : System Board} (h : s.Blind m.halfFrameCycles.toNat 0)
    (inputs : Board) :
    (m.withInputsOf inputs).runHalf (s.withInputsOf inputs) =
      (fun r => (r.1, r.2.withInputsOf inputs)) <$> m.runHalf s := by
  have h : s.Blind m.halfFrameCycles.toNat (0 : UInt32).toNat := h
  exact h.runHalf_withInputsOf inputs

theorem Blind.withInputsOf (h : m.Blind) (inputs : Board) : (m.withInputsOf inputs).Blind where
  firstHalf := h.firstHalf.withInputsOf inputs
  secondHalf := by
    intro cost middle ran
    have same := (runHalf_withInputsOf h.firstHalf inputs).symm.trans ran
    obtain ⟨⟨cost', middle'⟩, ran', made⟩ := map_eq_ok.mp same
    cases made
    rw [System.interrupt_withInputsOf]
    exact (h.secondHalf cost' middle' ran').withInputsOf inputs

/-- The inputs can be put in before a frame that does not look at them, or after it. -/
theorem Blind.runFrame_withInputsOf (h : m.Blind) (inputs : Board) :
    (m.withInputsOf inputs).runFrame =
      (fun f => { f with machine := f.machine.withInputsOf inputs }) <$> m.runFrame := by
  have firstHalf := runHalf_withInputsOf h.firstHalf inputs
  have frames : (m.withInputsOf inputs).frames = m.frames := rfl
  unfold runFrame
  show ((m.withInputsOf inputs).runHalf (m.system.withInputsOf inputs) >>= _) = _
  rw [firstHalf]
  cases ran : m.runHalf m.system with
  | error fault => rfl
  | ok r =>
    obtain ⟨first, middle⟩ := r
    have secondHalf := runHalf_withInputsOf (h.secondHalf first middle ran) inputs
    simp only [Except.map, Functor.map, bind, Except.bind, System.interrupt_withInputsOf,
      frames] at secondHalf ⊢
    rw [secondHalf]
    cases m.runHalf (middle.interrupt midScreenVector) with
    | error fault => rfl
    | ok r =>
      simp only [System.interrupt_withInputsOf]
      cases Counter.add64 .frameCount m.frames 1 <;> rfl

/-! ### Many frames -/

namespace Frames
variable {f : Frames} {inputs : Board}

def withInputsOf (f : Frames) (inputs : Board) : Frames :=
  { f with machine := f.machine.withInputsOf inputs }

theorem next_withInputsOf (h : f.machine.Blind) (inputs : Board) :
    (f.withInputsOf inputs).next = (·.withInputsOf inputs) <$> f.next := by
  unfold next
  show ((f.machine.withInputsOf inputs).runFrame >>= _) = _
  rw [h.runFrame_withInputsOf]
  cases f.machine.runFrame <;> rfl

theorem run_withInputsOf (h : ∀ k < n, ∀ g, run k f = .ok g → g.machine.Blind) (inputs : Board) :
    run n (f.withInputsOf inputs) = (·.withInputsOf inputs) <$> run n f := by
  induction n generalizing f with
  | zero => rfl
  | succ n ih =>
    rw [run, run, next_withInputsOf (h 0 n.succ_pos f rfl)]
    cases next : f.next with
    | error fault => rfl
    | ok g =>
      refine ih fun k hk g' ran => h (k + 1) (Nat.succ_lt_succ hk) g' ?_
      rw [run, next]
      exact ran

end Frames

/-- From the machine, `n` frames run through without an instruction that reads the buttons or
the switches. -/
structure RunsBlind (m : Machine) (n : Nat) : Prop where
  through : ∃ f, m.runFrames n = .ok f
  blind : ∀ k < n, ∀ f, m.runFrames k = .ok f → f.machine.Blind

theorem RunsBlind.mono (h : m.RunsBlind n) {k : Nat} (hk : k ≤ n) : m.RunsBlind k where
  through := by
    obtain ⟨f, ran⟩ := h.through
    obtain ⟨j, rfl⟩ := Nat.exists_eq_add_of_le hk
    rw [runFrames, Frames.run_add] at ran
    obtain ⟨g, first, _⟩ := bind_eq_ok.mp ran
    exact ⟨g, first⟩
  blind := fun j hj => h.blind j (Nat.lt_of_lt_of_le hj hk)

theorem RunsBlind.runFrames_withInputsOf (h : m.RunsBlind n) (inputs : Board) :
    (m.withInputsOf inputs).runFrames n = (·.withInputsOf inputs) <$> m.runFrames n :=
  Frames.run_withInputsOf (f := { machine := m }) h.blind inputs

/-- With other inputs they run through as well. -/
theorem RunsBlind.withInputsOf (h : m.RunsBlind n) (inputs : Board) :
    (m.withInputsOf inputs).RunsBlind n where
  through := by
    obtain ⟨f, ran⟩ := h.through
    rw [h.runFrames_withInputsOf, ran]
    exact ⟨_, rfl⟩
  blind := by
    intro k hk g ran
    rw [(h.mono (Nat.le_of_lt hk)).runFrames_withInputsOf] at ran
    obtain ⟨f, ran', rfl⟩ := map_eq_ok.mp ran
    exact (h.blind k hk f ran').withInputsOf inputs

/-- The inputs that a machine has stay. -/
theorem RunsBlind.inputs (h : m.RunsBlind n) {f : Frames} (ran : m.runFrames n = .ok f) :
    f.machine.withInputsOf m.board = f.machine := by
  have same := h.runFrames_withInputsOf m.board
  rw [show m.withInputsOf m.board = m from rfl, ran] at same
  exact congrArg Frames.machine (Except.ok.inj same).symm

/-! ### Two machines -/

/-- The machines differ in their buttons and switches alone. -/
structure Twins (m m' : Machine) : Prop where
  cpu : m'.system.cpu = m.system.cpu
  memory : m'.memory = m.memory
  shifter : m'.board.shifter = m.board.shifter
  frames : m'.frames = m.frames
  halfFrameCycles : m'.halfFrameCycles = m.halfFrameCycles

theorem twins_withInputsOf (m : Machine) (inputs : Board) : Twins m (m.withInputsOf inputs) :=
  ⟨rfl, rfl, rfl, rfl, rfl⟩

theorem Twins.eq_withInputsOf (h : Twins m m') : m' = m.withInputsOf m'.board := by
  refine Machine.ext (System.ext h.cpu h.memory ?_) h.frames h.halfFrameCycles
  exact Board.ext rfl rfl h.shifter

/-- What a machine keeps of another: what its ports of buttons and switches show, and its
configuration. -/
structure Keeps (m m' : Machine) : Prop where
  port1 : m'.board.input 1 = m.board.input 1
  port2 : m'.board.input 2 = m.board.input 2
  config : m'.config = m.config

theorem RunsBlind.keeps (h : m.RunsBlind n) {f : Frames} (ran : m.runFrames n = .ok f) :
    Keeps m f.machine := by
  have same := h.inputs ran
  have budget : f.machine.halfFrameCycles = m.halfFrameCycles :=
    run_halfFrameCycles (run_replicate_frame_ok.mpr ⟨f, ran, rfl⟩)
  rw [← same]
  exact ⟨rfl, rfl, congrArg (Config.mk · _) budget⟩

/-- The runs agree in all but the inputs. -/
structure Agree (f f' : Frames) : Prop where
  reports : f'.reports = f.reports
  notices : f'.notices = f.notices
  machine : Twins f.machine f'.machine
  checksum : Checksum.ofBlock f'.machine.videoRam = Checksum.ofBlock f.machine.videoRam

/-! ### Buttons -/

/-- Moves of buttons, as operations. -/
def presses (moves : List (Button × Bool)) : List Operation :=
  moves.map fun p => .button p.1 p.2

/-- What the moves make of a board. -/
def moved (b : Board) (moves : List (Button × Bool)) : Board :=
  moves.foldl (fun b p => b.setButton p.1 p.2) b

theorem moved_withInputsOf (b inputs : Board) (moves : List (Button × Bool)) :
    moved (b.withInputsOf inputs) moves = b.withInputsOf (moved inputs moves) := by
  induction moves generalizing inputs with
  | nil => rfl
  | cons p rest ih => exact ih (inputs.setButton p.1 p.2)

theorem run_presses (m : Machine) (moves : List (Button × Bool)) :
    m.run (presses moves) = .ok (m.withInputsOf (moved m.board moves)) := by
  induction moves generalizing m with
  | nil => rfl
  | cons p rest ih => exact ih (m.setButton p.1 p.2)

/-- **Frames that do not look at the inputs do not depend on them.** If one of two machines
that differ in their buttons and switches alone runs so many frames without an instruction that
reads these, then so does the other; after each frame the two have the same reports and still
differ in nothing else, and each has the buttons and switches it began with. So the machine after
such frames is the same whether buttons are moved before or behind them. -/
theorem frames_blind (twins : Twins m m') (runs : m.RunsBlind n) :
    m'.RunsBlind n ∧
      (∀ k ≤ n, ∃ f f', m.runFrames k = .ok f ∧ m'.runFrames k = .ok f' ∧ Agree f f' ∧
        Keeps m f.machine ∧ Keeps m' f'.machine) ∧
      ∀ moves : List (Button × Bool), ∃ t,
        m.run (presses moves ++ .replicate n .frame) = .ok t ∧
          m.run (.replicate n .frame ++ presses moves) = .ok t := by
  have other := twins.eq_withInputsOf
  refine ⟨?_, fun k hk => ?_, fun moves => ?_⟩
  · rw [other]
    exact runs.withInputsOf _
  · have first := runs.mono hk
    obtain ⟨f, ran⟩ := first.through
    have ran' : m'.runFrames k = .ok (f.withInputsOf m'.board) := by
      rw [other, first.runFrames_withInputsOf, ran]
      rfl
    have second : m'.RunsBlind k := by
      rw [other]
      exact first.withInputsOf _
    exact ⟨f, _, ran, ran', ⟨rfl, rfl, twins_withInputsOf .., rfl⟩, first.keeps ran,
      second.keeps ran'⟩
  · obtain ⟨f, ran⟩ := runs.through
    refine ⟨f.machine.withInputsOf (moved m.board moves), ?_, ?_⟩
    · rw [run_append, run_presses]
      refine run_replicate_frame_ok.mpr ⟨f.withInputsOf (moved m.board moves), ?_, rfl⟩
      rw [runs.runFrames_withInputsOf, ran]
      rfl
    · rw [run_append, run_replicate_frame_ok.mpr ⟨f, ran, rfl⟩]
      refine (run_presses f.machine moves).trans ?_
      rw [← runs.inputs ran]
      have inputs : (f.machine.withInputsOf m.board).board = f.machine.board.withInputsOf m.board := rfl
      rw [inputs, moved_withInputsOf]
      rfl

/-- A frame of two instructions, one that reads the shifter and one that writes to it, with a
button down and another setting of the switches in the second machine. -/
theorem frames_blind_shifter :
    let memory := (((Memory.blank.write 0 0xdb).write 1 0x03).write 8 0xd3).write 9 0x04
    let m : Machine :=
      { system := { cpu := {}, memory := memory, device := .new {} }
        frames := 0
        halfFrameCycles := 1 }
    let m' := m.withInputsOf ((Board.new { ships := 6 }).setButton .left true)
    Twins m m' ∧ m.RunsBlind 1 ∧ m'.RunsBlind 1 ∧
      ∃ f f', m.runFrames 1 = .ok f ∧ m'.runFrames 1 = .ok f' ∧ Agree f f' ∧
        f'.machine.board.port1 = 0x28 := by
  intro memory m m'
  have twins : Twins m m' := twins_withInputsOf ..
  have opcode : memory.read 0 = 0xdb := by simp [memory, Memory.read_write]
  have port : m.system.immediate = 3 := by
    show memory.read 1 = 3
    simp [memory, Memory.read_write]
  have next : (memory.writeWord 0xfffe 0x0002).read 8 = 0xd3 := by
    simp [memory, Memory.writeWord, Memory.read_write]
  have fetch : m.system.fetch = .input := congrArg Instruction.decode opcode
  have fetches : m.system.Fetches .input := fetch ▸ System.fetches_fetch rfl
  have second : ∀ cost middle, m.runHalf m.system = .ok (cost, middle) →
      (middle.interrupt midScreenVector).fetch = .output := by
    intro cost middle ran
    rw [runHalf, System.runHalf_of_fetches fetches (by decide)] at ran
    obtain ⟨spent, sum, rest⟩ := bind_eq_ok.mp ran
    obtain rfl : 10 = spent := Except.ok.inj sum
    rw [System.runHalf, if_neg (by decide), System.step_of_fetches _ fetches] at rest
    cases rest
    exact congrArg Instruction.decode next
  -- One cycle to a half is one instruction.
  have single : ∀ s : System Board, ¬s.Looks → s.Blind 1 0 := fun s here =>
    System.blind_of_step here fun i _ => System.blind_of_spent (by
      have := i.four_le_toNat_cycles
      omega) _
  have blind : m.Blind := by
    refine ⟨single _ fun looks => ?_, fun cost middle ran => single _ fun looks => ?_⟩
    · rw [System.Looks, port] at looks
      exact absurd looks.2 (by decide)
    · have same : Instruction.output = .input :=
        (second cost middle ran).symm.trans looks.1.fetch_eq
      cases same
  have runs : m.RunsBlind 1 := by
    refine ⟨?_, fun k hk f ran => ?_⟩
    · rcases m.runFrame_cases with ⟨_, large⟩ | ⟨_, full⟩ | ⟨_, _, _, _, f, ran, _⟩
      · exact absurd large (by decide)
      · exact absurd full (by decide)
      · exact ⟨{ machine := f.machine, reports := [f.report], notices := f.notices.reverse ++ [] }, by
          rw [runFrames, Frames.run, Frames.next, ran]
          rfl⟩
    · obtain rfl : k = 0 := by omega
      cases ran
      exact blind
  obtain ⟨runs', agree, _⟩ := frames_blind twins runs
  obtain ⟨f, f', ran, ran', same, _, kept⟩ := agree 1 (Nat.le_refl 1)
  exact ⟨twins, runs, runs', f, f', ran, ran', same, kept.port1⟩

end Machine
end Cabinet

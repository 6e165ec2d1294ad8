import Cabinet.Checksum
import Cabinet.Proofs.Machine.Occurrences
import Cabinet.Proofs.Rom.Sources
import Cabinet.Proofs.System.Effects

/-! What a reset leaves of the past.

Whatever happens in a machine, its budget and its switches stay as they were built
(`config_of_run`), and all else but memory and buttons is set anew by a reset. So of any
history there is left after it a function of the configuration, the memory and the buttons
(`reset_of_run`), and two machines that agree in these answer alike from there on, whatever
images they were built with and whatever was done with them before (`reset_forgets`). -/
namespace Cabinet.Machine
variable {m m' : Machine} {ops : List Operation}

/-! ### The configuration -/

theorem output_switches (b : Board) (port v : UInt8) : (b.output port v).switches = b.switches := by
  unfold Board.output
  split <;> [rfl; split <;> rfl]

theorem step_switches (s : System Board) :
    (s.step Board.device).2.device.switches = s.device.switches := by
  rcases s.step_cases Board.device with ⟨_, step⟩ | ⟨i, _, step⟩
  · rw [step]
  · rw [step, System.execute_device]
    cases i with
    | output => exact output_switches ..
    | _ => rfl

theorem Happens.config {e : Occurrence} (h : Happens m e m') : m'.config = m.config := by
  cases h with
  | executed _ => exact congrArg (Config.mk _) (step_switches m.system)
  | accepted accepts => exact congrArg (fun b => Config.mk _ b.switches) accepts.device
  | _ => rfl

theorem Runs.config {es : List Occurrence} (h : Runs m es m') : m'.config = m.config := by
  induction h with
  | nil => rfl
  | cons first _ ih => exact ih.trans first.config

theorem config_of_run (ran : m.run ops = .ok m') : m'.config = m.config := by
  rcases m.run_cases ops with ⟨failed, _⟩ | ⟨failed, _⟩ | ⟨es, _, done, served⟩
  · rw [failed] at ran
    cases ran
  · rw [failed] at ran
    cases ran
  · rw [done] at ran
    cases ran
    exact served.runs.config

/-! ### The machine after a reset -/

/-- A machine with these settings, this memory and these buttons, and all else as it comes
up. -/
def restarted (config : Config) (memory : Memory) (port1 : UInt8) : Machine where
  system := { cpu := {}, memory := memory, device := { Board.new config.switches with port1 := port1 } }
  frames := 0
  halfFrameCycles := config.halfFrameCycles

theorem reset_of_run (ran : m.run ops = .ok m') :
    m'.reset = restarted m.config m'.memory m'.board.port1 := by
  rw [← config_of_run ran]
  rfl

/-- What a reset is to make of a machine that was built with this configuration. -/
structure Restarts (config : Config) (before after : Machine) : Prop where
  cpu : after.system.cpu =
    { a := 0, b := 0, c := 0, d := 0, e := 0, h := 0, l := 0, sp := 0, pc := 0
      flags := { sign := false, zero := false, auxiliary := false, parity := false, carry := false }
      halted := false
      interruptsEnabled := true }
  shifter : after.board.shifter = { data := 0, offset := 0 }
  frames : after.frames = 0
  port0 : after.board.input 0 = 0x06
  port1 : after.board.input 1 = before.board.input 1
  port2 : after.board.input 2 = config.switches.port2
  config : after.config = config
  memory : after.memory = before.memory

theorem restarts_reset {config : Config} (h : m.config = config) : Restarts config m m.reset := by
  subst h
  exact ⟨rfl, rfl, rfl, rfl, rfl, rfl, rfl, rfl⟩

/-! ### What is seen of a machine -/

/-- What an operation answers. -/
inductive Answer where
  | cycles (spent : UInt32)
  | report (r : FrameReport)
  | done
  deriving Repr, DecidableEq

/-- An operation's answer, and the machine it leaves with the digest of its picture. -/
structure Sight where
  answer : Answer
  machine : Machine
  checksum : UInt64

/-- The sight of a machine after an answer. -/
def Answer.by (answer : Answer) (m : Machine) : Sight :=
  ⟨answer, m, Checksum.ofBlock m.videoRam⟩

def see (m : Machine) : Operation → Except Fault Sight
  | .step =>
    let (cost, system) := m.system.step Board.device
    .ok (Answer.by (.cycles cost) { m with system := system })
  | .frame => (fun f => Answer.by (.report f.report) f.machine) <$> m.runFrame
  | .button b down => .ok (Answer.by .done (m.setButton b down))
  | .reset => .ok (Answer.by .done m.reset)

/-- All that is seen of one operation after the other, up to the first that fails. -/
def watch (m : Machine) : List Operation → List (Except Fault Sight)
  | [] => []
  | op :: ops =>
    match m.see op with
    | .ok sight => .ok sight :: sight.machine.watch ops
    | .error fault => [.error fault]

theorem machine_see (m : Machine) (op : Operation) :
    (·.machine) <$> m.see op = m.operate op := by
  cases op with
  | frame =>
    rw [see, operate]
    cases m.runFrame <;> rfl
  | _ => rfl

/-- Behind operations that are through, there is seen what the machine shows that they leave. -/
theorem watch_behind (ran : m.run ops = .ok m') (later : List Operation) :
    (m.watch (ops ++ later)).drop ops.length = m'.watch later := by
  induction ops generalizing m with
  | nil =>
    cases ran
    rfl
  | cons op ops ih =>
    obtain ⟨m₁, first, rest⟩ := run_cons_ok.mp ran
    rw [← machine_see] at first
    obtain ⟨sight, seen, rfl⟩ := map_eq_ok.mp first
    rw [List.cons_append, watch, seen]
    exact ih rest

/-- A machine comes up with its images at the bottom of an empty memory. -/
theorem read_fresh_cut (all : Block 8192) (config : Config) (a : UInt16) :
    (fresh (RomSet.cut all) config).memory.read a =
      if inside : a.toNat < 8192 then all.get a.toNat inside else 0 := by
  rw [fresh_memory, RomSet.read_installed_eq, RomSet.combined_cut, Memory.read_blank]

/-- **A reset forgets everything but memory and buttons.** Two machines with the same
configuration, built with any images and led through any two histories to the same memory and
the same buttons, are the same after a reset: with the processor, the shifter and the frame
count as at first, and with memory, buttons and settings as before. So whatever is done with
them afterwards gives the same answers, machines and pictures. -/
theorem reset_forgets (roms roms' : RomSet) (config : Config) :
    ∃ m₀ m₀', new roms config = .ok m₀ ∧ new roms' config = .ok m₀' ∧
      ∀ ops ops' m m', m₀.run ops = .ok m → m₀'.run ops' = .ok m' →
        m'.memory = m.memory → m'.board.input 1 = m.board.input 1 →
          m'.reset = m.reset ∧ Restarts config m m.reset ∧
            ∀ later,
              (m₀'.watch (ops' ++ .reset :: later)).drop ops'.length =
                (m₀.watch (ops ++ .reset :: later)).drop ops.length := by
  refine ⟨fresh roms config, fresh roms' config, new_eq .., new_eq .., ?_⟩
  intro ops ops' m m' ran ran' memory (port1 : m'.board.port1 = m.board.port1)
  have same : m'.reset = m.reset := by
    rw [reset_of_run ran', reset_of_run ran, memory, port1]
    rfl
  refine ⟨same, restarts_reset (config_of_run ran), fun later => ?_⟩
  rw [watch_behind ran', watch_behind ran]
  show .ok (Answer.by .done m'.reset) :: m'.reset.watch later =
    .ok (Answer.by .done m.reset) :: m.reset.watch later
  rw [same]

/-- Images that differ in their first instruction: the one of the first set overwrites itself
with what the second set has there, and a step of the second goes on without a trace. -/
theorem reset_forgets_images :
    ∃ roms roms' m₀ m₀' m m', new roms {} = .ok m₀ ∧ new roms' {} = .ok m₀' ∧
      m₀.memory ≠ m₀'.memory ∧
      m₀.run [.button .fire true, .step] = .ok m ∧
      m₀'.run [.step, .button .fire true] = .ok m' ∧
      m'.memory = m.memory ∧ m'.board.input 1 = m.board.input 1 ∧
      m.system.cpu.pc = 3 ∧ m'.system.cpu.pc = 1 ∧ m'.reset = m.reset := by
  obtain ⟨roms, cells⟩ : ∃ roms : RomSet, ∀ a,
      (fresh roms {}).memory.read a = if 0 = a then 0x32 else 0 := by
    refine ⟨RomSet.cut ((Block.replicate 8192 0).set 0 0x32 (by decide)), fun a => ?_⟩
    rw [read_fresh_cut]
    simp only [Block.get_set, Block.get_replicate, ← UInt16.toNat_inj]
    grind
  obtain ⟨roms', cells'⟩ : ∃ roms : RomSet, ∀ a, (fresh roms {}).memory.read a = 0 := by
    refine ⟨RomSet.cut (Block.replicate 8192 0), fun a => ?_⟩
    simp [read_fresh_cut]
  obtain ⟨m₀, m₀', new, new', forgets⟩ := reset_forgets roms roms' {}
  obtain rfl := Except.ok.inj ((new_eq roms {}).symm.trans new)
  obtain rfl := Except.ok.inj ((new_eq roms' {}).symm.trans new')
  -- The first machine writes its accumulator to the cell it has fetched from.
  let pressed := (fresh roms {}).setButton .fire true
  have fetches : pressed.system.Fetches .sta := System.fetches_of_read (v := 0x32) rfl (cells 0)
  have stored : (pressed.system.step Board.device).2 = pressed.system.execute Board.device .sta :=
    congrArg Prod.snd (System.step_of_fetches _ fetches)
  have target : pressed.system.immediateWord = 0 := by
    have same : pressed.system.immediateWord =
        Word.little ((fresh roms {}).memory.read (0 + 1)) ((fresh roms {}).memory.read (0 + 2)) :=
      rfl
    rw [same, cells, cells]
    rfl
  have fetches' : (fresh roms' {}).system.Fetches .nop :=
    System.fetches_of_read (v := 0x00) rfl (cells' 0)
  have passed : ((fresh roms' {}).system.step Board.device).2 =
      (fresh roms' {}).system.execute Board.device .nop :=
    congrArg Prod.snd (System.step_of_fetches _ fetches')
  have memory : ((fresh roms' {}).system.step Board.device).2.memory =
      (pressed.system.step Board.device).2.memory := by
    rw [passed, stored, System.execute_eq, System.execute_eq, target]
    apply Memory.ext_read
    intro a
    show (fresh roms' {}).memory.read a = ((fresh roms {}).memory.write 0 0).read a
    rw [cells', Memory.read_write, cells]
    split <;> rfl
  have port1 : (((fresh roms' {}).steps 1).2.setButton .fire true).board.input 1 =
      (pressed.steps 1).2.board.input 1 := by
    show (((fresh roms' {}).system.step Board.device).2.device.setButton .fire true).input 1 =
      (pressed.system.step Board.device).2.device.input 1
    rw [passed, stored]
    rfl
  have apart : (fresh roms {}).memory ≠ (fresh roms' {}).memory := by
    intro same
    have first := cells 0
    rw [same, cells'] at first
    cases first
  refine ⟨roms, roms', _, _, (pressed.steps 1).2, ((fresh roms' {}).steps 1).2.setButton .fire true,
    new, new', apart, rfl, rfl, memory, port1, ?_, ?_, ?_⟩
  · show (pressed.system.step Board.device).2.cpu.pc = 3
    rw [stored]
    rfl
  · show ((fresh roms' {}).system.step Board.device).2.cpu.pc = 1
    rw [passed]
    rfl
  · exact (forgets [.button .fire true, .step] [.step, .button .fire true] _ _ rfl rfl memory
      port1).1

end Cabinet.Machine

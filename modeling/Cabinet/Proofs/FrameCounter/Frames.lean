import Cabinet.Proofs.Board.History
import Cabinet.Proofs.FrameCounter.Program
import Cabinet.Proofs.Machine.Frames

/-! The program that counts frames, over any number of them.

Half a frame has room for the way to the jump and is spent there, so at its end the interrupt
finds the program at the jump. In the first half of a frame the program has counted the frame
before, in the second it has taken its sample, and the frame ends with the call that will
count it (`frame_ran`). Between frames only buttons are moved, which the way to the jump does
not depend on (`Settles`). So whatever is done with the buttons, after any number of frames the
picture tells how many there were before the last, and the buttons of the last
(`frames_counted`). -/
namespace Cabinet.FrameCounter
open Cabinet.System Machine

variable {count sample : UInt8} {s t u : System Board} {is : List Instruction}

/-! ### A half -/

/-- Half a frame from which the program comes to its jump ends there, with the budget spent. -/
theorem Comes.half {budget : Nat} (h : Comes count sample s) (room : 76 ≤ budget)
    (half : Halves Board.device budget 0 s is u) :
    Spinning count sample u ∧ u.device = s.device ∧ budget ≤ Instruction.cyclesOf is := by
  obtain ⟨ps, t, leads, short, spinning⟩ := h
  obtain ⟨js, rest⟩ := half.through leads.executes (by omega)
  obtain rfl : u = t := rest.settled spinning.step
  refine ⟨spinning, leads.device, ?_⟩
  rcases half.ended with spent | halted
  · omega
  · rw [spinning.running] at halted
    cases halted

/-! ### A frame -/

/-- Whatever the board, the program comes from here to its jump. -/
def Settles (count sample : UInt8) (s : System Board) : Prop :=
  ∀ board : Board, Comes count sample { s with device := board }

theorem settles_of_start {sp : UInt16} (h : At 0x0000 sp count sample s) :
    Settles count sample s :=
  fun _ => comes_of_start ⟨h.pc, h.sp, h.running, h.shows⟩

theorem settles_of_count (h : Called 0x0010 count sample s) : Settles (count + 1) sample s :=
  fun _ => comes_of_count ⟨⟨⟨h.pc, h.sp, h.running, h.shows⟩, h.back⟩, h.disabled⟩

/-- The cycles of the halves, if neither ended early: the budget and at most seventeen more. -/
structure Spent (budget : Nat) (r : FrameReport) : Prop extends r.Within budget where
  firstSpent : budget ≤ r.first.toNat
  secondSpent : budget ≤ r.second.toNat

/-- What a frame makes of a machine whose program counts `count`. -/
structure Ran (count : UInt8) (m : Machine) (f : Frame) : Prop where
  called : Called 0x0010 count m.board.port1 f.machine.system
  board : f.machine.board = m.board
  frames : f.machine.frames.toNat = m.frames.toNat + 1
  budget : f.machine.halfFrameCycles = m.halfFrameCycles
  spent : Spent m.halfFrameCycles.toNat f.report

/-- A frame that the program comes to its jump in is run, and ends with a call. -/
theorem frame_ran {m : Machine} (h : Settles count sample m.system)
    (room : 76 ≤ m.halfFrameCycles.toNat) (small : m.halfFrameCycles.toNat ≤ UInt32.size - 18)
    (few : m.frames.toNat + 1 < UInt64.size) : ∃ f, m.runFrame = .ok f ∧ Ran count m f := by
  rcases m.runFrame_cases with ⟨_, large⟩ | ⟨_, full⟩ | ⟨is, middle, js, last, f, ran, framed⟩
  · omega
  · omega
  obtain ⟨spinning, device, spent⟩ := (h m.board).half room framed.firstHalf
  obtain ⟨called, kept⟩ := spinning.interrupt (v := midScreenVector) (by decide)
  obtain ⟨sampled, device', spent'⟩ := (comes_of_sample called).half room framed.secondHalf
  obtain ⟨called', kept'⟩ := sampled.interrupt (v := endOfScreenVector) (by decide)
  have port : (middle.interrupt midScreenVector).device = m.board := kept.trans device
  refine ⟨f, ran, ?_⟩
  exact {
    called := by
      rw [framed.machine, ← port]
      exact called'
    board := by
      rw [framed.machine]
      exact kept'.trans (device'.trans port)
    frames := by
      rw [framed.machine, UInt64.toNat_add]
      exact Nat.mod_eq_of_lt few
    budget := by rw [framed.machine]
    spent := {
      toWithin := framed.within
      firstSpent := framed.first ▸ spent
      secondSpent := framed.second ▸ spent' } }

/-! ### Buttons and frames -/

/-- Buttons that are moved, one after the other. -/
abbrev Settings := List (Button × Bool)

/-- What the moves are to the board. -/
def presses (settings : Settings) : List Board.Event :=
  settings.map fun p => .press p.1 p.2

/-- The machine with its buttons moved. -/
def moved (m : Machine) (settings : Settings) : Machine :=
  settings.foldl (fun m p => m.setButton p.1 p.2) m

/-- Buttons, and then a frame. -/
def round (f : Frames) (settings : Settings) : Except Fault Frames :=
  { f with machine := moved f.machine settings }.next

/-- A frame after each of the settings. -/
def rounds (f : Frames) (schedule : List Settings) : Except Fault Frames :=
  schedule.foldlM round f

theorem moved_eq (m : Machine) (settings : Settings) :
    moved m settings =
      { m with system := { m.system with device := (presses settings).foldl Board.act m.board } } := by
  induction settings generalizing m with
  | nil => rfl
  | cons p rest ih => exact ih (m.setButton p.1 p.2)

theorem remembers_foldl {switches : Switches} {events more : List Board.Event} {b : Board}
    (h : Board.Remembers switches events b) :
    Board.Remembers switches (events ++ more) (more.foldl Board.act b) := by
  induction more generalizing events b with
  | nil =>
    rw [List.append_nil]
    exact h
  | cons e more ih =>
    rw [List.append_cons]
    exact ih (h.act e)

/-- What holds between two frames: the next one will find `count` and count it. -/
structure Kept (before : List Settings) (f : Frames) : Prop where
  settles : ∃ sample, Settles (UInt8.ofNat before.length) sample f.machine.system
  remembers : Board.Remembers {} (presses before.flatten) f.machine.board
  frames : f.machine.frames.toNat = before.length
  budget : f.machine.halfFrameCycles = 16667
  length : f.reports.length = before.length
  spent : ∀ r ∈ f.reports, Spent 16667 r

/-- Moving buttons gets no further than the board. -/
theorem Kept.moved {before : List Settings} {f : Frames} (h : Kept before f) (settings : Settings) :
    (∃ sample, Settles (UInt8.ofNat before.length) sample (moved f.machine settings).system) ∧
      Board.Remembers {} (presses (before ++ [settings]).flatten) (moved f.machine settings).board ∧
      (moved f.machine settings).frames.toNat = before.length ∧
      (moved f.machine settings).halfFrameCycles = 16667 := by
  rw [moved_eq]
  have all : presses (before ++ [settings]).flatten = presses before.flatten ++ presses settings := by
    simp [presses]
  refine ⟨h.settles, ?_, h.frames, h.budget⟩
  rw [all]
  exact remembers_foldl h.remembers

theorem Kept.next {before : List Settings} {f : Frames} (h : Kept before f) (settings : Settings)
    (few : before.length + 1 < 2 ^ 64) :
    ∃ g, round f settings = .ok g ∧ Kept (before ++ [settings]) g ∧
      Called 0x0010 (UInt8.ofNat before.length) g.machine.board.port1 g.machine.system := by
  obtain ⟨⟨sample, settles⟩, remembers, frames, budget⟩ := h.moved settings
  have cycles : (FrameCounter.moved f.machine settings).halfFrameCycles.toNat = 16667 := by
    rw [budget]
    rfl
  obtain ⟨frame, ran, called, board, counted, budget', spent⟩ :=
    frame_ran settles (by omega) (by rw [cycles]; decide) (by rw [frames]; exact few)
  refine ⟨{ machine := frame.machine
            reports := frame.report :: f.reports
            notices := frame.notices.reverse ++ f.notices }, ?_, ?_, ?_⟩
  · rw [round, Frames.next, ran]
    rfl
  · exact {
      settles := by
        rw [List.length_append, List.length_singleton, UInt8.ofNat_add]
        exact ⟨_, settles_of_count called⟩
      remembers := board ▸ remembers
      frames := by rw [counted, frames, List.length_append, List.length_singleton]
      budget := budget'.trans budget
      length := by rw [List.length_cons, h.length, List.length_append, List.length_singleton]
      spent := by
        rw [cycles] at spent
        exact List.forall_mem_cons.mpr ⟨spent, h.spent⟩ }
  · rw [board]
    exact called

/-- And any number of them. -/
theorem Kept.rounds {before : List Settings} {f : Frames} (h : Kept before f)
    (schedule : List Settings) (few : before.length + schedule.length < 2 ^ 64) :
    ∃ g, rounds f schedule = .ok g ∧ Kept (before ++ schedule) g := by
  induction schedule generalizing before f with
  | nil =>
    rw [List.append_nil]
    exact ⟨f, rfl, h⟩
  | cons settings rest ih =>
    rw [List.length_cons] at few
    obtain ⟨g, stepped, kept, _⟩ := h.next settings (by omega)
    obtain ⟨k, ran, done⟩ := ih kept (by rw [List.length_append, List.length_singleton]; omega)
    refine ⟨k, ?_, by rwa [List.append_cons]⟩
    rw [FrameCounter.rounds, List.foldlM_cons, stepped]
    exact ran

/-! ### Any number of frames -/

/-- What is to be seen after a schedule of settings, with a frame after each. -/
structure Counted (loaded : Memory) (schedule : List Settings) (f : Frames) : Prop where
  count : (f.machine.videoRam.get 0 (by decide)).toNat = (schedule.length - 1) % 256
  /-- Port 1 as it was in the last frame. -/
  sample : f.machine.videoRam.get 1 (by decide) = f.machine.board.input 1
  buttons : (f.machine.board.input 1).toNat = Button.lit (Board.held (presses schedule.flatten))
  dark : ∀ i (h : i < 7168), 2 ≤ i → f.machine.videoRam.get i h = 0
  rom : ∀ a : UInt16, a < 0x2000 → f.machine.memory.read a = loaded.read a
  frames : f.machine.frames.toNat = schedule.length
  pc : f.machine.system.cpu.pc = 0x0010
  sp : f.machine.system.cpu.sp = 0x23fe
  back : f.machine.memory.readWord 0x23fe = 0x0004
  disabled : f.machine.system.cpu.interruptsEnabled = false
  length : f.reports.length = schedule.length
  spent : ∀ r ∈ f.reports, (16667 ≤ r.first.toNat ∧ r.first.toNat ≤ 16684) ∧
    16667 ≤ r.second.toNat ∧ r.second.toNat ≤ 16684

theorem counted_of_called {schedule : List Settings} {settings : Settings} {f : Frames}
    (kept : Kept (schedule ++ [settings]) f)
    (called : Called 0x0010 (UInt8.ofNat schedule.length) f.machine.board.port1 f.machine.system) :
    Counted loaded (schedule ++ [settings]) f where
  count := by
    have shown : f.machine.videoRam.get 0 (by decide) = UInt8.ofNat schedule.length :=
      (Memory.videoRam_get ..).trans called.shows.count
    rw [shown, UInt8.toNat_ofNat', List.length_append, List.length_singleton, Nat.add_sub_cancel]
  sample := (Memory.videoRam_get ..).trans called.shows.sample
  buttons := kept.remembers.buttons
  dark := fun i h beyond => by
    have address : (UInt16.ofNat (0x2400 + i)).toNat = 0x2400 + i :=
      UInt16.toNat_ofNat_of_lt' (show _ < 65536 by omega)
    rw [Machine.videoRam, Memory.videoRam_get]
    refine called.shows.dark _ (UInt16.le_iff_toNat_le.mpr ?_) (UInt16.lt_iff_toNat_lt.mpr ?_)
    · rw [address]
      exact Nat.add_le_add_left beyond 0x2400
    · rw [address]
      exact Nat.add_lt_add_left h 0x2400
  rom := called.shows.rom
  frames := kept.frames
  pc := called.pc
  sp := called.sp
  back := called.back
  disabled := called.disabled
  length := kept.length
  spent := fun r hr =>
    have spent := kept.spent r hr
    ⟨⟨spent.firstSpent, spent.first⟩, spent.secondSpent, spent.second⟩

theorem memory_fresh : (Machine.fresh roms {}).memory = loaded := by
  rw [Machine.memory, loaded, Machine.fresh]

theorem kept_start : Kept [] { machine := .fresh roms {} } where
  settles := by
    have shows : Shows 0 0 (Machine.fresh roms {}).memory := memory_fresh ▸ shows_loaded
    exact ⟨0, settles_of_start ⟨rfl, rfl, rfl, shows⟩⟩
  remembers := Board.remembers_new {}
  frames := rfl
  budget := rfl
  length := rfl
  spent := nofun

/-- **Any number of frames is counted**, whatever is done with the buttons between them. -/
theorem frames_counted :
    ∃ r m, RomSet.ofImages roms.h.bytes roms.g.bytes roms.f.bytes roms.e.bytes = .ok r ∧
      Machine.new r {} = .ok m ∧
      ∀ schedule : List Settings, schedule ≠ [] → schedule.length < 2 ^ 64 →
        ∃ f, rounds { machine := m } schedule = .ok f ∧ Counted m.memory schedule f := by
  refine ⟨roms, .fresh roms {}, RomSet.ofImages_bytes _, Machine.new_eq .., fun schedule some few => ?_⟩
  obtain ⟨init, last, rfl⟩ := (List.eq_nil_or_concat' schedule).resolve_left some
  rw [List.length_append, List.length_singleton] at few
  obtain ⟨g, ran, kept⟩ := kept_start.rounds init (by rw [List.length_nil]; omega)
  obtain ⟨f, stepped, kept', called⟩ := kept.next last few
  refine ⟨f, ?_, memory_fresh ▸ counted_of_called kept' called⟩
  rw [rounds, List.foldlM_append, ← rounds, ran]
  show [last].foldlM round g = _
  rw [List.foldlM_cons, stepped]
  rfl

/-- The coin and the fire button in the first frame, only the left one in the second. -/
theorem frames_counted_two :
    let schedule : List Settings :=
      [[(.coin, true), (.fire, true)], [(.coin, false), (.fire, false), (.left, true)]]
    schedule ≠ [] ∧ schedule.length < 2 ^ 64 ∧
      ∃ m f, Machine.new roms {} = .ok m ∧ rounds { machine := m } schedule = .ok f ∧
        (f.machine.videoRam.get 0 (by decide)).toNat = 1 ∧
        (f.machine.videoRam.get 1 (by decide)).toNat = 0x28 := by
  intro schedule
  have some : schedule ≠ [] := nofun
  have few : schedule.length < 2 ^ 64 := by decide
  obtain ⟨r, m, images, new, counts⟩ := frames_counted
  obtain rfl : roms = r := Except.ok.inj ((RomSet.ofImages_bytes roms).symm.trans images)
  obtain ⟨f, ran, counted⟩ := counts schedule some few
  refine ⟨some, few, m, f, new, ran, counted.count, ?_⟩
  rw [counted.sample, counted.buttons]
  decide

end Cabinet.FrameCounter

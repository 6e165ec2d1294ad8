import Cabinet.Proofs.Machine.Frames
import Cabinet.Proofs.System.Effects

/-! How far the cycles of a frame can be counted.

A half passes its budget by seventeen cycles at most, so the cycles of both fit 32 bits if the
budget is at least eighteen below 2^31. No larger budget is safe. The carousel is a program that
goes round in 64 cycles and begins none of its instructions in the last seventeen of them, and
so no half of it ends there. Its invariant, `Paced`, says no more of a system than the pace
depends on; it outlasts a half and, as interrupts are disabled, the frame. A budget in the last
seventeen cycles before 2^31 makes the carousel spend 2^31 cycles in the first half and 2^32 in
both (`cycles_fit_iff`, `frame_overflows`). -/
namespace Cabinet

/-! ### The program -/

namespace Carousel
open Cabinet.System

/-- DI; NOP; LXI SP,2400; JMP 0009, into a round of three XTHL from 0008 on and JMP 0008. -/
def code : List UInt8 :=
  [0xf3, 0x00, 0x31, 0x00, 0x24, 0xc3, 0x09, 0x00, 0xe3, 0xe3, 0xe3, 0xc3, 0x08, 0x00]

def cell (a : Nat) : UInt8 :=
  code.getD a 0

/-- The program on the first chip, and nothing on the others. -/
def roms : RomSet where
  h := .ofFn fun i => cell i.val
  g := .replicate 2048 0
  f := .replicate 2048 0
  e := .replicate 2048 0

/-- Where the program can be: on its way in, or at one of the four instructions of a round. -/
inductive Place where
  | disable | pass | setStack | enter
  | swap | swapBack | swapAgain | round
  deriving Repr, DecidableEq

namespace Place

def address : Place → UInt16
  | disable => 0x0000
  | pass => 0x0001
  | setStack => 0x0002
  | enter => 0x0005
  | swap => 0x0008
  | swapBack => 0x0009
  | swapAgain => 0x000a
  | round => 0x000b

def instruction : Place → Instruction
  | disable => .di
  | pass => .nop
  | setStack => .lxi .sp
  | enter | round => .jmp
  | swap | swapBack | swapAgain => .xthl

def next : Place → Place
  | disable => pass
  | pass => setStack
  | setStack => enter
  | enter => swapBack
  | swap => swapBack
  | swapBack => swapAgain
  | swapAgain => round
  | round => swap

/-- The cycle of a round, out of 64, in which the instruction there begins. -/
def cycle : Place → Nat
  | disable | round => 0
  | pass => 4
  | setStack => 8
  | enter => 18
  | swap => 10
  | swapBack => 28
  | swapAgain => 46

/-- The word behind the instruction. -/
def operand (p : Place) : UInt16 :=
  Word.join (cell (p.address + 2).toNat) (cell (p.address + 1).toNat)

/-- The stack is where the program has set it. -/
def settled : Place → Bool
  | disable | pass | setStack => false
  | _ => true

/-- The instruction there and its operands lie on the first chip. -/
theorem inside (p : Place) : p.address.toNat < 2048 ∧ (p.address + 1).toNat < 2048 ∧
    (p.address + 2).toNat < 2048 := by
  cases p <;> decide

theorem decode_cell (p : Place) : .decode (cell p.address.toNat) = p.instruction := by
  cases p <;> decide

theorem cycle_next (p : Place) :
    (p.cycle + p.instruction.cycles.toNat) % 64 = p.next.cycle := by
  cases p <;> rfl

/-- No instruction begins in the last seventeen cycles of a round. -/
theorem cycle_le (p : Place) : p.cycle ≤ 46 := by
  cases p <;> decide

end Place

/-! ### Its pace -/

/-- The program has come to a place, in the cycle of the round that belongs to it. -/
structure Paced (p : Place) (spent : Nat) (s : System Board) : Prop where
  pc : s.cpu.pc = p.address
  cycle : spent % 64 = p.cycle
  running : s.cpu.halted = false
  rom : ∀ a : UInt16, a.toNat < 2048 → s.memory.read a = cell a.toNat
  begun : p = .disable → spent = 0
  disabled : p ≠ .disable → s.cpu.interruptsEnabled = false
  stack : p.settled = true → s.cpu.sp = 0x2400

variable {p : Place} {spent budget : Nat} {s t : System Board} {is : List Instruction}

theorem Paced.fetches (h : Paced p spent s) : s.Fetches p.instruction := by
  rw [← p.decode_cell]
  refine fetches_of_read h.running ?_
  rw [h.pc, h.rom _ p.inside.1]

theorem Paced.immediateWord (h : Paced p spent s) : s.immediateWord = p.operand := by
  obtain ⟨_, first, second⟩ := p.inside
  rw [System.immediateWord, h.pc, h.rom _ first, h.rom _ second, ← Word.join_eq_little]
  rfl

theorem Paced.pcAfter (h : Paced p spent s) : p.instruction.pcAfter s = p.next.address := by
  have word := h.immediateWord
  have pc := h.pc
  rw [Instruction.pcAfter, h.fetches.size_eq, UInt16.ofNat_toNat]
  cases p
  case enter | round => exact word
  all_goals
    show s.cpu.pc + _ = _
    rw [pc]
    rfl

/-- What the program writes is in its work space. -/
theorem Paced.beyond (h : Paced p spent s) {a : UInt16} {v : UInt8}
    (listed : (a, v) ∈ p.instruction.stores s) : 2048 ≤ a.toNat := by
  have stack := h.stack
  cases p
  case swap | swapBack | swapAgain =>
    have sp : s.cpu.sp = 0x2400 := stack rfl
    have cell : a = s.cpu.sp ∨ a = s.cpu.sp + 1 := Memory.cell_of_mem listed
    rw [sp] at cell
    cases cell with
    | inl low =>
      rw [low]
      decide
    | inr high =>
      rw [high]
      decide
  all_goals cases listed

/-- Every instruction of the program leads to the next place in time. -/
theorem Paced.step (h : Paced p spent s) :
    Paced p.next (spent + p.instruction.cycles.toNat) (s.step Board.device).2 := by
  rw [step_of_fetches _ h.fetches]
  exact {
    pc := by rw [execute_pc _ h.fetches, h.pcAfter]
    cycle := by rw [Nat.add_mod, h.cycle, Nat.add_mod_mod, ← p.cycle_next]
    running := by
      rw [execute_halted, h.running]
      cases p <;> rfl
    rom := fun a inside => by
      rw [(stored_execute Board.device s p.instruction).kept a, h.rom a inside]
      intro v listed
      have := h.beyond listed
      omega
    begun := by cases p <;> nofun
    disabled := fun _ => by
      rw [execute_interruptsEnabled]
      have disabled := h.disabled
      cases p
      case disable => rfl
      all_goals exact disabled nofun
    stack := fun settled => by
      rw [execute_sp]
      have stack := h.stack
      have word := h.immediateWord
      cases p
      case disable | pass => cases settled
      case setStack => exact word
      all_goals exact stack rfl }

theorem Paced.executes (h : Paced p spent s) (ran : Executes Board.device s is t) :
    ∃ q, Paced q (spent + Instruction.cyclesOf is) t := by
  induction ran generalizing p spent with
  | nil => exact ⟨p, h⟩
  | @cons s t i is fetches rest ih =>
    obtain rfl : p.instruction = i := h.fetches.fetch_eq.symm.trans fetches.fetch_eq
    rw [Instruction.cyclesOf_cons, ← Nat.add_assoc]
    exact ih h.step

/-- A half of the program spends its budget, and its pace goes on. -/
theorem Paced.half (h : Paced p spent s) (half : Halves Board.device budget 0 s is t) :
    budget ≤ Instruction.cyclesOf is ∧ ∃ q, Paced q (spent + Instruction.cyclesOf is) t := by
  obtain ⟨q, paced⟩ := h.executes half.executes
  refine ⟨?_, q, paced⟩
  cases half.ended with
  | inl reached => rwa [Nat.zero_add] at reached
  | inr halted =>
    rw [paced.running] at halted
    cases halted

/-- Once it has begun, the program takes no interrupt. -/
theorem Paced.interrupt (h : Paced p spent s) (begun : 0 < spent) (v : UInt8) :
    s.interrupt v = s := by
  have later : p ≠ .disable := fun start => absurd (h.begun start) (Nat.ne_of_gt begun)
  exact interrupt_of_disabled (h.disabled later) v

/-! ### Its first frame -/

theorem paced_fresh (config : Config) : Paced .disable 0 (Machine.fresh roms config).system where
  pc := rfl
  cycle := rfl
  running := rfl
  rom := fun a inside => by
    have loaded : (Machine.fresh roms config).system.memory = roms.installed .blank :=
      Machine.fresh_memory roms config
    rw [loaded]
    exact RomSet.read_installed_first roms .blank cell rfl inside
  begun := fun _ => rfl
  disabled := fun later => absurd rfl later
  stack := nofun

/-- What the halves of the program's first frame cost: the budget at least, and neither of them
ends in the last seventeen cycles of a round. -/
structure Spends (budget : Nat) (r : FrameReport) : Prop where
  first : budget ≤ r.first.toNat
  second : budget ≤ r.second.toNat
  middle : r.first.toNat % 64 ≤ 46
  last : (r.first.toNat + r.second.toNat) % 64 ≤ 46

theorem spends_of_runFrame {config : Config} {f : Frame} (some : 0 < config.halfFrameCycles.toNat)
    (ran : (Machine.fresh roms config).runFrame = .ok f) :
    Spends config.halfFrameCycles.toNat f.report := by
  rcases (Machine.fresh roms config).runFrame_cases with
    ⟨failed, _⟩ | ⟨failed, _⟩ | ⟨is, middle, js, last, g, done, framed⟩
  · rw [failed] at ran
    cases ran
  · rw [failed] at ran
    cases ran
  · rw [done] at ran
    cases ran
    obtain ⟨first, p, paced⟩ := (paced_fresh config).half framed.firstHalf
    rw [Nat.zero_add] at paced
    have begun : 0 < Instruction.cyclesOf is := Nat.lt_of_lt_of_le some first
    have secondHalf := framed.secondHalf
    rw [paced.interrupt begun] at secondHalf
    obtain ⟨second, q, paced'⟩ := paced.half secondHalf
    rw [← framed.first] at first paced paced'
    rw [← framed.second] at second paced'
    exact {
      first := first
      second := second
      middle := paced.cycle ▸ p.cycle_le
      last := paced'.cycle ▸ q.cycle_le }

/-- A budget in the last seventeen cycles before 2^31, or any larger one, takes both halves
beyond the end of a counter. -/
theorem Spends.overflow {budget : Nat} {r : FrameReport} (h : Spends budget r)
    (large : 2 ^ 31 - 18 < budget) : 2 ^ 32 ≤ r.first.toNat + r.second.toNat := by
  obtain ⟨first, second, middle, last⟩ := h
  -- Rounds end at 2^31 and at 2^32, so a sum that comes within seventeen cycles of either of
  -- them and does not end there has reached it.
  omega

end Carousel

/-! ### The counters -/

namespace Machine
variable {m : Machine}

/-- A frame adds up the cycles of its halves, and they can be added up to those of the frame. -/
structure Counted (m : Machine) : Prop where
  halves : m.runFrame ≠ .error .halfFrameCycles
  total : ∀ f, m.runFrame = .ok f → ∃ cycles, f.report.total = .ok cycles ∧
    cycles.toNat = f.report.first.toNat + f.report.second.toNat

theorem counted_of_small (small : m.halfFrameCycles.toNat ≤ 2 ^ 31 - 18) : m.Counted where
  halves := by
    intro failed
    rcases m.runFrame_cases with ⟨_, large⟩ | ⟨full, _⟩ | ⟨_, _, _, _, _, done, _⟩
    · have : UInt32.size = 2 ^ 32 := rfl
      omega
    · rw [full] at failed
      cases failed
    · rw [done] at failed
      cases failed
  total := by
    intro f ran
    have sum := FrameReport.total_of_within (runFrame_within ran) small
    exact ⟨_, sum, Counter.add32_eq_ok_iff.mp sum⟩

theorem not_counted_of_large {config : Config}
    (large : 2 ^ 31 - 18 < config.halfFrameCycles.toNat) :
    ¬(fresh Carousel.roms config).Counted := by
  intro counted
  rcases (fresh Carousel.roms config).runFrame_cases with
    ⟨failed, _⟩ | ⟨_, full⟩ | ⟨_, _, _, _, f, ran, _⟩
  · exact counted.halves failed
  · exact absurd full (show ¬0 + 1 = UInt64.size by decide)
  · obtain ⟨cycles, _, sum⟩ := counted.total f ran
    have beyond := (Carousel.spends_of_runFrame (Nat.zero_lt_of_lt large) ran).overflow large
    have := cycles.toNat_lt
    omega

/-- **The cycles of a frame can be counted just if the budget is at least eighteen below 2^31**:
then they can be whatever state the machine is in, and for any larger one there is a program
whose first frame cannot be counted. -/
theorem cycles_fit_iff (config : Config) :
    ((∀ m : Machine, m.config = config → m.Counted) ↔
        config.halfFrameCycles.toNat ≤ 2 ^ 31 - 18) ∧
      ((∀ roms, ∃ m, new roms config = .ok m ∧ m.Counted) ↔
        config.halfFrameCycles.toNat ≤ 2 ^ 31 - 18) := by
  have always (small : config.halfFrameCycles.toNat ≤ 2 ^ 31 - 18) (m : Machine)
      (same : m.config = config) : m.Counted := by
    subst same
    exact counted_of_small small
  have never (counted : (fresh Carousel.roms config).Counted) :
      config.halfFrameCycles.toNat ≤ 2 ^ 31 - 18 := by
    by_contra large
    exact not_counted_of_large (Nat.lt_of_not_le large) counted
  refine ⟨⟨fun all => never (all _ rfl), always⟩, fun all => ?_, fun small roms => ?_⟩
  · obtain ⟨m, made, counted⟩ := all Carousel.roms
    rw [new_eq] at made
    cases made
    exact never counted
  · exact ⟨_, new_eq roms config, always small _ rfl⟩

/-- The least budget that is too large: the halves still fit, and end in the same cycle, but
the sum does not. -/
theorem frame_overflows :
    ∃ m f, new Carousel.roms { halfFrameCycles := 2147483631 } = .ok m ∧ m.runFrame = .ok f ∧
      f.report = ⟨2147483648, 2147483648⟩ ∧ f.report.total = .error .frameCycles := by
  let config : Config := { halfFrameCycles := 2147483631 }
  rcases (fresh Carousel.roms config).runFrame_cases with
    ⟨_, large⟩ | ⟨_, full⟩ | ⟨_, _, _, _, f, ran, _⟩
  · exact absurd large (show ¬UInt32.size - 18 < 2147483631 by decide)
  · exact absurd full (show ¬0 + 1 = UInt64.size by decide)
  · have spends : Carousel.Spends config.halfFrameCycles.toNat f.report :=
      Carousel.spends_of_runFrame (by decide) ran
    have budget : config.halfFrameCycles.toNat = 2147483631 := rfl
    have beyond := spends.overflow (by decide)
    have within : f.report.Within config.halfFrameCycles.toNat := runFrame_within ran
    have first := within.first
    have second := within.second
    have firstHalf : f.report.first.toNat = 2147483648 := by omega
    have secondHalf : f.report.second.toNat = 2147483648 := by omega
    have report : f.report = ⟨2147483648, 2147483648⟩ :=
      congrArg₂ FrameReport.mk (UInt32.toNat_inj.mp firstHalf) (UInt32.toNat_inj.mp secondHalf)
    refine ⟨_, f, new_eq Carousel.roms config, ran, report, ?_⟩
    rw [report]
    rfl

end Machine
end Cabinet

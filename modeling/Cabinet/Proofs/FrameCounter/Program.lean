import Cabinet.Proofs.Rom.Install
import Cabinet.Proofs.System.HalfFrame
import Cabinet.Proofs.System.Interrupt

/-! A program that counts frames.

It sets up its stack, enables interrupts and jumps to itself for ever. The interrupt in the
middle of the screen takes it to a routine that copies port 1 into the second byte of the
picture, the one at the end of the screen to a routine that adds one to the first byte; both
come back to the jump. `Spinning` is the program at its jump and `Called` the program as an
interrupt has taken it from there; from its beginning and from either call it comes to the
jump (`comes_of_start`, `comes_of_count`, `comes_of_sample`), with no more than the one byte of
the picture changed. -/
namespace Cabinet.FrameCounter
open Cabinet.System

/-! ### The code -/

/-- The parts of the program, each with its address. -/
def parts : List (Nat × List UInt8) := [
  -- LXI SP,2400; EI; JMP 0004
  (0x00, [0x31, 0x00, 0x24, 0xfb, 0xc3, 0x04, 0x00]),
  -- vector 1: JMP 0030
  (0x08, [0xc3, 0x30, 0x00]),
  -- vector 2: JMP 0020
  (0x10, [0xc3, 0x20, 0x00]),
  -- PUSH PSW; LDA 2400; INR A; STA 2400; POP PSW; EI; RET
  (0x20, [0xf5, 0x3a, 0x00, 0x24, 0x3c, 0x32, 0x00, 0x24, 0xf1, 0xfb, 0xc9]),
  -- PUSH PSW; IN 01; STA 2401; POP PSW; EI; RET
  (0x30, [0xf5, 0xdb, 0x01, 0x32, 0x01, 0x24, 0xf1, 0xfb, 0xc9])]

/-- The byte at an address of the first chip; there is zero between the parts. -/
def cell (a : Nat) : UInt8 :=
  (parts.findSome? fun (base, code) => if base ≤ a then code[a - base]? else none).getD 0

/-- The program on the first chip, and nothing on the others. -/
def roms : RomSet where
  h := .ofFn fun i => cell i.val
  g := .replicate 2048 0
  f := .replicate 2048 0
  e := .replicate 2048 0

def loaded : Memory :=
  roms.installed .blank

theorem read_loaded {a : UInt16} (inside : a.toNat < 2048) : loaded.read a = cell a.toNat := by
  rw [loaded]
  exact RomSet.read_installed_first roms .blank cell rfl inside

theorem read_loaded_of_le {a : UInt16} (beyond : 8192 ≤ a.toNat) : loaded.read a = 0 := by
  rw [loaded, RomSet.read_installed_of_le _ _ beyond, Memory.read_blank]

/-- The instruction at an address. -/
def instructionAt (a : UInt16) : Instruction :=
  .decode (cell a.toNat)

/-- The word behind it. -/
def operandAt (a : UInt16) : UInt16 :=
  Word.join (cell (a + 2).toNat) (cell (a + 1).toNat)

/-! ### The picture -/

/-- The program is in memory as it was loaded, the picture begins with two bytes, and the rest
of it is dark. Nothing is said of the work space below the picture. -/
structure Shows (count sample : UInt8) (m : Memory) : Prop where
  rom : ∀ a : UInt16, a < 0x2000 → m.read a = loaded.read a
  count : m.read 0x2400 = count
  sample : m.read 0x2401 = sample
  dark : ∀ a : UInt16, 0x2402 ≤ a → a < 0x4000 → m.read a = 0

variable {count sample : UInt8} {m : Memory}

theorem shows_loaded : Shows 0 0 loaded where
  rom := fun _ _ => rfl
  count := read_loaded_of_le (by decide)
  sample := read_loaded_of_le (by decide)
  dark := fun a low _ => read_loaded_of_le (Nat.le_trans (by decide) (UInt16.le_iff_toNat_le.mp low))

/-- A write below the dark part is seen if it is to one of the two bytes. -/
theorem Shows.write (h : Shows count sample m) {a : UInt16} (low : 0x2000 ≤ a) (high : a < 0x2402)
    (v : UInt8) :
    Shows (if a = 0x2400 then v else count) (if a = 0x2401 then v else sample) (m.write a v) where
  rom := fun b hb => by
    rw [Memory.read_write, if_neg (by grind)]
    exact h.rom b hb
  count := by rw [Memory.read_write, h.count]
  sample := by rw [Memory.read_write, h.sample]
  dark := fun b hb hb' => by
    rw [Memory.read_write, if_neg (by grind)]
    exact h.dark b hb hb'

/-- A word pushed in the work space is not seen. -/
theorem Shows.writeWord (h : Shows count sample m) {a : UInt16} (low : 0x2000 ≤ a)
    (high : a < 0x23ff) (w : UInt16) : Shows count sample (m.writeWord a w) := by
  have first := h.write low (by grind) (Word.low w)
  rw [if_neg (by grind), if_neg (by grind)] at first
  have second := first.write (a := a + 1) (by grind) (by grind) (Word.high w)
  rwa [if_neg (by grind), if_neg (by grind)] at second

/-! ### Where the program is -/

/-- The program is to go on at `pc`, with its picture in memory. -/
structure At (pc sp : UInt16) (count sample : UInt8) (s : System Board) : Prop where
  pc : s.cpu.pc = pc
  sp : s.cpu.sp = sp
  running : s.cpu.halted = false
  shows : Shows count sample s.memory

/-- At its jump to itself. -/
structure Spinning (count sample : UInt8) (s : System Board) : Prop
    extends At 0x0004 0x2400 count sample s where
  enabled : s.cpu.interruptsEnabled = true

/-- In a routine, with the way back to the jump on the stack. -/
structure Serving (pc sp : UInt16) (count sample : UInt8) (s : System Board) : Prop
    extends At pc sp count sample s where
  back : s.memory.readWord 0x23fe = 0x0004

/-- At the beginning of a routine. -/
structure Called (pc : UInt16) (count sample : UInt8) (s : System Board) : Prop
    extends Serving pc 0x23fe count sample s where
  disabled : s.cpu.interruptsEnabled = false

/-- From the first system to the second by these instructions, with the board as it was. -/
structure Leads (s : System Board) (is : List Instruction) (t : System Board) : Prop where
  executes : Executes Board.device s is t
  device : t.device = s.device

variable {pc sp : UInt16} {s t u : System Board} {is js : List Instruction}

theorem Leads.append (h : Leads s is t) (h' : Leads t js u) : Leads s (is ++ js) u :=
  ⟨h.executes.append h'.executes, h'.device.trans h.device⟩

theorem At.read (h : At pc sp count sample s) {a : UInt16} (inside : a.toNat < 2048) :
    s.memory.read a = cell a.toNat := by
  rw [h.shows.rom a (UInt16.lt_iff_toNat_lt.mpr (Nat.lt_trans inside (by decide))),
    read_loaded inside]

/-- An address that wraps does not get further than one that does not. -/
theorem toNat_add_le (a d : UInt16) : (a + d).toNat ≤ a.toNat + d.toNat := by
  rw [UInt16.toNat_add]
  exact Nat.mod_le ..

/-- What is fetched is what is written there. -/
theorem At.fetches (h : At pc sp count sample s) (inside : pc.toNat < 2048) :
    s.Fetches (instructionAt pc) := by
  have fetched : s.fetch = instructionAt pc := by
    rw [System.fetch, h.pc, h.read inside]
    rfl
  exact fetched ▸ fetches_fetch h.running

theorem At.immediateWord (h : At pc sp count sample s) (inside : pc.toNat + 2 < 2048) :
    s.immediateWord = operandAt pc := by
  have first : (pc + 1).toNat ≤ pc.toNat + 1 := toNat_add_le pc 1
  have second : (pc + 2).toNat ≤ pc.toNat + 2 := toNat_add_le pc 2
  rw [System.immediateWord, h.pc, h.read (by omega), h.read (by omega), ← Word.join_eq_little]
  rfl

/-- The program does what is written where it is. -/
theorem At.step (h : At pc sp count sample s) {i : Instruction} {w : UInt16}
    (inside : pc.toNat + 2 < 2048) (code : instructionAt pc = i) (operand : operandAt pc = w) :
    (s.step Board.device).2 = perform Board.device (Word.low w) w (s.jump (pc + i.length)) i := by
  have fetches := h.fetches (by omega)
  have word := h.immediateWord inside
  have byte : s.immediate = Word.low s.immediateWord := s.low_immediateWord.symm
  rw [step_of_fetches _ fetches, execute_eq, byte, word, h.pc, code, operand]

theorem At.leads (h : At pc sp count sample s) {i : Instruction} {w : UInt16}
    (inside : pc.toNat + 2 < 2048) (code : instructionAt pc = i) (operand : operandAt pc = w)
    (result : perform Board.device (Word.low w) w (s.jump (pc + i.length)) i = t)
    (device : t.device = s.device) : Leads s [i] t := by
  refine ⟨?_, device⟩
  rw [← result, ← h.step inside code operand]
  exact .cons (code ▸ h.fetches (by omega)) .nil

/-! ### At the jump -/

/-- The jump to itself changes nothing. -/
theorem Spinning.step (h : Spinning count sample s) : (s.step Board.device).2 = s := by
  have pc := h.pc
  rw [h.toAt.step (by decide) (show _ = Instruction.jmp by decide) (show _ = 0x0004 by decide)]
  show s.jump 0x0004 = s
  rw [← pc]
  rfl

/-- An interrupt takes the program to its vector, with the way back on the stack. -/
theorem Spinning.interrupt (h : Spinning count sample s) {v : UInt8} (hv : v < 8) :
    Called (8 * v.toUInt16) count sample (s.interrupt v) ∧ (s.interrupt v).device = s.device := by
  have accepts := accepts_interrupt h.enabled hv
  have pushed : (s.interrupt v).memory = s.memory.writeWord 0x23fe 0x0004 := by
    rw [interrupt_of_enabled h.enabled, ← h.pc]
    show s.memory.writeWord (s.cpu.sp - 2) s.cpu.pc = _
    rw [h.sp]
    rfl
  refine ⟨?_, accepts.device⟩
  exact {
    pc := congrArg Processor.pc accepts.cpu
    sp := by
      rw [accepts.cpu]
      show s.cpu.sp - 2 = _
      rw [h.sp]
      rfl
    running := congrArg Processor.halted accepts.cpu
    shows := pushed ▸ h.shows.writeWord (by decide) (by decide) _
    back := by rw [pushed, Memory.readWord_writeWord]
    disabled := congrArg Processor.interruptsEnabled accepts.cpu }

/-! ### The routines -/

/-- A routine begins by saving the accumulator and the flags. -/
theorem Called.enter (h : Called pc count sample s) {a : UInt16} (inside : pc.toNat + 2 < 2048)
    (inside' : a.toNat + 2 < 2048) (jump : instructionAt pc = .jmp) (operand : operandAt pc = a)
    (save : instructionAt a = .push .psw) :
    ∃ t, Leads s [.jmp, .push .psw] t ∧ Serving (a + 1) 0x23fc count sample t := by
  let s₁ := s.jump a
  have first : Leads s [.jmp] s₁ := h.leads inside jump operand rfl rfl
  have at₁ : At a 0x23fe count sample s₁ := ⟨rfl, h.sp, h.running, h.shows⟩
  let s₂ := (s₁.jump (a + 1)).push (s.cpu.stackPair .psw)
  have second : Leads s₁ [.push .psw] s₂ := at₁.leads inside' save rfl rfl rfl
  have memory : s₂.memory = s.memory.writeWord 0x23fc (s.cpu.stackPair .psw) := by
    show s.memory.writeWord (s.cpu.sp - 2) _ = _
    rw [h.sp]
    rfl
  refine ⟨s₂, first.append second, ?_⟩
  exact {
    pc := rfl
    sp := by
      show s.cpu.sp - 2 = _
      rw [h.sp]
      rfl
    running := h.running
    shows := memory ▸ h.shows.writeWord (by decide) (by decide) _
    back := by
      rw [memory, Memory.writeWord, Memory.readWord_write _ _ (by decide) (by decide),
        Memory.readWord_write _ _ (by decide) (by decide), h.back] }

/-- It ends by bringing them back, enabling interrupts and returning to the jump. -/
theorem Serving.leave (h : Serving pc 0x23fc count sample s) (inside : pc.toNat + 4 < 2048)
    (restore : instructionAt pc = .pop .psw) (enable : instructionAt (pc + 1) = .ei)
    (back : instructionAt (pc + 2) = .ret) :
    ∃ t, Leads s [.pop .psw, .ei, .ret] t ∧ Spinning count sample t := by
  have inside₁ : (pc + 1).toNat ≤ pc.toNat + 1 := toNat_add_le pc 1
  have inside₂ : (pc + 2).toNat ≤ pc.toNat + 2 := toNat_add_le pc 2
  let s₁ := (s.jump (pc + 1)).drop.setStackPair .psw s.top
  have first : Leads s [.pop .psw] s₁ := h.leads (by omega) restore rfl rfl rfl
  have sp₁ : s₁.cpu.sp = 0x23fe := by
    show s.cpu.sp + 2 = _
    rw [h.sp]
    rfl
  have at₁ : At (pc + 1) 0x23fe count sample s₁ := ⟨rfl, sp₁, h.running, h.shows⟩
  let s₂ := perform Board.device 0 0 (s₁.jump (pc + 1 + 1)) .ei
  have second : Leads s₁ [.ei] s₂ := at₁.leads (by omega) enable rfl rfl rfl
  have at₂ : At (pc + 2) 0x23fe count sample s₂ := ⟨UInt16.add_assoc pc 1 1, sp₁, h.running, h.shows⟩
  let s₃ := (s₂.jump (pc + 2 + 1)).ret
  have third : Leads s₂ [.ret] s₃ := at₂.leads (by omega) back rfl rfl rfl
  refine ⟨s₃, first.append (second.append third), ?_⟩
  exact {
    pc := by
      show s.memory.readWord s₁.cpu.sp = _
      rw [sp₁, h.back]
    sp := by
      show s₁.cpu.sp + 2 = _
      rw [sp₁]
      rfl
    running := h.running
    shows := h.shows
    enabled := rfl }

/-- Between the two, one of the routines counts. -/
theorem Serving.counts (h : Serving 0x0021 0x23fc count sample s) :
    ∃ t, Leads s [.lda, .inr .a, .sta] t ∧ Serving 0x0028 0x23fc (count + 1) sample t := by
  let s₁ := (s.jump 0x0024).setOperand .a count
  have first : Leads s [.lda] s₁ := by
    refine h.leads (by decide) (by decide) (show _ = 0x2400 by decide) ?_ rfl
    show (s.jump 0x0024).setOperand .a (s.memory.read 0x2400) = s₁
    rw [h.shows.count]
  have at₁ : At 0x0024 0x23fc count sample s₁ := ⟨rfl, h.sp, h.running, h.shows⟩
  let s₂ := perform Board.device 0 0 (s₁.jump 0x0025) (.inr .a)
  have second : Leads s₁ [.inr .a] s₂ := at₁.leads (by decide) (by decide) rfl rfl rfl
  have at₂ : At 0x0025 0x23fc count sample s₂ := ⟨rfl, h.sp, h.running, h.shows⟩
  let s₃ := { s₂.jump 0x0028 with memory := s.memory.write 0x2400 (count + 1) }
  have third : Leads s₂ [.sta] s₃ :=
    at₂.leads (by decide) (by decide) (show _ = 0x2400 by decide) rfl rfl
  refine ⟨s₃, first.append (second.append third), ?_⟩
  exact {
    pc := rfl
    sp := h.sp
    running := h.running
    shows := h.shows.write (a := 0x2400) (by decide) (by decide) (count + 1)
    back := (Memory.readWord_write _ _ (by decide) (by decide)).trans h.back }

/-- The other one takes a sample of the buttons. -/
theorem Serving.samples (h : Serving 0x0031 0x23fc count sample s) :
    ∃ t, Leads s [.input, .sta] t ∧ Serving 0x0036 0x23fc count s.device.port1 t := by
  let s₁ := (s.jump 0x0033).setOperand .a s.device.port1
  have first : Leads s [.input] s₁ :=
    h.leads (by decide) (by decide) (show _ = 0x3201 by decide) rfl rfl
  have at₁ : At 0x0033 0x23fc count sample s₁ := ⟨rfl, h.sp, h.running, h.shows⟩
  let s₂ := { s₁.jump 0x0036 with memory := s.memory.write 0x2401 s.device.port1 }
  have second : Leads s₁ [.sta] s₂ :=
    at₁.leads (by decide) (by decide) (show _ = 0x2401 by decide) rfl rfl
  refine ⟨s₂, first.append second, ?_⟩
  exact {
    pc := rfl
    sp := h.sp
    running := h.running
    shows := h.shows.write (a := 0x2401) (by decide) (by decide) s.device.port1
    back := (Memory.readWord_write _ _ (by decide) (by decide)).trans h.back }

/-! ### Back to the jump -/

/-- The program comes to its jump in no more cycles than its longest way takes. -/
def Comes (count sample : UInt8) (s : System Board) : Prop :=
  ∃ is t, Leads s is t ∧ Instruction.cyclesOf is ≤ 76 ∧ Spinning count sample t

theorem comes_of_start (h : At 0x0000 sp count sample s) : Comes count sample s := by
  let s₁ := (s.jump 0x0003).setPair .sp 0x2400
  have first : Leads s [.lxi .sp] s₁ :=
    h.leads (by decide) (by decide) (show _ = 0x2400 by decide) rfl rfl
  have at₁ : At 0x0003 0x2400 count sample s₁ := ⟨rfl, rfl, h.running, h.shows⟩
  let s₂ := perform Board.device 0 0 (s₁.jump 0x0004) .ei
  have second : Leads s₁ [.ei] s₂ := at₁.leads (by decide) (by decide) rfl rfl rfl
  exact ⟨_, s₂, first.append second, by decide, ⟨rfl, rfl, h.running, h.shows⟩, rfl⟩

theorem comes_of_count (h : Called 0x0010 count sample s) : Comes (count + 1) sample s := by
  obtain ⟨t, enters, serving⟩ :=
    h.enter (by decide) (by decide) (by decide) (show _ = 0x0020 by decide) (by decide)
  obtain ⟨u, counts, counted⟩ := Serving.counts serving
  obtain ⟨v, leaves, spinning⟩ := counted.leave (by decide) (by decide) (by decide) (by decide)
  exact ⟨_, v, enters.append (counts.append leaves), by decide, spinning⟩

theorem comes_of_sample (h : Called 0x0008 count sample s) : Comes count s.device.port1 s := by
  obtain ⟨t, enters, serving⟩ :=
    h.enter (by decide) (by decide) (by decide) (show _ = 0x0030 by decide) (by decide)
  obtain ⟨u, samples, sampled⟩ := Serving.samples serving
  obtain ⟨v, leaves, spinning⟩ := sampled.leave (by decide) (by decide) (by decide) (by decide)
  rw [enters.device] at spinning
  exact ⟨_, v, enters.append (samples.append leaves), by decide, spinning⟩

end Cabinet.FrameCounter

import Cabinet.Board
import Cabinet.Proofs.Processor.Checked
import Cabinet.System.Step

/-! A step, with every computation on its way able to fail.

Addresses wrap, and cells are reached by addresses that cannot miss. What is left are the
sums of the arithmetic unit, the shifts and differences of the ports and the address of a
restart. A step or an interrupt that is laid out over these goes through in every system
and does what it does without the checks (`step_eq`, `interrupt_eq`). Nothing is asked of
the system: the shifter's window is never below its register by its type. -/
namespace Cabinet.Checked

/-! ### The board -/

/-- The window lies by its offset below the upper byte. -/
def window (s : Shifter) : Option UInt8 := do
  let distance ← minus 8 s.offset.val
  UInt8.ofNat <$> shiftRight 16 s.data.toNat distance

/-- The byte goes up by eight bits, what was there goes down by eight. -/
def feed (s : Shifter) (v : UInt8) : Option Shifter := do
  let upper ← shiftLeft 16 v.toNat 8
  let lower ← shiftRight 16 s.data.toNat 8
  return { s with data := UInt16.ofNat (upper ||| lower) }

/-- Port 2 as it is set up with the board. -/
def port2 (s : Switches) : Option UInt8 := do
  let above ← minus (max 3 (min s.ships 6)).toNat 3
  let hidden ← shiftLeft 8 1 7
  return (UInt8.ofNat above &&& 3) ||| (if s.coinInfo then 0 else UInt8.ofNat hidden)

def input (b : Board) (port : UInt8) : Option UInt8 :=
  if port = 3 then window b.shifter else some (b.input port)

def output (b : Board) (port v : UInt8) : Option Board :=
  if port = 4 then (fun shifter => { b with shifter := shifter }) <$> feed b.shifter v
  else some (b.output port v)

theorem window_eq (s : Shifter) : window s = some s.window := by
  have := s.offset.isLt
  rw [window, minus_of_le (by omega), Option.bind_eq_bind, Option.bind_some,
    shiftRight_of_lt _ (by omega)]
  rfl

/-- Both halves are where they were, and do not overlap. -/
theorem feed_eq (s : Shifter) (v : UInt8) : feed s v = some (s.feed v) := by
  have := v.toNat_lt
  have := s.data.toNat_lt
  have joined : UInt16.ofNat (v.toNat <<< 8 % 2 ^ 16 ||| s.data.toNat >>> 8) =
      Word.join v (Word.high s.data) := by
    apply UInt16.toNat_inj.mp
    have upper : v.toNat <<< 8 % 2 ^ 16 = v.toNat <<< 8 := by
      rw [Nat.shiftLeft_eq]
      exact Nat.mod_eq_of_lt (by omega)
    have lower : s.data.toNat >>> 8 < 2 ^ 8 := by
      rw [Nat.shiftRight_eq_div_pow]
      omega
    rw [upper, ← Nat.shiftLeft_add_eq_or_of_lt lower, Nat.shiftLeft_eq, Nat.shiftRight_eq_div_pow,
      Word.toNat_join, Word.toNat_high, UInt16.toNat_ofNat_of_lt']
    show _ < 65536
    omega
  rw [feed, shiftLeft_of_lt _ (by decide), shiftRight_of_lt _ (by decide), Shifter.feed, ← joined]
  rfl

theorem port2_eq (s : Switches) : port2 s = some s.port2 := by
  have above : minus (max 3 (min s.ships 6)).toNat 3 = some (max 3 (min s.ships 6) - 3).toNat :=
    Word.forall_byte
      (p := fun v => minus (max 3 (min v 6)).toNat 3 = some (max 3 (min v 6) - 3).toNat)
      (by decide +kernel) s.ships
  rw [port2, above, shiftLeft_of_lt _ (by decide), Option.bind_eq_bind, Option.bind_some,
    UInt8.ofNat_toNat]
  rfl

theorem input_eq (b : Board) (port : UInt8) : input b port = some (b.input port) := by
  unfold input
  split
  case isTrue third =>
    subst third
    exact window_eq b.shifter
  case isFalse => rfl

theorem output_eq (b : Board) (port v : UInt8) : output b port v = some (b.output port v) := by
  unfold output
  split
  case isTrue fourth =>
    subst fourth
    rw [feed_eq]
    rfl
  case isFalse => rfl

/-! ### The processor -/

/-- The number of a vector, shifted to its address. -/
def restartAddress (vector : UInt8) : Option UInt16 :=
  UInt16.ofNat <$> shiftLeft 16 (vector &&& 7).toNat 3

theorem restartAddress_eq (vector : UInt8) :
    restartAddress vector = some (System.restartAddress vector) := by
  rw [restartAddress, shiftLeft_of_lt _ (by decide)]
  refine congrArg some ?_
  exact Word.forall_byte
    (p := fun v => UInt16.ofNat ((v &&& 7).toNat <<< 3 % 2 ^ 16) = System.restartAddress v)
    (by decide +kernel) vector

/-- What an instruction does; those that only move, compare or count words that wrap cannot
fail. -/
def perform (byte : UInt8) (word : UInt16) (s : System Board) :
    Instruction → Option (System Board)
  | .alu op src => s.accumulate <$> apply op s.cpu.a (s.operand src) s.cpu.flags
  | .aluImm op => s.accumulate <$> apply op s.cpu.a byte s.cpu.flags
  | .dad p =>
    (fun r => (s.setPair .hl r.1).setFlags r.2) <$> addWord s.cpu.hl (s.cpu.pair p) s.cpu.flags
  | .daa => s.accumulate <$> decimalAdjust s.cpu.a s.cpu.flags
  | .ral => s.accumulate <$> rotateLeftCarry s.cpu.a s.cpu.flags
  | .rar => s.accumulate <$> rotateRightCarry s.cpu.a s.cpu.flags
  | .rst vector => s.call <$> restartAddress vector
  | .input => s.setOperand .a <$> input s.device byte
  | .output => (fun board => { s with device := board }) <$> output s.device byte s.cpu.a
  | i => some (s.perform Board.device byte word i)

theorem perform_eq (byte : UInt8) (word : UInt16) (s : System Board) (i : Instruction) :
    perform byte word s i = some (System.perform Board.device byte word s i) := by
  cases i with
  | alu op src =>
    show s.accumulate <$> apply op s.cpu.a (s.operand src) s.cpu.flags = _
    rw [apply_eq]
    rfl
  | aluImm op =>
    show s.accumulate <$> apply op s.cpu.a byte s.cpu.flags = _
    rw [apply_eq]
    rfl
  | dad p =>
    show _ <$> addWord s.cpu.hl (s.cpu.pair p) s.cpu.flags = _
    rw [addWord_eq]
    rfl
  | daa =>
    show s.accumulate <$> decimalAdjust s.cpu.a s.cpu.flags = _
    rw [decimalAdjust_eq]
    rfl
  | ral =>
    show s.accumulate <$> rotateLeftCarry s.cpu.a s.cpu.flags = _
    rw [rotateLeftCarry_eq]
    rfl
  | rar =>
    show s.accumulate <$> rotateRightCarry s.cpu.a s.cpu.flags = _
    rw [rotateRightCarry_eq]
    rfl
  | rst vector =>
    show s.call <$> restartAddress vector = _
    rw [restartAddress_eq]
    rfl
  | input =>
    show s.setOperand .a <$> input s.device byte = _
    rw [input_eq]
    rfl
  | output =>
    show _ <$> output s.device byte s.cpu.a = _
    rw [output_eq]
    rfl
  | _ => rfl

/-! ### The clock -/

def step (s : System Board) : Option (UInt32 × System Board) :=
  if s.cpu.halted then some (0, s)
  else
    let i := s.fetch
    let operands := s.cpu.pc + 1
    (fun t => (i.cycles, t)) <$>
      perform (s.memory.read operands) (s.memory.readWord operands) (s.jump (s.cpu.pc + i.length)) i

def interrupt (s : System Board) (vector : UInt8) : Option (System Board) :=
  if s.cpu.interruptsEnabled then
    { s with cpu := { s.cpu with interruptsEnabled := false, halted := false } }.call <$>
      restartAddress vector
  else some s

theorem step_eq (s : System Board) : step s = some (s.step Board.device) := by
  unfold step System.step
  split
  case isTrue => rfl
  case isFalse => exact congrArg (Option.map fun t => (s.fetch.cycles, t)) (perform_eq ..)

theorem interrupt_eq (s : System Board) (vector : UInt8) :
    interrupt s vector = some (s.interrupt vector) := by
  unfold interrupt System.interrupt
  split
  case isTrue =>
    rw [restartAddress_eq]
    rfl
  case isFalse => rfl

end Cabinet.Checked

import Cabinet.Proofs.System.Effects

/-! What an instruction can see.

An instruction reads its own bytes and at most two cells besides. `reads` lists them, from
the state before the step; nothing else in memory can make a difference. Two systems with
the same processor, whose memories agree on that list and whose devices answer alike, do
the same (`step_local`): the processors stay equal, both steps cost the same and say the
same to their devices, and no cell on which the memories agreed tells them apart
afterwards, nor does any that was written. So a read never comes after the instruction's
own write, and no byte is fetched that the instruction does not have. -/
namespace Cabinet

namespace Instruction
variable {σ : Type} (s : System σ)

/-! ### What is read -/

/-- The cells of the immediate operand of the instruction at the program counter. -/
def operands : List UInt16 :=
  if size (s.memory.read s.cpu.pc) = 3 then [s.cpu.pc + 1, s.cpu.pc + 2]
  else if size (s.memory.read s.cpu.pc) = 2 then [s.cpu.pc + 1]
  else []

/-- The cells an instruction reads apart from its own. -/
def sources : Instruction → List UInt16
  | .mov _ .m | .inr .m | .dcr .m | .alu _ .m => [s.cpu.word .h .l]
  | .ldax p => [s.cpu.word p.upper p.lower]
  | .lda => [s.immediateWord]
  | .lhld => [s.immediateWord, s.immediateWord + 1]
  | .ret | .pop _ | .xthl => [s.cpu.sp, s.cpu.sp + 1]
  | .rcc cond => if cond.Met s.cpu.flags then [s.cpu.sp, s.cpu.sp + 1] else []
  | _ => []

/-- The cells an instruction reads, its opcode first. -/
def reads (i : Instruction) : List UInt16 :=
  s.cpu.pc :: (operands s ++ i.sources s)

theorem length_operands_le : (operands s).length ≤ 2 := by
  unfold operands
  split
  · exact Nat.le_refl 2
  · split <;> simp

theorem length_sources_le (i : Instruction) : (i.sources s).length ≤ 2 := by
  unfold sources
  split <;> try split
  all_goals simp

theorem length_reads_le (i : Instruction) : (i.reads s).length ≤ 5 := by
  have := length_operands_le s
  have := i.length_sources_le s
  simp only [reads, List.length_cons, List.length_append]
  omega

end Instruction

namespace System
variable {σ τ : Type}

/-- The cells a step reads: those of the instruction at the program counter, and none if
the processor is halted. -/
def reads (s : System σ) : List UInt16 :=
  if s.cpu.halted then [] else s.fetch.reads s

/-- The cells a step writes. -/
def writes (s : System σ) : List UInt16 :=
  if s.cpu.halted then [] else (s.fetch.stores s).map Prod.fst

theorem length_reads_le (s : System σ) : s.reads.length ≤ 5 := by
  unfold reads
  split
  · exact Nat.zero_le _
  · exact s.fetch.length_reads_le s

/-- The system with its device listened to. -/
def listened (s : System σ) : System (Recorded σ) :=
  { cpu := s.cpu, memory := s.memory, device := ⟨s.device, []⟩ }

/-- What a step says to the device and hears from it. -/
def calls (dev : Device σ) (s : System σ) : List PortCall :=
  (s.listened.step dev.recorded).2.device.calls

/-! ### Two systems that an instruction cannot tell apart -/

/-- The processors are the same, one of them fetches `i`, and all that it reads is the same
for both. -/
structure Matches (i : Instruction) (s : System σ) (t : System τ) : Prop where
  fetches : s.Fetches i
  cpu : t.cpu = s.cpu
  cells : ∀ a ∈ i.reads s, t.memory.read a = s.memory.read a

section
variable {i : Instruction} {s : System σ} {t : System τ}

theorem Matches.source (h : Matches i s t) {a : UInt16} (ha : a ∈ i.sources s) :
    t.memory.read a = s.memory.read a :=
  h.cells a (List.mem_cons_of_mem _ (List.mem_append_right _ ha))

theorem Matches.word (h : Matches i s t) {a : UInt16} (read : i.sources s = [a, a + 1]) :
    t.memory.readWord a = s.memory.readWord a := by
  unfold Memory.readWord
  rw [h.source (a := a) (by simp [read]), h.source (a := a + 1) (by simp [read])]

/-- The word on top of the stack is the same in both, if it is read. -/
theorem Matches.top (h : Matches i s t) (read : i.sources s = [s.cpu.sp, s.cpu.sp + 1]) :
    t.top = s.top := by
  unfold System.top
  rw [h.cpu, h.word read]

theorem Matches.operand_cell (h : Matches i s t) {a : UInt16} (ha : a ∈ Instruction.operands s) :
    t.memory.read a = s.memory.read a :=
  h.cells a (List.mem_cons_of_mem _ (List.mem_append_left _ ha))

theorem Matches.immediate (h : Matches i s t) (long : i.length = 2) :
    t.immediate = s.immediate := by
  unfold System.immediate
  rw [h.cpu]
  apply h.operand_cell
  simp [Instruction.operands, h.fetches.size_eq, long]

theorem Matches.immediateWord (h : Matches i s t) (long : i.length = 3) :
    t.immediateWord = s.immediateWord := by
  have operands : Instruction.operands s = [s.cpu.pc + 1, s.cpu.pc + 2] := by
    simp [Instruction.operands, h.fetches.size_eq, long]
  unfold System.immediateWord
  rw [h.cpu, h.operand_cell (a := s.cpu.pc + 1) (by simp [operands]),
    h.operand_cell (a := s.cpu.pc + 2) (by simp [operands])]

/-- An operand is the same in both, if its cell is read. -/
theorem Matches.value (h : Matches i s t) {o : Operand}
    (read : o = .m → i.sources s = [s.cpu.word .h .l]) : o.value t = o.value s := by
  cases o with
  | m =>
    show t.memory.read (t.cpu.word .h .l) = _
    rw [h.cpu]
    exact h.source (by simp [read])
  | _ => simp only [Operand.value, Operand.register?, h.cpu]

theorem Matches.operand (h : Matches i s t) {o : Operand}
    (read : o = .m → i.sources s = [s.cpu.word .h .l]) : t.operand o = s.operand o := by
  rw [operand_eq_value, operand_eq_value, h.value read]

end

/-! ### One instruction -/

variable {dev : Device σ} {dev' : Device τ} {i : Instruction} {s : System σ} {t : System τ}

/-- What is read decides what becomes of the processor. -/
theorem Matches.execute_cpu (h : Matches i s t)
    (answers : ∀ port, (dev'.input port t.device).1 = (dev.input port s.device).1) :
    (t.execute dev' i).cpu = (s.execute dev i).cpu := by
  rw [execute_eq, execute_eq]
  obtain ⟨c, m, d⟩ := s
  obtain ⟨c', m', d'⟩ := t
  obtain rfl : c' = c := h.cpu
  cases i with
  | mov dst src =>
    rw [perform, perform, operand_jump, operand_jump, h.operand (by rintro rfl; rfl)]
    cases dst <;> rfl
  | inr dst | dcr dst =>
    rw [perform, perform, operand_jump, operand_jump, h.operand (by rintro rfl; rfl)]
    cases dst <;> rfl
  | alu op src =>
    rw [perform, perform, operand_jump, operand_jump, h.operand (by rintro rfl; rfl)]
    rfl
  | mvi dst =>
    rw [h.immediate rfl]
    cases dst <;> rfl
  | aluImm op =>
    rw [h.immediate rfl]
    rfl
  | lxi _ | jmp | call =>
    rw [h.immediateWord rfl]
    rfl
  | jcc cond | ccc cond =>
    rw [h.immediateWord rfl]
    cases taken : cond.holds c'.flags <;>
      simp only [perform, flags_jump, taken, if_true, Bool.false_eq_true, if_false] <;> rfl
  | lda =>
    rw [h.immediateWord rfl]
    exact congrArg (fun v => { c' with pc := c'.pc + 3, a := v })
      (h.source (List.mem_singleton.mpr rfl))
  | ldax p =>
    have cell : m'.read (c'.word p.upper p.lower) = m.read (c'.word p.upper p.lower) :=
      h.source (List.mem_singleton.mpr rfl)
    rw [← c'.indexPair_eq_word] at cell
    exact congrArg (fun v => { c' with pc := c'.pc + 1, a := v }) cell
  | lhld =>
    rw [h.immediateWord rfl]
    exact congrArg (Processor.setPair { c' with pc := c'.pc + 3 } .hl) (h.word rfl)
  | ret =>
    exact congrArg (fun w => { c' with sp := c'.sp + 2, pc := w }) (h.top rfl)
  | rcc cond =>
    simp only [perform, flags_jump, Condition.holds_iff_met]
    by_cases taken : cond.Met c'.flags
    · rw [if_pos taken, if_pos taken]
      exact congrArg (fun w => { c' with sp := c'.sp + 2, pc := w }) (h.top (if_pos taken))
    · rw [if_neg taken, if_neg taken]
      rfl
  | pop p =>
    exact congrArg (Processor.setStackPair { c' with sp := c'.sp + 2, pc := c'.pc + 1 } p)
      (h.top rfl)
  | xthl =>
    exact congrArg (Processor.setPair { c' with pc := c'.pc + 1 } .hl) (h.top rfl)
  | input =>
    rw [h.immediate rfl]
    exact congrArg (fun v => { c' with pc := c'.pc + 2, a := v }) (answers _)
  | _ => rfl

/-- The same is written, to the same cells. -/
theorem Matches.stores_eq (h : Matches i s t) : i.stores t = i.stores s := by
  cases i with
  | mov dst src =>
    cases dst with
    | m =>
      rw [Instruction.stores, Instruction.stores, h.value (by rintro rfl; rfl), h.cpu]
    | _ => rfl
  | mvi dst =>
    cases dst with
    | m =>
      rw [Instruction.stores, Instruction.stores, h.immediate rfl, h.cpu]
    | _ => rfl
  | inr dst | dcr dst =>
    cases dst with
    | m =>
      rw [Instruction.stores, Instruction.stores, h.cpu, h.source (by simp [Instruction.sources])]
    | _ => rfl
  | sta | shld => rw [Instruction.stores, Instruction.stores, h.immediateWord rfl, h.cpu]
  | push p => cases p <;> simp only [Instruction.stores, pushed, h.cpu]
  | call | ccc _ | rst _ => simp only [Instruction.stores, pushedWord, pushed, h.cpu]
  | stax _ | xthl => simp only [Instruction.stores, h.cpu]
  | _ => rfl

/-- The calls of an instruction: one, or none. -/
def called (dev : Device σ) (s : System σ) : Instruction → List PortCall
  | .input => [.input s.immediate (dev.input s.immediate s.device).1]
  | .output => [.output s.immediate s.cpu.a]
  | _ => []

theorem Matches.called_eq (h : Matches i s t)
    (answers : ∀ port, (dev'.input port t.device).1 = (dev.input port s.device).1) :
    called dev' t i = called dev s i := by
  cases i with
  | input => rw [called, called, h.immediate rfl, answers]
  | output => rw [called, called, h.immediate rfl, h.cpu]
  | _ => rfl

theorem calls_of_fetches (dev : Device σ) (h : s.Fetches i) : s.calls dev = called dev s i := by
  have listened : s.listened.Fetches i := ⟨h.running, h.opcode⟩
  unfold calls
  rw [step_of_fetches _ listened]
  show (s.listened.execute dev.recorded i).device.calls = _
  rw [execute_device]
  cases i <;> rfl

theorem calls_of_halted (dev : Device σ) (h : s.cpu.halted = true) : s.calls dev = [] := by
  unfold calls
  rw [step_of_halted (s := s.listened) _ h]
  rfl

/-- A cell that agreed is kept or written in both; one that is written is written in both
with the same byte. -/
theorem Matches.execute_read (h : Matches i s t) {a : UInt16}
    (ha : t.memory.read a = s.memory.read a ∨ a ∈ (i.stores s).map Prod.fst) :
    (t.execute dev' i).memory.read a = (s.execute dev i).memory.read a := by
  have mine := stored_execute dev s i
  have yours := stored_execute dev' t i
  rw [h.stores_eq] at yours
  by_cases written : a ∈ (i.stores s).map Prod.fst
  · obtain ⟨⟨_, v⟩, listed, rfl⟩ := List.mem_map.mp written
    rw [mine.written _ v listed, yours.written _ v listed]
  · have unlisted : ∀ v, (a, v) ∉ i.stores s := fun v listed =>
      written (List.mem_map.mpr ⟨(a, v), listed, rfl⟩)
    rw [mine.kept a unlisted, yours.kept a unlisted, ha.resolve_right written]

/-! ### One step -/

/-- The steps of the two systems cannot be told apart. -/
structure Alike (dev : Device σ) (dev' : Device τ) (s : System σ) (t : System τ) : Prop where
  cycles : (t.step dev').1 = (s.step dev).1
  cpu : (t.step dev').2.cpu = (s.step dev).2.cpu
  calls : t.calls dev' = s.calls dev
  memory : ∀ a, t.memory.read a = s.memory.read a ∨ a ∈ s.writes →
    (t.step dev').2.memory.read a = (s.step dev).2.memory.read a

theorem alike_of_halted (cpu : t.cpu = s.cpu) (halted : s.cpu.halted = true) :
    Alike dev dev' s t := by
  have halted' : t.cpu.halted = true := by rw [cpu, halted]
  have none_written : s.writes = [] := if_pos halted
  constructor
  · rw [step_of_halted dev halted, step_of_halted dev' halted']
  · rw [step_of_halted dev halted, step_of_halted dev' halted', cpu]
  · rw [calls_of_halted dev halted, calls_of_halted dev' halted']
  · rw [step_of_halted dev halted, step_of_halted dev' halted', none_written]
    exact fun _ ha => ha.resolve_right List.not_mem_nil

/-- Both fetch the instruction that one does. -/
theorem Matches.both_fetch (h : Matches i s t) : t.Fetches i where
  running := by rw [h.cpu, h.fetches.running]
  opcode := by
    rw [h.cpu, h.cells s.cpu.pc (List.mem_cons_self ..)]
    exact h.fetches.opcode

theorem Matches.alike (h : Matches i s t)
    (answers : ∀ port, (dev'.input port t.device).1 = (dev.input port s.device).1) :
    Alike dev dev' s t := by
  have fetches := h.fetches
  have fetches' := h.both_fetch
  have written : s.writes = (i.stores s).map Prod.fst := by
    unfold writes
    rw [fetches.running, fetches.fetch_eq]
    rfl
  constructor
  · rw [step_of_fetches dev fetches, step_of_fetches dev' fetches']
  · rw [step_of_fetches dev fetches, step_of_fetches dev' fetches']
    exact h.execute_cpu answers
  · rw [calls_of_fetches dev fetches, calls_of_fetches dev' fetches']
    exact h.called_eq answers
  · rw [step_of_fetches dev fetches, step_of_fetches dev' fetches', written]
    exact fun _ => h.execute_read

/-- **A step sees no more than it reads**, five cells at most. From the same processor, with
memories that agree on these cells and devices that answer alike, the steps of two systems
end in the same processor at the same cost and with the same calls, and leave memories that
agree wherever they did before and wherever they are written. -/
theorem step_local (dev : Device σ) (dev' : Device τ) {s : System σ} {t : System τ}
    (cpu : t.cpu = s.cpu) (agree : ∀ a ∈ s.reads, t.memory.read a = s.memory.read a)
    (answers : ∀ port, (dev'.input port t.device).1 = (dev.input port s.device).1) :
    s.reads.length ≤ 5 ∧ Alike dev dev' s t := by
  refine ⟨s.length_reads_le, ?_⟩
  rcases s.halted_or_fetches with halted | ⟨i, fetches⟩
  · exact alike_of_halted cpu halted
  · have read : s.reads = i.reads s := by
      unfold reads
      rw [fetches.running, fetches.fetch_eq]
      rfl
    rw [read] at agree
    exact Matches.alike ⟨fetches, cpu, agree⟩ answers

/-- An exchange with a stack that wraps: its upper byte is the instruction's own opcode. -/
theorem step_local_around :
    let s : System Unit :=
      { cpu := { h := 1, l := 2, sp := 0xffff }, memory := Memory.blank.write 0 0xe3, device := () }
    let t := { s with memory := s.memory.write 0x2000 0x55 }
    s.reads = [0, 0xffff, 0] ∧ t.cpu = s.cpu ∧
      (∀ a ∈ s.reads, t.memory.read a = s.memory.read a) ∧
      s.reads.length ≤ 5 ∧ Alike .unconnected .unconnected s t := by
  intro s t
  have fetch : s.fetch = .xthl := by
    show Instruction.decode ((Memory.blank.write 0 0xe3).read 0) = _
    rw [Memory.read_write, if_pos rfl]
    rfl
  have reads : s.reads = [0, 0xffff, 0] := by
    unfold System.reads
    rw [fetch]
    decide
  have agree : ∀ a ∈ s.reads, t.memory.read a = s.memory.read a := by
    intro a ha
    show (s.memory.write 0x2000 0x55).read a = s.memory.read a
    rw [Memory.read_write, if_neg]
    rintro rfl
    rw [reads] at ha
    exact absurd ha (by decide)
  exact ⟨reads, rfl, agree, step_local .unconnected .unconnected rfl agree fun _ => rfl⟩

end System
end Cabinet

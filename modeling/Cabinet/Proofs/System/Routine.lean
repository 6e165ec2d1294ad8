import Cabinet.Proofs.System.Interrupt
import Cabinet.Proofs.System.Stack

/-! Routines that leave no trace.

A routine is entered by an interrupt, a call or a restart, saves pairs of registers on the
stack, works, brings them back in the other order, enables interrupts and returns. If its
work keeps the cells of the stack that hold the return address and the saved pairs, and ends
with the stack pointer where the saving left it, nobody can tell from the saved registers,
the stack pointer or the program counter that it has run (`routine_transparent`). The stack
may wrap around the end of the address space, and may take all of it. -/
namespace Cabinet.System
variable {σ : Type} {dev : Device σ} {s t u : System σ} {back : UInt16}

/-- The ways into a routine, each with the address it leaves to return to. -/
inductive Enters (dev : Device σ) (s : System σ) : UInt16 → System σ → Prop
  | interrupted {v : UInt8} (enabled : s.cpu.interruptsEnabled = true) :
    Enters dev s s.cpu.pc (s.interrupt v)
  | called : Enters dev s (s.cpu.pc + 3) (s.execute dev .call)
  | calledIf {cond : Condition} (met : cond.Met s.cpu.flags) :
    Enters dev s (s.cpu.pc + 3) (s.execute dev (.ccc cond))
  | restarted {n : UInt8} : Enters dev s (s.cpu.pc + 1) (s.execute dev (.rst n))

theorem pushes_call (dev : Device σ) (s : System σ) :
    Pushes s (s.cpu.pc + 3) (s.execute dev .call) :=
  ⟨rfl, rfl, fun p => by cases p <;> rfl⟩

/-- However it is entered, the return address is pushed and no register changes. -/
theorem Enters.pushes (h : Enters dev s back t) : Pushes s back t := by
  cases h with
  | @interrupted v enabled =>
    rw [interrupt_of_enabled enabled]
    exact ⟨rfl, rfl, fun p => by cases p <;> rfl⟩
  | called => exact pushes_call dev s
  | @calledIf cond met =>
    have taken : s.execute dev (.ccc cond) = s.execute dev .call := by
      rw [execute_eq, execute_eq]
      exact if_pos (Condition.holds_iff_met.mpr met)
    rw [taken]
    exact pushes_call dev s
  | restarted => exact ⟨rfl, rfl, fun p => by cases p <;> rfl⟩

/-- What the work of a routine, from `t` to `u`, is to keep: the stack pointer, and the `n`
cells below `base`. All else it may change. -/
structure Keeps (base : UInt16) (n : Nat) (t u : System σ) : Prop where
  sp : u.cpu.sp = t.cpu.sp
  cells : ∀ a, Below base n a → u.memory.read a = t.memory.read a

/-- What is to be seen in `t`, after a routine that was entered from `s`, had saved the pairs
`ps` when it was in `saved`, and had done its work when it was in `u`. -/
structure Transparent (s : System σ) (back : UInt16) (ps : List StackPair)
    (saved u t : System σ) : Prop where
  pc : t.cpu.pc = back
  sp : t.cpu.sp = s.cpu.sp
  pairs : ∀ p ∈ ps, ∀ r ∈ p.registers, t.cpu.register r = s.cpu.register r
  psw : .psw ∈ ps → t.cpu.a = s.cpu.a ∧ t.cpu.flags = s.cpu.flags
  interrupts : t.cpu.interruptsEnabled = true
  /-- Entering and saving write the return address and the pairs, two cells each. -/
  entry : ∀ a, ¬Below s.cpu.sp (2 * ps.length + 2) a → saved.memory.read a = s.memory.read a
  /-- The way out writes nothing. -/
  exit : t.memory = u.memory

/-- Enabling interrupts and returning move nothing but the interrupt switch, the stack
pointer and the program counter. -/
theorem leave_cpu (dev : Device σ) (s : System σ) :
    (s.executeAll dev [.ei, .ret]).cpu =
      { s.cpu with
        sp := s.cpu.sp + 2
        pc := s.top
        interruptsEnabled := true } := by
  simp only [executeAll, List.foldl_cons, List.foldl_nil, execute_eq, perform, ret, drop, jump, top]

theorem leave_memory (dev : Device σ) (s : System σ) :
    (s.executeAll dev [.ei, .ret]).memory = s.memory := by
  simp only [executeAll, List.foldl_cons, List.foldl_nil, execute_eq, perform, ret, drop, jump]

/-- **A routine that saves what it uses leaves no trace of itself**, whatever it works on and
however it is entered: control is back where it was interrupted, with the stack pointer and
every saved pair as they were and interrupts enabled, and no memory is written but what the
stack takes. -/
theorem routine_transparent {ps : List StackPair} {entered : System σ}
    (enters : Enters dev s back entered) (fits : ps.length ≤ 32767)
    (work : Keeps s.cpu.sp (2 * ps.length + 2) (entered.executeAll dev (ps.map .push)) u) :
    Transparent s back ps (entered.executeAll dev (ps.map .push)) u
      (u.executeAll dev (ps.reverse.map .pop ++ [.ei, .ret])) := by
  have pushes := enters.pushes
  have room : 2 * ps.length + 2 ≤ 65536 := by omega
  have inner : Restored entered ps u (u.executeAll dev (ps.reverse.map .pop)) :=
    restored (by omega) work.sp fun a ha =>
      work.cells a ((below_add_two room).mpr (.inr (.inr (pushes.sp ▸ ha))))
  have top : u.memory.readWord entered.cpu.sp = back := pushes.readWord_under room work.cells
  rw [executeAll_append]
  generalize u.executeAll dev (ps.reverse.map .pop) = v at inner
  have pairs : ∀ p ∈ ps, (v.executeAll dev [.ei, .ret]).cpu.stackPair p = s.cpu.stackPair p := by
    intro p hp
    rw [← pushes.pairs, ← inner.pairs p hp, leave_cpu]
    cases p <;> rfl
  exact {
    pc := by rw [leave_cpu, System.top, inner.sp, inner.memory, top]
    sp := by
      rw [leave_cpu, inner.sp, pushes.sp]
      grind
    pairs := fun p hp _ => Processor.register_of_stackPair (pairs p hp)
    psw := fun saved => Processor.psw_inj (pairs .psw saved)
    interrupts := by rw [leave_cpu]
    entry := by
      intro a ha
      rw [below_add_two room, not_or, not_or] at ha
      obtain ⟨first, second, rest⟩ := ha
      rw [← pushes.sp] at rest
      rw [executeAll_push_kept (by omega) rest, pushes.kept first second]
    exit := (leave_memory dev v).trans inner.memory }

/-- An interrupt with the stack at the bottom of the memory: it goes on from the top. The
work clears every register, halts and writes elsewhere. -/
theorem routine_transparent_around :
    let s : System Unit :=
      { cpu := { a := 7, h := 1, l := 2, sp := 1, pc := 0x1234, flags := { zero := true } }
        memory := .blank
        device := () }
    let ps : List StackPair := [.psw, .hl, .psw]
    let saved := (s.interrupt 1).executeAll .unconnected (ps.map .push)
    let u : System Unit :=
      { cpu := { sp := saved.cpu.sp, halted := true }
        memory := saved.memory.write 0x2000 0xff
        device := () }
    Enters .unconnected s 0x1234 (s.interrupt 1) ∧ ps.length ≤ 32767 ∧
      Keeps s.cpu.sp (2 * ps.length + 2) saved u ∧
      Transparent s 0x1234 ps saved u
        (u.executeAll .unconnected (ps.reverse.map .pop ++ [.ei, .ret])) := by
  intro s ps saved u
  have enters : Enters .unconnected s 0x1234 (s.interrupt 1) := .interrupted rfl
  have work : Keeps s.cpu.sp (2 * ps.length + 2) saved u := by
    refine ⟨rfl, fun a ha => ?_⟩
    show (saved.memory.write 0x2000 0xff).read a = saved.memory.read a
    rw [Memory.read_write, if_neg]
    rintro rfl
    exact absurd ha (by decide)
  exact ⟨enters, by decide, work, routine_transparent enters (by decide) work⟩

end Cabinet.System

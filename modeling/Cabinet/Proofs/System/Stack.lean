import Cabinet.Proofs.System.ControlFlow
import Cabinet.Proofs.System.Stores

/-! The stack, as far as it is in use.

Pushing writes the two cells below the stack pointer and moves it there, so pushes one after
the other write downwards, around the end of the address space if need be, and never a cell
twice before all 65536 are used (`below_add_two`). Whatever happens between the pushes and
the pops, if it keeps these cells and brings the stack pointer back, the pops in the other
order find what was pushed (`restored`). -/
namespace Cabinet

/-! ### The cells below an address -/

/-- The cell `a` is one of the `n` cells under `sp`. The first of them is the one just below
it, and after the cell 0 comes the cell 65535. -/
def Below (sp : UInt16) (n : Nat) (a : UInt16) : Prop :=
  (sp - 1 - a).toNat < n

instance (sp : UInt16) (n : Nat) (a : UInt16) : Decidable (Below sp n a) :=
  inferInstanceAs (Decidable (_ < _))

/-- The first two cells, and those below them. -/
theorem below_add_two {sp a : UInt16} {n : Nat} (fits : n + 2 ≤ 65536) :
    Below sp (n + 2) a ↔ a = sp - 1 ∨ a = sp - 2 ∨ Below (sp - 2) n a := by
  have := sp.toNat_lt
  have := a.toNat_lt
  simp only [Below, ← UInt16.toNat_inj, UInt16.toNat_sub, UInt16.reduceToNat]
  omega

/-- Fewer cells than all do not come around to where they began. -/
theorem not_below_of_above {sp a : UInt16} {n : Nat} (fits : n + 2 ≤ 65536)
    (h : a = sp - 1 ∨ a = sp - 2) : ¬Below (sp - 2) n a := by
  have := sp.toNat_lt
  have := a.toNat_lt
  simp only [Below, ← UInt16.toNat_inj, UInt16.toNat_sub, UInt16.reduceToNat] at h ⊢
  omega

/-! ### Pairs of registers -/

namespace Processor
variable (c d : Processor)

/-- What was stored of a pair brings it back, the flags included. -/
theorem stackPair_setStackPair_self (p : StackPair) :
    (c.setStackPair p (d.stackPair p)).stackPair p = d.stackPair p := by
  cases p <;> simp [stackPair, setStackPair, pair, setPair]

theorem stackPair_setStackPair_of_ne {p q : StackPair} (w : UInt16) (h : p ≠ q) :
    (c.setStackPair q w).stackPair p = c.stackPair p := by
  cases p <;> cases q <;> first | exact absurd rfl h | rfl

theorem high_stackPair (p : StackPair) : Word.high (c.stackPair p) = c.register p.upper := by
  cases p <;> exact Word.high_join ..

theorem low_stackPair {p : StackPair} {r : Register} (h : p.lower? = some r) :
    Word.low (c.stackPair p) = c.register r := by
  cases p <;> cases h <;> exact Word.low_join ..

/-- The registers of a pair can be read off its word. -/
theorem register_of_stackPair {c d : Processor} {p : StackPair} {r : Register}
    (h : c.stackPair p = d.stackPair p) (hr : r ∈ p.registers) : c.register r = d.register r := by
  rcases List.mem_cons.mp hr with rfl | lower
  · rw [← high_stackPair, ← high_stackPair, h]
  · have hl := Option.mem_toList.mp lower
    rw [← low_stackPair c hl, ← low_stackPair d hl, h]

/-- The accumulator and the flags can be read off their word. -/
theorem psw_inj {c d : Processor} (h : c.stackPair .psw = d.stackPair .psw) :
    c.a = d.a ∧ c.flags = d.flags := by
  have low := congrArg (Flags.ofByte ∘ Word.low) h
  exact ⟨register_of_stackPair h (List.mem_cons_self ..), by simpa [stackPair] using low⟩

end Processor

namespace System
variable {σ : Type} {dev : Device σ} {s t u : System σ} {w : UInt16}

/-! ### One word -/

/-- The word `w` has been pushed, and what the pushed pairs are made of is as it was. -/
structure Pushes (s : System σ) (w : UInt16) (t : System σ) : Prop where
  sp : t.cpu.sp = s.cpu.sp - 2
  memory : t.memory = (s.push w).memory
  pairs : ∀ p, t.cpu.stackPair p = s.cpu.stackPair p

theorem pushes_push (dev : Device σ) (s : System σ) (p : StackPair) :
    Pushes s (s.cpu.stackPair p) (s.execute dev (.push p)) where
  sp := execute_sp dev (.push p)
  memory := by cases p <;> rfl
  pairs := fun q => by cases q <;> rfl

theorem Pushes.kept (h : Pushes s w t) {a : UInt16} (first : a ≠ s.cpu.sp - 1)
    (second : a ≠ s.cpu.sp - 2) : t.memory.read a = s.memory.read a := by
  rw [h.memory]
  apply (s.stored_push w).kept
  simp [pushed, first, second]

/-- The word is found where it was pushed in every memory that has kept its two cells. -/
theorem Pushes.readWord (h : Pushes s w t) {m : Memory}
    (kept : ∀ a, a = s.cpu.sp - 1 ∨ a = s.cpu.sp - 2 → m.read a = t.memory.read a) :
    m.readWord t.cpu.sp = w := by
  have above : s.cpu.sp - 2 + 1 = s.cpu.sp - 1 := by grind
  have high := (s.stored_push w).written (s.cpu.sp - 1) (Word.high w) (by simp [pushed])
  have low := (s.stored_push w).written (s.cpu.sp - 2) (Word.low w) (by simp [pushed])
  rw [← h.memory] at high low
  unfold Memory.readWord
  rw [h.sp, above, kept _ (.inl rfl), kept _ (.inr rfl), high, low, Word.join_high_low]

/-- The pair `p` has been popped: it holds the word on top, the others are as they were. -/
structure Pops (p : StackPair) (d : Processor) (s t : System σ) : Prop where
  sp : t.cpu.sp = s.cpu.sp + 2
  memory : t.memory = s.memory
  popped : t.cpu.stackPair p = d.stackPair p
  others : ∀ q, q ≠ p → t.cpu.stackPair q = s.cpu.stackPair q

/-- A pair is popped from a word that was stored of that pair of some processor. -/
theorem pops_pop (dev : Device σ) {p : StackPair} {d : Processor} (h : s.top = d.stackPair p) :
    Pops p d s (s.execute dev (.pop p)) where
  sp := execute_sp dev (.pop p)
  memory := rfl
  popped := by
    show ((s.jump (s.cpu.pc + 1)).drop.cpu.setStackPair p s.top).stackPair p = d.stackPair p
    rw [h, Processor.stackPair_setStackPair_self]
  others := by
    intro q hq
    show ((s.jump (s.cpu.pc + 1)).drop.cpu.setStackPair p s.top).stackPair q = _
    rw [Processor.stackPair_setStackPair_of_ne _ _ hq]
    cases q <;> rfl

/-! ### Many words -/

variable (dev) in
/-- The instructions one after the other. -/
def executeAll (s : System σ) (is : List Instruction) : System σ :=
  is.foldl (execute dev) s

theorem executeAll_append (s : System σ) (is js : List Instruction) :
    s.executeAll dev (is ++ js) = (s.executeAll dev is).executeAll dev js :=
  List.foldl_append ..

/-- Pushing writes below the stack pointer, two cells for each pair. -/
theorem executeAll_push_kept {ps : List StackPair} (fits : 2 * ps.length ≤ 65536) {a : UInt16}
    (h : ¬Below s.cpu.sp (2 * ps.length) a) :
    (s.executeAll dev (ps.map .push)).memory.read a = s.memory.read a := by
  induction ps generalizing s with
  | nil => rfl
  | cons p ps ih =>
    have pushes := pushes_push dev s p
    rw [List.length_cons, Nat.mul_succ] at fits h
    rw [below_add_two fits, not_or, not_or, ← pushes.sp] at h
    obtain ⟨first, second, rest⟩ := h
    rw [← pushes.kept first second]
    exact ih (by omega) rest

/-- A word is found again under all that is pushed later, in every memory that has kept their
cells. -/
theorem Pushes.readWord_under (h : Pushes s w t) {ps : List StackPair}
    (fits : 2 * ps.length + 2 ≤ 65536) {m : Memory}
    (kept : ∀ a, Below s.cpu.sp (2 * ps.length + 2) a →
      m.read a = (t.executeAll dev (ps.map .push)).memory.read a) :
    m.readWord t.cpu.sp = w := by
  refine h.readWord fun a ha => ?_
  rw [kept a ((below_add_two fits).mpr (or_assoc.mp (.inl ha)))]
  refine executeAll_push_kept (by omega) ?_
  rw [h.sp]
  exact not_below_of_above fits ha

/-- What the pops make of the system `u`, if the pairs were pushed from `s`. -/
structure Restored (s : System σ) (ps : List StackPair) (u t : System σ) : Prop where
  sp : t.cpu.sp = s.cpu.sp
  memory : t.memory = u.memory
  pairs : ∀ p ∈ ps, t.cpu.stackPair p = s.cpu.stackPair p

/-- **What is pushed comes back**, in whatever system the pops begin, if the stack pointer
and the cells pushed to are as the pushes left them. -/
theorem restored {ps : List StackPair} (fits : 2 * ps.length ≤ 65536)
    (sp : u.cpu.sp = (s.executeAll dev (ps.map .push)).cpu.sp)
    (kept : ∀ a, Below s.cpu.sp (2 * ps.length) a →
      u.memory.read a = (s.executeAll dev (ps.map .push)).memory.read a) :
    Restored s ps u (u.executeAll dev (ps.reverse.map .pop)) := by
  induction ps generalizing s with
  | nil => exact ⟨sp, rfl, nofun⟩
  | cons p ps ih =>
    have pushes := pushes_push dev s p
    have step : s.executeAll dev ((p :: ps).map .push) =
        (s.execute dev (.push p)).executeAll dev (ps.map .push) := rfl
    rw [List.length_cons, Nat.mul_succ] at fits kept
    rw [step] at sp kept
    -- The pops of the pairs pushed later leave the stack as the push of `p` did.
    have inner := ih (by omega) sp fun a ha =>
      kept a ((below_add_two fits).mpr (.inr (.inr (pushes.sp ▸ ha))))
    have top : u.memory.readWord (s.execute dev (.push p)).cpu.sp = s.cpu.stackPair p :=
      pushes.readWord_under fits kept
    have pops := pops_pop dev (s := u.executeAll dev (ps.reverse.map .pop)) (p := p) (d := s.cpu)
      (by rw [System.top, inner.sp, inner.memory, top])
    rw [List.reverse_cons, List.map_append, executeAll_append]
    refine ⟨?_, pops.memory.trans inner.memory, ?_⟩
    · refine pops.sp.trans ?_
      rw [inner.sp, pushes.sp]
      grind
    · intro q hq
      by_cases same : q = p
      · rw [same]
        exact pops.popped
      · refine (pops.others q same).trans ?_
        rw [inner.pairs q ((List.mem_cons.mp hq).resolve_left same), pushes.pairs]

end System
end Cabinet

import Cabinet.Proofs.System.Fetch
import Cabinet.Proofs.System.Moves

/-! What an instruction writes to memory.

`stores` lists the cells with the bytes they get, both taken from the state before the
step: one cell for a byte, two for a word, low byte first, and none for most. A step
leaves exactly these bytes there and every other cell as it was (`step_stores`),
wherever HL, the stack or an operand may point, be it at the instruction itself. -/
namespace Cabinet

/-! ### Memories that differ by a list of stores -/

/-- `m'` is `m` but for the cells listed, each of which holds the byte listed for it. -/
structure Memory.Stored (stores : List (UInt16 × UInt8)) (m m' : Memory) : Prop where
  written : ∀ a v, (a, v) ∈ stores → m'.read a = v
  kept : ∀ a, (∀ v, (a, v) ∉ stores) → m'.read a = m.read a

namespace Memory

theorem stored_nil (m : Memory) : Stored [] m m :=
  ⟨fun _ _ h => (List.not_mem_nil h).elim, fun _ _ => rfl⟩

theorem stored_write (m : Memory) (a : UInt16) (v : UInt8) : Stored [(a, v)] m (m.write a v) := by
  constructor
  · intro b u h
    obtain ⟨rfl, rfl⟩ := Prod.mk.inj (List.mem_singleton.mp h)
    rw [read_write, if_pos rfl]
  · intro b h
    rw [read_write, if_neg]
    rintro rfl
    exact h v (List.mem_singleton.mpr rfl)

/-- The two cells of a word are not one, even where they wrap. -/
theorem stored_writeWord (m : Memory) (a w : UInt16) :
    Stored [(a, Word.low w), (a + 1, Word.high w)] m (m.writeWord a w) := by
  have next : a + 1 ≠ a := fun h => absurd (UInt16.add_eq_left.mp h) (by decide)
  unfold writeWord
  constructor
  · intro b u h
    simp only [List.mem_cons, Prod.mk.injEq, List.not_mem_nil, or_false] at h
    rcases h with ⟨rfl, rfl⟩ | ⟨rfl, rfl⟩
    · rw [read_write, if_neg next, read_write, if_pos rfl]
    · rw [read_write, if_pos rfl]
  · intro b h
    rw [read_write, if_neg, read_write, if_neg]
    · rintro rfl
      exact h _ (List.mem_cons_self ..)
    · rintro rfl
      exact h _ (List.mem_cons_of_mem _ (List.mem_singleton.mpr rfl))

theorem stored_writeWord_join (m : Memory) (a : UInt16) (hi lo : UInt8) :
    Stored [(a, lo), (a + 1, hi)] m (m.writeWord a (Word.join hi lo)) := by
  have := m.stored_writeWord a (Word.join hi lo)
  rwa [Word.low_join, Word.high_join] at this

/-- A cell of two that are listed is one of the two. -/
theorem cell_of_mem {a b c : UInt16} {u v w : UInt8} (h : (a, w) ∈ [(b, u), (c, v)]) :
    a = b ∨ a = c := by
  cases List.mem_cons.mp h with
  | inl low => exact .inl (congrArg Prod.fst low)
  | inr high => exact .inr (congrArg Prod.fst (List.mem_singleton.mp high))

theorem readWord_writeWord (m : Memory) (a w : UInt16) : (m.writeWord a w).readWord a = w := by
  have stored := m.stored_writeWord a w
  rw [readWord, stored.written a (Word.low w) (by simp),
    stored.written (a + 1) (Word.high w) (by simp), Word.join_high_low]

/-- A word is kept by a write to neither of its cells. -/
theorem readWord_write (m : Memory) {a b : UInt16} (v : UInt8) (low : a ≠ b) (high : a ≠ b + 1) :
    (m.write a v).readWord b = m.readWord b := by
  rw [readWord, read_write, read_write, if_neg low, if_neg high]
  rfl

end Memory

/-! ### The flag byte -/

/-- The flags by their weights; 2 is always there, 8 and 32 never. -/
def Flags.packed (f : Flags) : UInt8 :=
  UInt8.ofNat (128 * f.sign.toNat + 64 * f.zero.toNat + 16 * f.auxiliary.toNat +
    4 * f.parity.toNat + 2 + f.carry.toNat)

theorem Flags.toByte_eq_packed (f : Flags) : f.toByte = f.packed := by
  obtain ⟨s, z, ac, p, cy⟩ := f
  cases s <;> cases z <;> cases ac <;> cases p <;> cases cy <;> rfl

/-! ### The stores of an instruction -/

namespace System
variable {σ : Type} (s : System σ)

/-- What pushing the bytes `hi` and `lo` stores. -/
def pushed (hi lo : UInt8) : List (UInt16 × UInt8) :=
  [(s.cpu.sp - 2, lo), (s.cpu.sp - 1, hi)]

/-- What pushing a word stores: its two digits in base 256. -/
def pushedWord (w : UInt16) : List (UInt16 × UInt8) :=
  s.pushed (UInt8.ofNat (w.toNat / 256)) (UInt8.ofNat (w.toNat % 256))

theorem stored_push (w : UInt16) :
    Memory.Stored (s.pushed (Word.high w) (Word.low w)) s.memory (s.push w).memory := by
  have above : s.cpu.sp - 2 + 1 = s.cpu.sp - 1 := by grind
  have := s.memory.stored_writeWord (s.cpu.sp - 2) w
  rwa [above] at this

theorem stored_push_word (w : UInt16) :
    Memory.Stored (s.pushedWord w) s.memory (s.push w).memory := by
  rw [pushedWord, ← Word.high_eq_div, ← Word.low_eq_mod]
  exact s.stored_push w

theorem stored_push_join (hi lo : UInt8) :
    Memory.Stored (s.pushed hi lo) s.memory (s.push (Word.join hi lo)).memory := by
  have := s.stored_push (Word.join hi lo)
  rwa [Word.low_join, Word.high_join] at this

end System

namespace Instruction
variable {σ : Type} (s : System σ)

/-- The cells an instruction writes, with what it writes there. -/
def stores : Instruction → List (UInt16 × UInt8)
  | .mov .m src => [(s.cpu.word .h .l, src.value s)]
  | .mvi .m => [(s.cpu.word .h .l, s.immediate)]
  | .inr .m => [(s.cpu.word .h .l, s.memory.read (s.cpu.word .h .l) + 1)]
  | .dcr .m => [(s.cpu.word .h .l, s.memory.read (s.cpu.word .h .l) - 1)]
  | .stax p => [(s.cpu.word p.upper p.lower, s.cpu.a)]
  | .sta => [(s.immediateWord, s.cpu.a)]
  | .shld => [(s.immediateWord, s.cpu.l), (s.immediateWord + 1, s.cpu.h)]
  | .xthl => [(s.cpu.sp, s.cpu.l), (s.cpu.sp + 1, s.cpu.h)]
  | .push .bc => s.pushed s.cpu.b s.cpu.c
  | .push .de => s.pushed s.cpu.d s.cpu.e
  | .push .hl => s.pushed s.cpu.h s.cpu.l
  | .push .psw => s.pushed s.cpu.a s.cpu.flags.packed
  | .call => s.pushedWord (s.cpu.pc + 3)
  | .ccc cond => if cond.Met s.cpu.flags then s.pushedWord (s.cpu.pc + 3) else []
  | .rst _ => s.pushedWord (s.cpu.pc + 1)
  | _ => []

/-- No instruction writes more than a word. -/
theorem length_stores_le (i : Instruction) : (i.stores s).length ≤ 2 := by
  unfold stores System.pushedWord System.pushed
  split <;> try split
  all_goals simp

end Instruction

namespace System
variable {σ : Type} (dev : Device σ) (s : System σ)

theorem stored_execute (i : Instruction) :
    Memory.Stored (i.stores s) s.memory (s.execute dev i).memory := by
  rw [execute_eq]
  cases i with
  | mov dst src =>
    cases dst with
    | m =>
      rw [Instruction.stores, ← s.cpu.hl_eq_word, ← s.operand_eq_value,
        ← s.operand_jump src (s.cpu.pc + 1)]
      exact Memory.stored_write ..
    | _ => exact Memory.stored_nil _
  | mvi dst | inr dst | dcr dst =>
    cases dst with
    | m =>
      rw [Instruction.stores, ← s.cpu.hl_eq_word]
      exact Memory.stored_write ..
    | _ => exact Memory.stored_nil _
  | sta => exact Memory.stored_write ..
  | stax p =>
    rw [Instruction.stores, ← s.cpu.indexPair_eq_word]
    exact Memory.stored_write ..
  | shld | xthl => exact Memory.stored_writeWord_join ..
  | push p =>
    cases p with
    | psw =>
      rw [Instruction.stores, ← Flags.toByte_eq_packed]
      exact s.stored_push_join ..
    | _ => exact s.stored_push_join ..
  | call => exact s.stored_push_word (s.cpu.pc + 3)
  | rst _ => exact s.stored_push_word (s.cpu.pc + 1)
  | ccc cond =>
    simp only [perform, flags_jump, Condition.holds_iff_met, Instruction.stores]
    split
    · exact s.stored_push_word (s.cpu.pc + 3)
    · exact Memory.stored_nil _
  | jcc cond | rcc cond =>
    simp only [perform]
    split <;> exact Memory.stored_nil _
  | _ => exact Memory.stored_nil _

/-- **A step writes exactly the stores of the instruction at the program counter**, never
more than two cells; a halted processor writes nothing. -/
theorem step_stores (dev : Device σ) (s : System σ) :
    (s.cpu.halted = true ∧ s.step dev = (0, s)) ∨
      ∃ i, s.Fetches i ∧ (i.stores s).length ≤ 2 ∧
        Memory.Stored (i.stores s) s.memory (s.step dev).2.memory := by
  rcases s.step_cases dev with halted | ⟨i, h, step⟩
  · exact .inl halted
  · refine .inr ⟨i, h, i.length_stores_le s, ?_⟩
    rw [step]
    exact stored_execute dev s i

end System
end Cabinet

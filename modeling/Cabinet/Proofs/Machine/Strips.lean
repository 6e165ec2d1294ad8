import Cabinet.Proofs.Machine.Operations
import Cabinet.Proofs.Picture.Drawing
import Cabinet.Proofs.System.Interrupt
import Mathlib.Combinatorics.Enumerative.DoubleCounting

/-! What a step changes in the picture.

Each pixel is one bit of one memory cell, and the eight bits of a cell are a strip of the
picture (`Shown`). A lit pixel is never black, so a pixel changes its colour just when its
bit changes (`pixel_ne_iff`). An instruction writes two cells at most, and so does an
interrupt: therefore no more than two strips change, and where it writes beside the picture
none does (`two_strips`). -/
namespace Cabinet

/-- A bit of a memory cell. -/
def Memory.bit (m : Memory) (a : UInt16) (bit : Nat) : Bool :=
  (m.read a).toNat.testBit bit

namespace Picture
variable {a : UInt16} {bit : Nat} {p q : Pixel}

/-! ### Strips -/

/-- The cell is one of those that hold the picture. -/
def Visible (a : UInt16) : Prop :=
  0x2400 ≤ a.toNat ∧ a.toNat ≤ 0x3fff

/-- The pixel is drawn from this bit of the cell at `a`. -/
structure Shown (a : UInt16) (bit : Nat) (p : Pixel) : Prop where
  visible : Visible a
  bit_lt : bit < 8
  column : p.column = (a.toNat - 0x2400) / 32
  row : p.row = 255 - (8 * ((a.toNat - 0x2400) % 32) + bit)

theorem Shown.turn (h : Shown a bit p) : turn p = (a.toNat - 0x2400) * 8 + bit := by
  have := h.bit_lt
  simp only [Picture.turn, heightOf, h.column, h.row]
  omega

/-- A bit is drawn at one place only. -/
theorem Shown.unique (h : Shown a bit p) (h' : Shown a bit q) : p = q := by
  have inside : a.toNat - 0x2400 < 7168 := by
    have := h.visible.2
    omega
  rw [(turn_eq_iff inside h.bit_lt p).mp h.turn, (turn_eq_iff inside h.bit_lt q).mp h'.turn]

/-- Every pixel is drawn from a bit. -/
theorem exists_shown (p : Pixel) : ∃ a bit, Shown a bit p := by
  have := row_lt p
  have inside := byteOf_lt p
  have address : (UInt16.ofNat (0x2400 + byteOf p)).toNat = 0x2400 + byteOf p :=
    UInt16.toNat_ofNat_of_lt' (show _ < 65536 by omega)
  refine ⟨UInt16.ofNat (0x2400 + byteOf p), heightOf p % 8, ?_, Nat.mod_lt _ (by decide), ?_, ?_⟩
  · rw [Visible, address]
    omega
  · rw [address, byteOf, heightOf]
    omega
  · rw [address, byteOf, heightOf]
    omega

theorem Shown.byteOf (h : Shown a bit p) : Picture.byteOf p = a.toNat - 0x2400 := by
  have := h.turn
  have := h.bit_lt
  simp only [Picture.turn, Picture.byteOf] at *
  omega

theorem Shown.heightOf_mod (h : Shown a bit p) : heightOf p % 8 = bit := by
  have := h.turn
  have := h.bit_lt
  simp only [Picture.turn] at *
  omega

/-! ### The colour of a bit -/

variable {palette : Palette} (m m' : Memory)

theorem Shown.pixel (h : Shown a bit p) :
    (frame palette m.videoRam).pixel p =
      if m.bit a bit then palette.lit (heightOf p) else .black := by
  have address : UInt16.ofNat (0x2400 + (a.toNat - 0x2400)) = a := by
    rw [Nat.add_sub_cancel' h.visible.1, UInt16.ofNat_toNat]
  rw [frame, Screen.pixel_ofPixels, colorOf, Memory.videoRam_get, h.byteOf, h.heightOf_mod,
    address]
  rfl

/-- A pixel shows whether its bit is set. -/
theorem pixel_ne_iff (h : Shown a bit p) :
    (frame palette m.videoRam).pixel p ≠ (frame palette m'.videoRam).pixel p ↔
      m.bit a bit ≠ m'.bit a bit := by
  have bright := lit_ne_black palette (heightOf p)
  rw [h.pixel, h.pixel]
  cases m.bit a bit <;> cases m'.bit a bit
  · simp
  · simp [bright.symm]
  · simp [bright]
  · simp

/-! ### Memories that differ by a word -/

/-- How the pictures `f` and `g` of two memories are to differ, if these bytes were stored in
between. -/
structure Disturbs (palette : Palette) (stores : List (UInt16 × UInt8)) (m m' : Memory)
    (f g : Screen) : Prop where
  two : stores.length ≤ 2
  stored : Memory.Stored stores m m'
  before : ∀ screen, draw palette m.videoRam screen = .ok f
  after : ∀ screen, draw palette m'.videoRam screen = .ok g
  /-- Within the strips of the cells written, just where a bit has changed. -/
  changed : ∀ p, f.pixel p ≠ g.pixel p ↔
    ∃ a v, (a, v) ∈ stores ∧ ∃ bit, Shown a bit p ∧ m.bit a bit ≠ m'.bit a bit
  few : (Finset.univ.filter fun p => f.pixel p ≠ g.pixel p).card ≤ 16
  same : (∀ a v, (a, v) ∈ stores → ¬Visible a) → f = g

variable {m m'} {stores : List (UInt16 × UInt8)}

theorem changed_iff (h : Memory.Stored stores m m') (p : Pixel) :
    (frame palette m.videoRam).pixel p ≠ (frame palette m'.videoRam).pixel p ↔
      ∃ a v, (a, v) ∈ stores ∧ ∃ bit, Shown a bit p ∧ m.bit a bit ≠ m'.bit a bit := by
  constructor
  · intro differ
    obtain ⟨a, bit, shown⟩ := exists_shown p
    have flipped := (pixel_ne_iff m m' shown).mp differ
    by_cases written : ∃ v, (a, v) ∈ stores
    · obtain ⟨v, mem⟩ := written
      exact ⟨a, v, mem, bit, shown, flipped⟩
    · refine absurd ?_ flipped
      rw [Memory.bit, Memory.bit, h.kept a (not_exists.mp written)]
  · intro changes
    obtain ⟨a, _, _, bit, shown, flipped⟩ := changes
    exact (pixel_ne_iff m m' shown).mpr flipped

/-- No strip has more than eight pixels. -/
theorem card_changed_le {changed : Pixel → Prop} [DecidablePred changed]
    (within : ∀ p, changed p → ∃ a v, (a, v) ∈ stores ∧ ∃ bit, Shown a bit p) :
    (Finset.univ.filter changed).card ≤ 8 * stores.length := by
  have bits : (stores.toFinset ×ˢ Finset.range 8).card ≤ 8 * stores.length := by
    rw [Finset.card_product, Finset.card_range, Nat.mul_comm]
    exact Nat.mul_le_mul_left 8 stores.toFinset_card_le
  refine Nat.le_trans ?_ bits
  apply Finset.card_le_card_of_forall_subsingleton
    fun p (c : (UInt16 × UInt8) × Nat) => Shown c.1.1 c.2 p
  · intro p changes
    obtain ⟨a, v, mem, bit, shown⟩ := within p (Finset.mem_filter.mp changes).2
    refine ⟨((a, v), bit), ?_, shown⟩
    simp [mem, shown.bit_lt]
  · intro c _ p shown q shown'
    exact shown.2.unique shown'.2

theorem disturbs_of_stored (palette : Palette) (h : Memory.Stored stores m m')
    (two : stores.length ≤ 2) :
    Disturbs palette stores m m' (frame palette m.videoRam) (frame palette m'.videoRam) where
  two := two
  stored := h
  before := draw_eq palette m.videoRam
  after := draw_eq palette m'.videoRam
  changed := changed_iff h
  few := by
    refine Nat.le_trans (card_changed_le ?_) (Nat.mul_le_mul_left 8 two)
    intro p differ
    obtain ⟨a, v, mem, bit, shown, _⟩ := (changed_iff h p).mp differ
    exact ⟨a, v, mem, bit, shown⟩
  same := by
    intro hidden
    apply Screen.ext_pixel
    intro p
    by_contra differ
    obtain ⟨a, v, mem, bit, shown, _⟩ := (changed_iff h p).mp differ
    exact hidden a v mem shown.visible

end Picture

/-! ### Steps and interrupts -/

namespace System
variable {σ : Type} (s : System σ)

/-- What the next step stores. -/
def written : List (UInt16 × UInt8) :=
  if s.cpu.halted then [] else s.fetch.stores s

/-- What an interrupt stores now: the program counter, if it is taken. -/
def interruptWritten : List (UInt16 × UInt8) :=
  if s.cpu.interruptsEnabled then s.pushed (Word.high s.cpu.pc) (Word.low s.cpu.pc) else []

theorem stored_step (dev : Device σ) :
    s.written.length ≤ 2 ∧ Memory.Stored s.written s.memory (s.step dev).2.memory := by
  rcases s.step_cases dev with ⟨halted, step⟩ | ⟨i, fetches, step⟩
  · rw [written, if_pos halted, step]
    exact ⟨Nat.zero_le 2, s.memory.stored_nil⟩
  · rw [written, fetches.running, fetches.fetch_eq, step]
    exact ⟨i.length_stores_le s, stored_execute dev s i⟩

theorem stored_interrupt (v : UInt8) :
    s.interruptWritten.length ≤ 2 ∧
      Memory.Stored s.interruptWritten s.memory (s.interrupt v).memory := by
  unfold interruptWritten
  cases enabled : s.cpu.interruptsEnabled
  · rw [interrupt_of_disabled enabled]
    exact ⟨Nat.zero_le 2, s.memory.stored_nil⟩
  · rw [interrupt_of_enabled enabled]
    exact ⟨Nat.le_refl 2, s.stored_push s.cpu.pc⟩

end System

/-- **A step disturbs two strips of the picture at most**, and so does an interrupt. For any
machine and palette, the pictures before and after differ only in the strips of the cells
that were written, and there just where a bit has changed. -/
theorem Machine.two_strips (palette : Palette) (m : Machine) :
    (∃ m' f g, m.operate .step = .ok m' ∧
      Picture.Disturbs palette m.system.written m.memory m'.memory f g) ∧
    ∀ v, ∃ f g,
      Picture.Disturbs palette m.system.interruptWritten m.memory (m.system.interrupt v).memory
        f g := by
  obtain ⟨two, stored⟩ := m.system.stored_step Board.device
  refine ⟨⟨(m.steps 1).2, _, _, rfl, Picture.disturbs_of_stored palette stored two⟩, fun v => ?_⟩
  obtain ⟨two, stored⟩ := m.system.stored_interrupt v
  exact ⟨_, _, Picture.disturbs_of_stored palette stored two⟩

end Cabinet

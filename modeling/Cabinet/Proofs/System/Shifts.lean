import Cabinet.Proofs.System.Binary

/-! Numbers of many bytes, shifted by a bit.

Rotating nine bits, the accumulator's eight and the carry, moves a byte up or down by one
place: the carry fills the place that becomes free, and what falls out at the other end is
the carry of the next byte. Byte by byte from the least significant this doubles a number,
and from the most significant it halves it. Both are the same relation between two numbers
and the bits at their ends (`Shifted`), read forwards and backwards, so that one undoes the
other (`shift_chains`). -/
namespace Cabinet

/-! ### One byte -/

namespace Alu

theorem rotateLeftCarry_value (a : UInt8) (f : Flags) :
    (rotateLeftCarry a f).1.toNat + 256 * (rotateLeftCarry a f).2.carry.toNat =
      2 * a.toNat + f.carry.toNat := by
  have all : ∀ c : Bool, (a <<< 1 ||| c.toUInt8).toNat + 256 * (a &&& 0x80 != 0).toNat =
      2 * a.toNat + c.toNat :=
    Word.forall_byte
      (p := fun a => ∀ c : Bool, (a <<< 1 ||| c.toUInt8).toNat + 256 * (a &&& 0x80 != 0).toNat =
        2 * a.toNat + c.toNat) (by decide +kernel) a
  exact all f.carry

theorem rotateRightCarry_value (a : UInt8) (f : Flags) :
    a.toNat + 256 * f.carry.toNat =
      2 * (rotateRightCarry a f).1.toNat + (rotateRightCarry a f).2.carry.toNat := by
  have all : ∀ c : Bool, a.toNat + 256 * c.toNat =
      2 * (a >>> 1 ||| c.toUInt8 <<< 7).toNat + (a &&& 0x01 != 0).toNat :=
    Word.forall_byte
      (p := fun a => ∀ c : Bool, a.toNat + 256 * c.toNat =
        2 * (a >>> 1 ||| c.toUInt8 <<< 7).toNat + (a &&& 0x01 != 0).toNat) (by decide +kernel) a
  exact all f.carry

end Alu

/-! ### Many bytes -/

theorem bit_injective : Function.Injective Bool.toNat := by
  intro b c h
  cases b <;> cases c <;> first | rfl | cases h

/-- The bytes `ys`, with the bit `high` on top of them, are `xs` moved up by one place, with
the bit `low` below them. -/
structure Shifted (low : Bool) (xs ys : List UInt8) (high : Bool) : Prop where
  length : ys.length = xs.length
  number : binary ys + 256 ^ xs.length * high.toNat = 2 * binary xs + low.toNat

namespace Shifted
variable {low middle high : Bool} {xs ys : List UInt8}

theorem nil (c : Bool) : Shifted c [] [] c where
  length := rfl
  number := by simp [binary]

/-- What one byte hands over is what the others take in. -/
theorem cons {x y : UInt8} (byte : y.toNat + 256 * middle.toNat = 2 * x.toNat + low.toNat)
    (rest : Shifted middle xs ys high) : Shifted low (x :: xs) (y :: ys) high where
  length := congrArg (· + 1) rest.length
  number := by
    have above := rest.number
    unfold binary at above ⊢
    rw [numeral_cons, numeral_cons, List.length_cons, pow_succ, mul_right_comm]
    omega

/-- The number on top is below the power that the length allows. -/
theorem binary_lt (h : Shifted low xs ys high) : binary ys < 256 ^ xs.length :=
  h.length ▸ Cabinet.binary_lt ys

theorem divMod (h : Shifted low xs ys high) :
    (2 * binary xs + low.toNat) / 256 ^ xs.length = high.toNat ∧
      (2 * binary xs + low.toNat) % 256 ^ xs.length = binary ys :=
  (Nat.div_mod_unique (by positivity)).mpr ⟨h.number, h.binary_lt⟩

theorem halved (h : Shifted low xs ys high) :
    (binary ys + 256 ^ xs.length * high.toNat) / 2 = binary xs ∧
      (binary ys + 256 ^ xs.length * high.toNat) % 2 = low.toNat := by
  have := low.toNat_lt
  have := h.number
  omega

/-- Moved up, these bytes come from nothing else. -/
theorem below_unique {low' : Bool} {zs : List UInt8} (h : Shifted low xs ys high)
    (h' : Shifted low' zs ys high) : zs = xs ∧ low' = low := by
  have length : zs.length = xs.length := h'.length.symm.trans h.length
  obtain ⟨half, rest⟩ := h.halved
  obtain ⟨half', rest'⟩ := h'.halved
  rw [length] at half' rest'
  exact ⟨binary_inj length (half'.symm.trans half), bit_injective (rest'.symm.trans rest)⟩

/-- Moved up, these bytes become nothing else. -/
theorem above_unique {high' : Bool} {zs : List UInt8} (h : Shifted low xs ys high)
    (h' : Shifted low xs zs high') : zs = ys ∧ high' = high := by
  have length : zs.length = ys.length := h'.length.trans h.length.symm
  obtain ⟨quotient, remainder⟩ := h.divMod
  obtain ⟨quotient', remainder'⟩ := h'.divMod
  exact ⟨binary_inj length (remainder'.symm.trans remainder),
    bit_injective (quotient'.symm.trans quotient)⟩

end Shifted

namespace System
variable {σ : Type} (dev : Device σ)

/-! ### Chains of rotations -/

/-- A byte goes to the accumulator, and the instruction is performed on it there. -/
def turn (i : Instruction) (s : System σ) (x : UInt8) : System σ :=
  performAll dev s [(.mvi .a, x), (i, 0)]

/-- The bytes of a number are rotated to the left, from the least significant to the most:
what is in the accumulator after each, and the system in the end. -/
def leftward (s : System σ) : List UInt8 → List UInt8 × System σ
  | [] => ([], s)
  | x :: xs =>
    let t := turn dev .ral s x
    let rest := leftward t xs
    (t.cpu.a :: rest.1, rest.2)

/-- The bytes of a number are rotated to the right, from the most significant to the least. -/
def rightward (s : System σ) : List UInt8 → List UInt8 × System σ
  | [] => ([], s)
  | x :: xs =>
    let rest := rightward s xs
    let t := turn dev .rar rest.2 x
    (t.cpu.a :: rest.1, t)

theorem shifted_leftward (s : System σ) (xs : List UInt8) :
    Shifted s.cpu.flags.carry xs (leftward dev s xs).1 (leftward dev s xs).2.cpu.flags.carry := by
  induction xs generalizing s with
  | nil => exact .nil _
  | cons x xs ih =>
    exact .cons (Alu.rotateLeftCarry_value x s.cpu.flags) (ih (turn dev .ral s x))

/-- The carry falls out at the bottom and came in on top. -/
theorem shifted_rightward (s : System σ) (xs : List UInt8) :
    Shifted (rightward dev s xs).2.cpu.flags.carry (rightward dev s xs).1 xs s.cpu.flags.carry := by
  induction xs with
  | nil => exact .nil _
  | cons x xs ih =>
    exact .cons (Alu.rotateRightCarry_value x (rightward dev s xs).2.cpu.flags) ih

/-- Rotations are told by the carry only. -/
theorem others_turn {i : Instruction} (rotates : i = .ral ∨ i = .rar) (s : System σ) (x : UInt8)
    {flag : Flag} (other : flag ≠ .carry) :
    (turn dev i s x).cpu.flags.get flag = s.cpu.flags.get flag := by
  obtain rfl | rfl := rotates <;> cases flag <;> first | rfl | exact absurd rfl other

theorem others_leftward (s : System σ) (xs : List UInt8) {flag : Flag} (other : flag ≠ .carry) :
    (leftward dev s xs).2.cpu.flags.get flag = s.cpu.flags.get flag := by
  induction xs generalizing s with
  | nil => rfl
  | cons x xs ih => exact (ih (turn dev .ral s x)).trans (others_turn dev (.inl rfl) s x other)

theorem others_rightward (s : System σ) (xs : List UInt8) {flag : Flag} (other : flag ≠ .carry) :
    (rightward dev s xs).2.cpu.flags.get flag = s.cpu.flags.get flag := by
  induction xs with
  | nil => rfl
  | cons x xs ih => exact (others_turn dev (.inr rfl) _ x other).trans ih

/-! ### Numbers, doubled and halved -/

/-- What doubling `xs`, with the carry of `s` at the bottom, makes. -/
structure IsDouble (s : System σ) (xs : List UInt8) (r : List UInt8 × System σ) : Prop where
  length : r.1.length = xs.length
  number : binary r.1 = (2 * binary xs + s.cpu.flags.carry.toNat) % 256 ^ xs.length
  carry : r.2.cpu.flags.carry.toNat =
    (2 * binary xs + s.cpu.flags.carry.toNat) / 256 ^ xs.length

/-- What halving `xs`, with the carry of `s` on top, makes. -/
structure IsHalf (s : System σ) (xs : List UInt8) (r : List UInt8 × System σ) : Prop where
  length : r.1.length = xs.length
  number : binary r.1 = (binary xs + s.cpu.flags.carry.toNat * 256 ^ xs.length) / 2
  carry : xs ≠ [] → r.2.cpu.flags.carry.toNat = binary xs % 2
  /-- Where there is no byte, nothing falls out. -/
  kept : xs = [] → r.2.cpu.flags.carry = s.cpu.flags.carry

/-- Some bytes have become `xs` again, and the carry what it was in `s`. -/
structure Restores (s : System σ) (xs : List UInt8) (r : List UInt8 × System σ) : Prop where
  bytes : r.1 = xs
  carry : r.2.cpu.flags.carry = s.cpu.flags.carry

variable {dev} {s t : System σ} {xs : List UInt8}

theorem isDouble_leftward : IsDouble s xs (leftward dev s xs) := by
  have shifted := shifted_leftward dev s xs
  obtain ⟨quotient, remainder⟩ := shifted.divMod
  exact ⟨shifted.length, remainder.symm, quotient.symm⟩

theorem isHalf_rightward : IsHalf s xs (rightward dev s xs) := by
  have shifted := shifted_rightward dev s xs
  obtain ⟨half, rest⟩ := shifted.halved
  rw [← shifted.length] at half rest
  refine ⟨shifted.length.symm, ?_, fun some => ?_, fun none => ?_⟩
  · rw [Nat.mul_comm]
    exact half.symm
  · -- What came in on top is even, the lowest byte being below it.
    have nonzero : xs.length ≠ 0 := List.length_eq_zero_iff.not.mpr some
    have even : 2 ∣ 256 ^ xs.length := Dvd.dvd.trans (by decide) (dvd_pow_self 256 nonzero)
    have top := even.mul_right s.cpu.flags.carry.toNat
    omega
  · subst none
    rfl

theorem rightward_restores
    (handed : t.cpu.flags.carry = (leftward dev s xs).2.cpu.flags.carry) :
    Restores s xs (rightward dev t (leftward dev s xs).1) := by
  have back := shifted_rightward dev t (leftward dev s xs).1
  rw [handed] at back
  obtain ⟨bytes, carry⟩ := (shifted_leftward dev s xs).below_unique back
  exact ⟨bytes, carry⟩

theorem leftward_restores
    (handed : t.cpu.flags.carry = (rightward dev s xs).2.cpu.flags.carry) :
    Restores s xs (leftward dev t (rightward dev s xs).1) := by
  have back := shifted_leftward dev t (rightward dev s xs).1
  rw [handed] at back
  obtain ⟨bytes, carry⟩ := (shifted_rightward dev s xs).above_unique back
  exact ⟨bytes, carry⟩

/-- **The carry flag shifts numbers**: from any state, bytes rotated to the left one after the
other are the double of the number with the carry below it, and rotated to the right, from
the other end, its half with the carry on top; what falls out is the carry in the end. In
whatever state the one follows the other, if with the carry that this left, it undoes it.
After any number of bytes the other flags are as they were. -/
theorem shift_chains (dev : Device σ) (s : System σ) (xs : List UInt8) :
    IsDouble s xs (leftward dev s xs) ∧ IsHalf s xs (rightward dev s xs) ∧
      (∀ t : System σ, t.cpu.flags.carry = (leftward dev s xs).2.cpu.flags.carry →
        Restores s xs (rightward dev t (leftward dev s xs).1)) ∧
      (∀ t : System σ, t.cpu.flags.carry = (rightward dev s xs).2.cpu.flags.carry →
        Restores s xs (leftward dev t (rightward dev s xs).1)) ∧
      ∀ k flag, flag ≠ .carry →
        (leftward dev s (xs.take k)).2.cpu.flags.get flag = s.cpu.flags.get flag ∧
        (rightward dev s (xs.drop k)).2.cpu.flags.get flag = s.cpu.flags.get flag :=
  ⟨isDouble_leftward, isHalf_rightward, fun _ => rightward_restores, fun _ => leftward_restores,
    fun _ _ other => ⟨others_leftward dev s _ other, others_rightward dev s _ other⟩⟩

/-- Three bytes with the bits at both ends set, and a carry to start from. -/
theorem shift_chains_three :
    let s : System Unit := { cpu := { flags := { carry := true } }, memory := .blank, device := () }
    let xs : List UInt8 := [0x81, 0x00, 0xff]
    let up := leftward .unconnected s xs
    let down := rightward .unconnected s xs
    IsDouble s xs up ∧ IsHalf s xs down ∧ xs ≠ [] ∧
      Restores s xs (rightward .unconnected up.2 up.1) ∧
      Restores s xs (leftward .unconnected down.2 down.1) ∧
      Flag.sign ≠ .carry ∧
      (leftward .unconnected s (xs.take 1)).2.cpu.flags.get .sign = s.cpu.flags.get .sign := by
  intro s xs up down
  obtain ⟨double, half, right, left, others⟩ := shift_chains .unconnected s xs
  exact ⟨double, half, by decide, right up.2 rfl, left down.2 rfl, by decide,
    (others 1 .sign (by decide)).1⟩

/-- Without a byte to rotate the carry stays, and is not the lowest bit of the number. -/
theorem rightward_nothing :
    ¬∀ (s : System Unit) (xs : List UInt8),
      (rightward .unconnected s xs).2.cpu.flags.carry.toNat = binary xs % 2 := by
  intro lowest
  have := lowest { cpu := { flags := { carry := true } }, memory := .blank, device := () } []
  cases this

end System
end Cabinet

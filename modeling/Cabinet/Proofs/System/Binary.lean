import Cabinet.Proofs.Processor.Arithmetic
import Cabinet.Proofs.Processor.Views
import Cabinet.Proofs.System.Columns
import Mathlib.Data.Nat.Digits.Lemmas

/-! Binary numbers of many bytes, and of two.

Adding with carry, and subtracting with borrow, byte by byte from the least significant:
what is collected is the sum or the difference modulo the power of 256 that the length
allows, and the carry in the end says whether it did not fit (`binary_chains`). The
addition of words is the same on two bytes, started without a carry. -/
namespace Cabinet

/-! ### Many bytes -/

/-- The number that bytes are, the least significant first. -/
def binary (bytes : List UInt8) : Nat :=
  numeral 256 UInt8.toNat bytes

theorem binary_lt (bytes : List UInt8) : binary bytes < 256 ^ bytes.length := by
  have := Nat.ofDigits_lt_base_pow_length (b := 256) (l := bytes.map UInt8.toNat) (by decide)
    (by simpa using fun v _ => v.toNat_lt)
  rwa [List.length_map] at this

/-- So many bytes make a number in one way. -/
theorem binary_inj {xs ys : List UInt8} (length : xs.length = ys.length)
    (h : binary xs = binary ys) : xs = ys := by
  have digits : xs.map UInt8.toNat = ys.map UInt8.toNat := by
    refine Nat.ofDigits_inj_of_len_eq (b := 256) (by decide) (by simpa using length) ?_ ?_ h
    · simpa using fun v _ => v.toNat_lt
    · simpa using fun v _ => v.toNat_lt
  exact List.map_injective_iff.mpr (fun _ _ => UInt8.toNat_inj.mp) digits

/-- The two bytes of a word, the low one first. -/
def halves (w : UInt16) : List UInt8 :=
  [Word.low w, Word.high w]

theorem length_halves (w : UInt16) : (halves w).length = 2 := rfl

theorem binary_halves (w : UInt16) : binary (halves w) = w.toNat := by
  show (Word.low w).toNat + 256 * ((Word.high w).toNat + 256 * 0) = w.toNat
  rw [Word.toNat_low, Word.toNat_high]
  omega

namespace System
variable {σ : Type} (dev : Device σ)

/-- One byte goes to the accumulator and the other is added with carry. -/
def addByte (x y : UInt8) : Code :=
  [(.mvi .a, x), (.aluImm .adc, y)]

def subtractByte (x y : UInt8) : Code :=
  [(.mvi .a, x), (.aluImm .sbb, y)]

theorem ripples_addByte :
    Ripples dev addByte (fun _ => True) UInt8.toNat 256 1 (fun c => (c.toNat : Int)) where
  digit := fun _ _ _ _ _ => trivial
  column := by
    intro s x y _ _
    have : _ + _ = _ := Alu.add_value x y s.cpu.flags.carry s.cpu.flags
    rw [one_mul]
    exact_mod_cast this

/-- A borrow counts against the number. -/
theorem ripples_subtractByte :
    Ripples dev subtractByte (fun _ => True) UInt8.toNat 256 (-1) (fun c => -(c.toNat : Int)) where
  digit := fun _ _ _ _ _ => trivial
  column := by
    intro s x y _ _
    have : ((_ + _ + _ : Nat) : Int) = _ :=
      congrArg Nat.cast (Alu.subtract_value x y s.cpu.flags.carry s.cpu.flags)
    push_cast at this
    show ((Alu.subtract x y s.cpu.flags.carry s.cpu.flags).1.toNat : Int) +
      256 * -((Alu.subtract x y s.cpu.flags.carry s.cpu.flags).2.carry.toNat : Int) = _
    linear_combination this

/-- What adding `xs` and `ys` and the carry of `s` makes. -/
structure IsSum (s : System σ) (xs ys : List UInt8) (r : List UInt8 × System σ) : Prop where
  length : r.1.length = xs.length
  number : binary r.1 =
    (binary xs + binary ys + s.cpu.flags.carry.toNat) % 256 ^ xs.length
  carry : r.2.cpu.flags.carry.toNat =
    (binary xs + binary ys + s.cpu.flags.carry.toNat) / 256 ^ xs.length

/-- What subtracting `ys` and the carry of `s` from `xs` makes. -/
structure IsDifference (s : System σ) (xs ys : List UInt8) (r : List UInt8 × System σ) :
    Prop where
  length : r.1.length = xs.length
  number : (binary r.1 : Int) =
    (binary xs - binary ys - s.cpu.flags.carry.toNat) % 256 ^ xs.length
  borrow : r.2.cpu.flags.carry = true ↔ binary xs < binary ys + s.cpu.flags.carry.toNat

theorem isSum_addByte (s : System σ) {xs ys : List UInt8} (aligned : xs.length = ys.length) :
    IsSum s xs ys (columns dev addByte s xs ys) := by
  have rippled := (ripples_addByte dev).columns s aligned (fun _ _ => trivial) (fun _ _ => trivial)
  generalize columns dev addByte s xs ys = r at rippled ⊢
  have total : binary r.1 + 256 ^ xs.length * r.2.cpu.flags.carry.toNat =
      binary xs + binary ys + s.cpu.flags.carry.toNat := by
    have := rippled.number
    rw [one_mul] at this
    exact_mod_cast this
  have bounded := binary_lt r.1
  rw [rippled.length] at bounded
  obtain ⟨quotient, remainder⟩ := (Nat.div_mod_unique (by positivity)).mpr ⟨total, bounded⟩
  exact ⟨rippled.length, remainder.symm, quotient.symm⟩

theorem isDifference_subtractByte (s : System σ) {xs ys : List UInt8}
    (aligned : xs.length = ys.length) :
    IsDifference s xs ys (columns dev subtractByte s xs ys) := by
  have rippled := (ripples_subtractByte dev).columns s aligned (fun _ _ => trivial)
    (fun _ _ => trivial)
  generalize columns dev subtractByte s xs ys = r at rippled ⊢
  have total : (binary r.1 : Int) + 256 ^ xs.length * -(r.2.cpu.flags.carry.toNat : Int) =
      binary xs + -1 * binary ys + -(s.cpu.flags.carry.toNat : Int) := rippled.number
  have bounded : (binary r.1 : Int) < 256 ^ xs.length := by
    rw [← rippled.length]
    exact_mod_cast binary_lt r.1
  refine ⟨rippled.length, ?_, ?_⟩
  · have wrapped : (binary xs - binary ys - s.cpu.flags.carry.toNat : Int) =
        binary r.1 + 256 ^ xs.length * -(r.2.cpu.flags.carry.toNat : Int) := by
      linear_combination -total
    rw [wrapped, Int.add_mul_emod_self_left, Int.emod_eq_of_lt (Int.natCast_nonneg _) bounded]
  · cases carry : r.2.cpu.flags.carry
    · rw [carry, Bool.toNat_false] at total
      simp only [Bool.false_eq_true, false_iff]
      omega
    · rw [carry, Bool.toNat_true] at total
      simp only [true_iff]
      omega

/-! ### Words -/

/-- The system with no carry. -/
def carryCleared (s : System σ) : System σ :=
  s.setFlags { s.cpu.flags with carry := false }

/-- Adding the word `v` to HL does what adding their two bytes does, and touches no flag
but the carry. -/
structure AddsWord (s : System σ) (v : UInt16) (t : System σ) : Prop where
  bytes : halves t.cpu.hl =
    (columns dev addByte s.carryCleared (halves s.cpu.hl) (halves v)).1
  carry : t.cpu.flags.carry =
    (columns dev addByte s.carryCleared (halves s.cpu.hl) (halves v)).2.cpu.flags.carry
  others : ∀ flag, flag ≠ .carry → t.cpu.flags.get flag = s.cpu.flags.get flag

/-- The system with `v` added to HL. -/
def addWord (s : System σ) (v : UInt16) : System σ :=
  let r := Alu.addWord s.cpu.hl v s.cpu.flags
  (s.setPair .hl r.1).setFlags r.2

theorem addsWord_addWord (s : System σ) (v : UInt16) : AddsWord dev s v (s.addWord v) := by
  have sum : IsSum s.carryCleared (halves s.cpu.hl) (halves v) _ := isSum_addByte dev _ rfl
  have number := sum.number
  have carry := sum.carry
  have cleared : s.carryCleared.cpu.flags.carry = false := rfl
  simp only [binary_halves, length_halves, cleared, Bool.toNat_false, Nat.add_zero,
    Nat.reducePow] at number carry
  refine ⟨binary_inj ?_ ?_, ?_, ?_⟩
  · rw [sum.length, length_halves, length_halves]
  · have hl : (s.addWord v).cpu.hl = s.cpu.hl + v := Word.join_high_low (s.cpu.hl + v)
    rw [hl, binary_halves, number, UInt16.toNat_add]
  · show decide (0xffff < s.cpu.hl.toNat + v.toNat) = _
    have := s.cpu.hl.toNat_lt
    have := v.toNat_lt
    cases passed : (columns dev addByte s.carryCleared _ _).2.cpu.flags.carry
    · rw [passed, Bool.toNat_false] at carry
      exact decide_eq_false (by omega)
    · rw [passed, Bool.toNat_true] at carry
      exact decide_eq_true (by omega)
  · rintro (_ | _ | _ | _ | _) other
    · rfl
    · rfl
    · rfl
    · rfl
    · exact absurd rfl other

/-- **The carry flag makes numbers out of bytes**: from any state, bytes added one pair
after the other are the sum of the numbers with the carry they started from, bytes
subtracted are the difference, and what is beyond their length is left in the carry. Adding
any word to HL, as the instruction does with that of a pair, is the same with two bytes and no
carry to start from. -/
theorem binary_chains (dev : Device σ) (s : System σ) :
    (∀ xs ys : List UInt8, xs.length = ys.length →
      IsSum s xs ys (columns dev addByte s xs ys) ∧
        IsDifference s xs ys (columns dev subtractByte s xs ys)) ∧
      (∀ v, AddsWord dev s v (s.addWord v)) ∧
      ∀ byte word q, perform dev byte word s (.dad q) = s.addWord (s.cpu.pair q) :=
  ⟨fun _ _ aligned => ⟨isSum_addByte dev s aligned, isDifference_subtractByte dev s aligned⟩,
    addsWord_addWord dev s, fun _ _ _ => rfl⟩

/-- A carry that runs through every column of a sum, and a borrow through every column of a
difference. -/
theorem binary_chains_run_through :
    let s : System Unit := { cpu := { flags := { carry := true } }, memory := .blank, device := () }
    ([0xff, 0xff, 0xff] : List UInt8).length = ([0, 0, 0] : List UInt8).length ∧
      IsSum s [0xff, 0xff, 0xff] [0, 0, 0]
        (columns .unconnected addByte s [0xff, 0xff, 0xff] [0, 0, 0]) ∧
      IsDifference s [0, 0, 0] [0, 0, 0]
        (columns .unconnected subtractByte s [0, 0, 0] [0, 0, 0]) ∧
      AddsWord .unconnected s 0xffff (s.addWord 0xffff) :=
  ⟨rfl, ((binary_chains .unconnected _).1 [0xff, 0xff, 0xff] [0, 0, 0] rfl).1,
    ((binary_chains .unconnected _).1 [0, 0, 0] [0, 0, 0] rfl).2,
    (binary_chains .unconnected _).2.1 0xffff⟩

end System
end Cabinet

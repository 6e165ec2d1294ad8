import Cabinet.Proofs.Processor.Arithmetic
import Cabinet.Proofs.System.Columns

/-! Decimal numbers of many bytes.

A byte holds two decimal digits, and the adjustment after a sum of such bytes gives the
digits of that sum. Numbers are added column by column, and subtracted by adding the
complement of each byte to 99, the carry saying where nothing is borrowed
(`decimal_chains`). The complement is no pair of digits where the carry makes its low digit
ten; the adjustment sees to that too (`adjusted`). -/
namespace Cabinet

/-! ### Many bytes -/

/-- The decimal number that bytes are, two digits each, the least significant first. -/
def decimals (bytes : List UInt8) : Nat :=
  numeral 100 decimal bytes

namespace System
variable {σ : Type} (dev : Device σ)

/-- Two pairs of digits are added with carry, and the sum is adjusted. -/
def addDigits (x y : UInt8) : Code :=
  [(.mvi .a, x), (.aluImm .adc, y), (.daa, 0)]

/-- The second pair of digits is taken from 99, or from 100 with a carry, and what is left
is added to the first and adjusted. -/
def subtractDigits (x y : UInt8) : Code :=
  [(.mvi .a, 0x99), (.aluImm .adc, 0), (.aluImm .sub, y), (.aluImm .add, x), (.daa, 0)]

theorem adjusted_addDigits (s : System σ) {x y : UInt8} (hx : Packed x) (hy : Packed y) :
    Alu.Adjusted x y s.cpu.flags.carry
      ((performAll dev s (addDigits x y)).cpu.a, (performAll dev s (addDigits x y)).cpu.flags) := by
  have := s.cpu.flags.carry.toNat_le
  have := hx.units
  exact Alu.adjusted s.cpu.flags hx.tens (by omega) hy

theorem ripples_addDigits :
    Ripples dev addDigits Packed decimal 100 1 (fun c => (c.toNat : Int)) where
  digit := fun s _ _ hx hy => (adjusted_addDigits dev s hx hy).packed
  column := by
    intro s x y hx hy
    have := (adjusted_addDigits dev s hx hy).total
    rw [one_mul]
    exact_mod_cast this

theorem adjusted_subtractDigits (s : System σ) {x y : UInt8} (hx : Packed x) (hy : Packed y) :
    ∃ z, Alu.Complements y s.cpu.flags.carry z ∧
      Alu.Adjusted z x false ((performAll dev s (subtractDigits x y)).cpu.a,
        (performAll dev s (subtractDigits x y)).cpu.flags) := by
  have complement := Alu.complements s.cpu.flags.carry s.cpu.flags
    (Alu.add 0x99 0 s.cpu.flags.carry s.cpu.flags).2 hy
  exact ⟨_, complement, Alu.adjusted _ complement.tens complement.units hx⟩

/-- The carry is the opposite of a borrow: one less without it. -/
theorem ripples_subtractDigits :
    Ripples dev subtractDigits Packed decimal 100 (-1) (fun c => (c.toNat : Int) - 1) where
  digit := by
    intro s x y hx hy
    obtain ⟨_, _, adjusted⟩ := adjusted_subtractDigits dev s hx hy
    exact adjusted.packed
  column := by
    intro s x y hx hy
    obtain ⟨z, complement, adjusted⟩ := adjusted_subtractDigits dev s hx hy
    have rest := complement.total
    have total := adjusted.total
    simp only [Bool.toNat_false] at total
    push_cast
    omega

/-- What adding `xs` and `ys` and the carry of `s` makes. -/
structure IsDecimalSum (s : System σ) (xs ys : List UInt8) (r : List UInt8 × System σ) :
    Prop where
  length : r.1.length = xs.length
  packed : ∀ v ∈ r.1, Packed v
  number : decimals r.1 + 100 ^ xs.length * r.2.cpu.flags.carry.toNat =
    decimals xs + decimals ys + s.cpu.flags.carry.toNat

/-- What subtracting `ys` from `xs` makes, and one more where `s` has no carry. -/
structure IsDecimalDifference (s : System σ) (xs ys : List UInt8) (r : List UInt8 × System σ) :
    Prop where
  length : r.1.length = xs.length
  packed : ∀ v ∈ r.1, Packed v
  number : (decimals r.1 : Int) =
    decimals xs - decimals ys - (1 - s.cpu.flags.carry.toNat) +
      100 ^ xs.length * (1 - r.2.cpu.flags.carry.toNat)

theorem isDecimalSum_addDigits (s : System σ) {xs ys : List UInt8}
    (aligned : xs.length = ys.length) (hx : ∀ x ∈ xs, Packed x) (hy : ∀ y ∈ ys, Packed y) :
    IsDecimalSum s xs ys (columns dev addDigits s xs ys) := by
  have rippled := (ripples_addDigits dev).columns s aligned hx hy
  refine ⟨rippled.length, rippled.digits, ?_⟩
  have := rippled.number
  rw [one_mul] at this
  exact_mod_cast this

theorem isDecimalDifference_subtractDigits (s : System σ) {xs ys : List UInt8}
    (aligned : xs.length = ys.length) (hx : ∀ x ∈ xs, Packed x) (hy : ∀ y ∈ ys, Packed y) :
    IsDecimalDifference s xs ys (columns dev subtractDigits s xs ys) := by
  have rippled := (ripples_subtractDigits dev).columns s aligned hx hy
  refine ⟨rippled.length, rippled.digits, ?_⟩
  unfold decimals
  linear_combination rippled.number

/-- **Adjusted sums make decimal numbers**: from any state, packed bytes added column by
column, each with the adjustment, are packed bytes of the decimal sum; added to the
complements instead, of the decimal difference, where a carry means that nothing is
borrowed. -/
theorem decimal_chains (dev : Device σ) (s : System σ) (xs ys : List UInt8)
    (aligned : xs.length = ys.length) (hx : ∀ x ∈ xs, Packed x) (hy : ∀ y ∈ ys, Packed y) :
    IsDecimalSum s xs ys (columns dev addDigits s xs ys) ∧
      IsDecimalDifference s xs ys (columns dev subtractDigits s xs ys) :=
  ⟨isDecimalSum_addDigits dev s aligned hx hy,
    isDecimalDifference_subtractDigits dev s aligned hx hy⟩

/-- 9999 and 1, and a carry to start from. -/
theorem decimal_chains_full :
    let s : System Unit := { cpu := { flags := { carry := true } }, memory := .blank, device := () }
    let xs : List UInt8 := [0x99, 0x99]
    let ys : List UInt8 := [0x01, 0x00]
    xs.length = ys.length ∧ (∀ x ∈ xs, Packed x) ∧ (∀ y ∈ ys, Packed y) ∧
      IsDecimalSum s xs ys (columns .unconnected addDigits s xs ys) ∧
      IsDecimalDifference s xs ys (columns .unconnected subtractDigits s xs ys) := by
  intro s xs ys
  have hx : ∀ x ∈ xs, Packed x :=
    List.forall_mem_cons.mpr ⟨by decide, List.forall_mem_singleton.mpr (by decide)⟩
  have hy : ∀ y ∈ ys, Packed y :=
    List.forall_mem_cons.mpr ⟨by decide, List.forall_mem_singleton.mpr (by decide)⟩
  exact ⟨rfl, hx, hy, decimal_chains .unconnected s xs ys rfl hx hy⟩

end System
end Cabinet

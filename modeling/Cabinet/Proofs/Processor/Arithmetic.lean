import Cabinet.Processor.Alu

/-! Sums and differences of two bytes, as numbers.

What addition and subtraction leave in the accumulator and in the carry together is the
whole sum or difference. After a sum of packed decimal bytes the adjustment makes it the
decimal one (`adjusted`): a low half that passed nine, whether that shows as a carry out of
it or not, passes fifteen with six more, and likewise the whole byte. -/
namespace Cabinet

/-! ### Binary -/

namespace Alu

theorem add_value (a v : UInt8) (c : Bool) (f : Flags) :
    (add a v c f).1.toNat + 256 * (add a v c f).2.carry.toNat = a.toNat + v.toNat + c.toNat := by
  have ha := a.toNat_lt
  have hv := v.toNat_lt
  have hc := c.toNat_le
  show (UInt8.ofNat (a.toNat + v.toNat + c.toNat)).toNat +
    256 * (decide (255 < a.toNat + v.toNat + c.toNat)).toNat = _
  rw [UInt8.toNat_ofNat']
  by_cases passed : 255 < a.toNat + v.toNat + c.toNat
  · rw [decide_eq_true passed, Bool.toNat_true]
    omega
  · rw [decide_eq_false passed, Bool.toNat_false]
    omega

theorem subtract_value (a v : UInt8) (c : Bool) (f : Flags) :
    (subtract a v c f).1.toNat + v.toNat + c.toNat =
      a.toNat + 256 * (subtract a v c f).2.carry.toNat := by
  have ha := a.toNat_lt
  have hv := v.toNat_lt
  have hc := c.toNat_le
  have borrow : c.toUInt8.toNat = c.toNat := by cases c <;> rfl
  show (a - v - c.toUInt8).toNat + v.toNat + c.toNat =
    a.toNat + 256 * (decide (a.toNat < v.toNat + c.toNat)).toNat
  rw [UInt8.toNat_sub, UInt8.toNat_sub, borrow]
  by_cases short : a.toNat < v.toNat + c.toNat
  · rw [decide_eq_true short, Bool.toNat_true]
    omega
  · rw [decide_eq_false short, Bool.toNat_false]
    omega

end Alu

/-! ### Decimal -/

/-- What the two halves of a byte are worth as decimal digits. -/
def decimal (v : UInt8) : Nat :=
  10 * (v.toNat / 16) + v.toNat % 16

/-- Both halves are decimal digits. -/
structure Packed (v : UInt8) : Prop where
  tens : v.toNat / 16 ≤ 9
  units : v.toNat % 16 ≤ 9

instance (v : UInt8) : Decidable (Packed v) :=
  decidable_of_iff (v.toNat / 16 ≤ 9 ∧ v.toNat % 16 ≤ 9)
    ⟨fun h => ⟨h.1, h.2⟩, fun h => ⟨h.tens, h.units⟩⟩

namespace Alu

/-- What the adjustment takes a digit sum past nine for: six more, so that it passes fifteen. -/
def six (low : Nat) : Nat :=
  if 9 < low then 6 else 0

/-- The low half passes nine just if the sum of the low digits does, whether that shows as
a carry out of the half or not. -/
theorem low_passes {sum low : Nat} (h : sum % 16 = low % 16) (small : low ≤ 19) :
    (decide (15 < low) || decide (9 < sum % 256 % 16)) = decide (9 < low) := by
  rw [← Bool.decide_or, decide_eq_decide]
  omega

/-- The whole byte passes 99, with six more for a low half that passed nine, just if the
decimal sum does. -/
theorem whole_passes {high low : Nat} (hhigh : high ≤ 18) (hlow : low ≤ 19) :
    (decide (255 < 16 * high + low) ||
      decide (0x99 < (16 * high + low) % 256 + six low)) = decide (99 < 10 * high + low) := by
  rw [← Bool.decide_or, decide_eq_decide]
  unfold six
  split <;> omega

/-- The adjusted sum by the sums of the high and of the low halves. -/
theorem decimalAdjust_add {a v : UInt8} {c : Bool} {high low : Nat} (f : Flags)
    (hhigh : a.toNat / 16 + v.toNat / 16 = high)
    (hlow : a.toNat % 16 + v.toNat % 16 + c.toNat = low)
    (high_le : high ≤ 18) (low_le : low ≤ 19) :
    (decimalAdjust (add a v c f).1 (add a v c f).2).2.carry = decide (99 < 10 * high + low) ∧
      (decimalAdjust (add a v c f).1 (add a v c f).2).1.toNat =
        ((16 * high + low) % 256 + six low + if 99 < 10 * high + low then 0x60 else 0) % 256 := by
  have sum : a.toNat + v.toNat + c.toNat = 16 * high + low := by omega
  have units : (if (decide (15 < low) || decide (9 < (16 * high + low) % 256 % 16)) = true then
      (16 * high + low) % 256 + 6 else (16 * high + low) % 256) =
        (16 * high + low) % 256 + six low := by
    rw [low_passes (by omega) low_le]
    unfold six
    split <;> simp_all
  simp only [decimalAdjust, add, hlow, sum, UInt8.toNat_ofNat', Nat.reducePow]
  rw [units, whole_passes high_le low_le]
  refine ⟨rfl, ?_⟩
  simp only [decide_eq_true_eq]
  split <;> rfl

/-- The digits of the sum of `a` and `v` with a carry, and the carry out of them. -/
structure Adjusted (a v : UInt8) (c : Bool) (r : UInt8 × Flags) : Prop where
  packed : Packed r.1
  total : decimal r.1 + 100 * r.2.carry.toNat = decimal a + decimal v + c.toNat

/-- The adjusted sum has the digits of the decimal sum, even where the accumulator had ten
in its low half. -/
theorem adjusted {a v : UInt8} {c : Bool} (f : Flags) (tens : a.toNat / 16 ≤ 9)
    (units : a.toNat % 16 + c.toNat ≤ 10) (hv : Packed v) :
    Adjusted a v c (decimalAdjust (add a v c f).1 (add a v c f).2) := by
  have vtens := hv.tens
  have vunits := hv.units
  obtain ⟨carry, result⟩ := decimalAdjust_add (a := a) (v := v) (c := c) f rfl rfl (by omega)
    (by omega)
  generalize decimalAdjust (add a v c f).1 (add a v c f).2 = r at carry result
  unfold six at result
  constructor
  · constructor
    · split at result <;> split at result <;> omega
    · split at result <;> split at result <;> omega
  · unfold decimal
    by_cases passed :
        99 < 10 * (a.toNat / 16 + v.toNat / 16) + (a.toNat % 16 + v.toNat % 16 + c.toNat)
    · rw [if_pos passed] at result
      rw [carry, decide_eq_true passed, Bool.toNat_true]
      split at result <;> omega
    · rw [if_neg passed] at result
      rw [carry, decide_eq_false passed, Bool.toNat_false]
      split at result <;> omega

/-- Taken from 99, or from 100 with a carry, a pair of digits leaves a byte whose low half
may be ten. -/
structure Complements (y : UInt8) (c : Bool) (z : UInt8) : Prop where
  tens : z.toNat / 16 ≤ 9
  units : z.toNat % 16 ≤ 10
  total : decimal z + decimal y = 99 + c.toNat

theorem complements {y : UInt8} (c : Bool) (f g : Flags) (hy : Packed y) :
    Complements y c (subtract (add 0x99 0 c f).1 y false g).1 := by
  have ytens := hy.tens
  have yunits := hy.units
  have hc := c.toNat_le
  have all := add_value 0x99 0 c f
  have rest := subtract_value (add 0x99 0 c f).1 y false g
  generalize (subtract (add 0x99 0 c f).1 y false g).1 = z at rest ⊢
  have sum_lt := (add 0x99 0 c f).1.toNat_lt
  have z_lt := z.toNat_lt
  simp only [UInt8.reduceToNat, Bool.toNat_false] at all rest
  constructor
  · omega
  · omega
  · unfold decimal
    omega

end Alu
end Cabinet

/-! Bytes and the words they make.

A word is its high byte times 256 plus its low byte; `join` builds it, `high` and
`low` take it apart, and the two directions undo each other. -/
namespace Cabinet.Word

/-- The word whose high byte is `hi` and whose low byte is `lo`. -/
def join (hi lo : UInt8) : UInt16 :=
  hi.toUInt16 * 256 + lo.toUInt16

def high (w : UInt16) : UInt8 :=
  (w / 256).toUInt8

def low (w : UInt16) : UInt8 :=
  w.toUInt8

theorem toNat_join (hi lo : UInt8) : (join hi lo).toNat = hi.toNat * 256 + lo.toNat := by
  have := hi.toNat_lt
  have := lo.toNat_lt
  simp only [join, UInt16.toNat_add, UInt16.toNat_mul, UInt8.toNat_toUInt16, UInt16.reduceToNat]
  omega

theorem toNat_high (w : UInt16) : (high w).toNat = w.toNat / 256 := by
  have := w.toNat_lt
  simp only [high, UInt16.toNat_toUInt8, UInt16.toNat_div, UInt16.reduceToNat]
  omega

theorem toNat_low (w : UInt16) : (low w).toNat = w.toNat % 256 := by
  simp only [low, UInt16.toNat_toUInt8]

@[simp] theorem high_join (hi lo : UInt8) : high (join hi lo) = hi := by
  apply UInt8.toNat_inj.mp
  have := lo.toNat_lt
  rw [toNat_high, toNat_join]
  omega

@[simp] theorem low_join (hi lo : UInt8) : low (join hi lo) = lo := by
  apply UInt8.toNat_inj.mp
  have := lo.toNat_lt
  rw [toNat_low, toNat_join]
  omega

@[simp] theorem join_high_low (w : UInt16) : join (high w) (low w) = w := by
  apply UInt16.toNat_inj.mp
  rw [toNat_join, toNat_high, toNat_low]
  omega

/-- What holds of 256 numbers holds of every byte. -/
theorem forall_byte {p : UInt8 → Prop} (h : ∀ n, n < 256 → p (UInt8.ofNat n)) (v : UInt8) : p v := by
  have := h v.toNat v.toNat_lt
  rwa [UInt8.ofNat_toNat] at this

end Cabinet.Word

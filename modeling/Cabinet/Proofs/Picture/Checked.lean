import Cabinet.Proofs.Picture.Drawing
import Cabinet.Proofs.Processor.Checked

/-! A pixel, with the arithmetic that places it able to fail.

The index of a byte in video RAM is multiplied, taken apart into a column and a height, the
height is turned into a row from the top, and the place of the pixel in the buffer is put
together from these again. For every bit of the video RAM all of it fits 64 bits, no
difference is negative, and the pixel lies inside the buffer (`drawBit_ok`). -/
namespace Cabinet.Checked

/-- Whether a bit of a byte is set, found with a mask. -/
def lit (v : UInt8) (bit : Nat) : Option Bool := do
  let mask ← shiftLeft 8 1 bit
  return v &&& UInt8.ofNat mask != 0

/-- The number of a pixel in the buffer, if its last byte has a place there. -/
def pixel (column row : Nat) : Option Nat := do
  let before ← fit 64 (row * Picture.width)
  let pixel ← fit 64 (before + column)
  let _last ← fit 64 (pixel * 3 + 2)
  return pixel

/-- One pixel, from one bit of the byte at `index`. -/
def drawBit (palette : Palette) (index : Nat) (v : UInt8) (screen : Screen) (bit : Nat) :
    Option Screen := do
  let first ← fit 64 (index * 8)
  let height ← fit 64 (first % 256 + bit)
  let row ← minus 255 height
  let set ← lit v bit
  let color := if set then palette.lit height else .black
  (color.write screen (← pixel (first / 256) row)).toOption

theorem lit_eq (v : UInt8) {bit : Nat} (h : bit < 8) : lit v bit = some (v.toNat.testBit bit) := by
  have masked : ∀ bit < 8, (v &&& UInt8.ofNat (1 <<< bit % 2 ^ 8) != 0) = v.toNat.testBit bit :=
    Word.forall_byte
      (p := fun v => ∀ bit < 8, (v &&& UInt8.ofNat (1 <<< bit % 2 ^ 8) != 0) = v.toNat.testBit bit)
      (by decide +kernel) v
  rw [lit, shiftLeft_of_lt _ h]
  exact congrArg some (masked bit h)

theorem pixel_eq {column row : Nat} (hc : column < 224) (hr : row < 256) :
    pixel column row = some (row * Picture.width + column) := by
  unfold pixel Picture.width
  rw [fit_of_lt (by omega), Option.bind_eq_bind, Option.bind_some, fit_of_lt (by omega),
    Option.bind_some, fit_of_lt (by omega)]
  rfl

/-- Every bit of the video RAM is drawn, and its pixel is placed without overflow. -/
theorem drawBit_ok (palette : Palette) {index bit : Nat} (hi : index < 7168) (hb : bit < 8)
    (v : UInt8) (screen : Screen) :
    ∃ t, Picture.drawBit palette index v screen bit = .ok t ∧
      drawBit palette index v screen bit = some t := by
  have inside : ∀ color : Color, ∃ t, color.write screen (Picture.pixelAt index bit) = .ok t :=
    fun color => (Screen.write_pixel color screen ⟨_, Picture.pixelAt_lt hi hb⟩).imp fun _ h => h.1
  obtain ⟨t, written⟩ := inside
    (if v.toNat.testBit bit then palette.lit (index * 8 % 256 + bit) else .black)
  refine ⟨t, ?_, ?_⟩
  · rw [Picture.drawBit, Picture.place_eq hi hb]
    exact written
  · have placed : drawBit palette index v screen bit =
        ((if v.toNat.testBit bit then palette.lit (index * 8 % 256 + bit) else Color.black).write
          screen (Picture.pixelAt index bit)).toOption := by
      simp only [drawBit, fit_of_lt (show index * 8 < 2 ^ 64 by omega),
        fit_of_lt (show index * 8 % 256 + bit < 2 ^ 64 by omega),
        minus_of_le (show index * 8 % 256 + bit ≤ 255 by omega), lit_eq v hb,
        pixel_eq (show index * 8 / 256 < 224 by omega)
          (show 255 - (index * 8 % 256 + bit) < 256 by omega),
        Option.bind_eq_bind, Option.bind_some]
      rfl
    rw [placed, written]
    rfl

end Cabinet.Checked

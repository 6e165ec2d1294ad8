import Cabinet.Proofs.Picture.Drawing
import Mathlib.Algebra.BigOperators.Ring.Finset
import Mathlib.Data.Fintype.BigOperators

/-! The picture, read back.

Every pixel is drawn from a bit of video RAM, and every bit is drawn at one pixel
(`bitOf`). Through either film a lit pixel is not black, so the screen shows which bits are
set: what is in video RAM can be read off it, whatever the palette (`videoOf_frame`), and
there are as many pixels that are not black as bits that are set (`card_bright_frame`). So
nothing is lost in a picture, and the film only changes its colours (`picture_tells`). -/
namespace Cabinet.Picture
variable {palette : Palette} {video : VideoRam}

/-! ### Pixels and their bits -/

/-- A bit of video RAM: the index of its byte, and its place there. -/
abbrev Bit := Fin 7168 × Fin 8

theorem turn_eq (p : Pixel) : turn p = byteOf p * 8 + heightOf p % 8 := by
  unfold turn byteOf
  omega

/-- The bit that a pixel is drawn from. -/
def bitOf : Pixel ≃ Bit where
  toFun p := (⟨byteOf p, byteOf_lt p⟩, ⟨heightOf p % 8, Nat.mod_lt _ (by decide)⟩)
  invFun b := ⟨pixelAt b.1 b.2, pixelAt_lt b.1.isLt b.2.isLt⟩
  left_inv p := ((turn_eq_iff (byteOf_lt p) (Nat.mod_lt _ (by decide)) p).mp (turn_eq p)).symm
  right_inv b := by
    have place := (turn_eq_iff b.1.isLt b.2.isLt ⟨pixelAt b.1 b.2, _⟩).mpr rfl
    rw [turn_eq] at place
    apply Prod.ext <;> apply Fin.ext <;> dsimp only <;> omega

/-- Whether a bit of video RAM is set. -/
def isSet (video : VideoRam) (b : Bit) : Bool :=
  (video.get b.1 b.1.isLt).toNat.testBit b.2

/-- A pixel is black just where its bit is not set. -/
theorem pixel_frame_ne_black_iff (p : Pixel) :
    (frame palette video).pixel p ≠ .black ↔ isSet video (bitOf p) = true := by
  have color : (frame palette video).pixel p =
      if isSet video (bitOf p) then palette.lit (heightOf p) else .black :=
    Screen.pixel_ofPixels ..
  rw [color]
  cases isSet video (bitOf p)
  · simp
  · simp [lit_ne_black]

/-! ### Reading -/

/-- The video RAM that a screen shows: a bit is set where its pixel is not black. -/
def videoOf (s : Screen) : VideoRam :=
  .ofFn fun i =>
    .ofNat (Nat.ofBits fun bit : Fin 8 => decide (s.pixel (bitOf.symm (i, bit)) ≠ .black))

/-- What has been drawn can be read, through either film. -/
theorem videoOf_frame (palette : Palette) (video : VideoRam) :
    videoOf (frame palette video) = video := by
  apply Block.ext
  intro i hi
  have bits : ∀ bit : Fin 8,
      decide ((frame palette video).pixel (bitOf.symm (⟨i, hi⟩, bit)) ≠ .black) =
        (video.get i hi).toNat.testBit bit := by
    intro bit
    have shown : (frame palette video).pixel (bitOf.symm (⟨i, hi⟩, bit)) ≠ .black ↔ _ :=
      pixel_frame_ne_black_iff _
    rw [Equiv.apply_symm_apply] at shown
    exact Bool.eq_iff_iff.mpr (decide_eq_true_iff.trans shown)
  simp only [videoOf, Block.get_ofFn, bits]
  rw [Nat.ofBits_testBit, Nat.mod_eq_of_lt (video.get i hi).toNat_lt, UInt8.ofNat_toNat]

theorem frame_injective (palette : Palette) : Function.Injective (frame palette) :=
  Function.LeftInverse.injective (videoOf_frame palette)

/-! ### Counting -/

/-- The pixels of a screen that are not black. -/
def bright (s : Screen) : Finset Pixel :=
  Finset.univ.filter fun p => s.pixel p ≠ .black

/-- How many bits of video RAM are set. -/
def setBits (video : VideoRam) : Nat :=
  ∑ i, ∑ bit, (isSet video (i, bit)).toNat

theorem bright_frame (palette : Palette) (video : VideoRam) :
    bright (frame palette video) =
      Finset.univ.filter fun p => isSet video (bitOf p) = true := by
  apply Finset.filter_congr
  intro p _
  exact pixel_frame_ne_black_iff p

/-- A sum over the pixels is one over the bytes and their bits. -/
theorem card_bright_frame (palette : Palette) (video : VideoRam) :
    (bright (frame palette video)).card = setBits video := by
  calc (bright (frame palette video)).card
      = ∑ p, (isSet video (bitOf p)).toNat := by
        rw [bright_frame, Finset.card_filter]
        apply Finset.sum_congr rfl
        intro p _
        cases isSet video (bitOf p) <;> rfl
    _ = ∑ b, (isSet video b).toNat := bitOf.sum_comp fun b => (isSet video b).toNat
    _ = setBits video := Fintype.sum_prod_type _

/-- **A picture tells what is in video RAM.** It is read off the screen by one rule for both
palettes, so that equal pictures come from equal video RAM. Both palettes leave the same
pixels black, and the others are as many as there are bits set. -/
theorem picture_tells :
    (∀ palette video before, ∃ s, draw palette video before = .ok s ∧ videoOf s = video ∧
      (bright s).card = setBits video) ∧
    (∀ palette video video' before before',
      draw palette video before = draw palette video' before' ↔ video = video') ∧
    ∀ video before before', ∃ s t, draw .monochrome video before = .ok s ∧
      draw .overlay video before' = .ok t ∧ bright s = bright t := by
  refine ⟨fun palette video before => ?_, fun palette video video' before before' => ?_,
    fun video before before' => ?_⟩
  · exact ⟨_, draw_eq .., videoOf_frame .., card_bright_frame ..⟩
  · rw [draw_eq, draw_eq, Except.ok.injEq]
    exact (frame_injective palette).eq_iff
  · refine ⟨_, _, draw_eq .., draw_eq .., ?_⟩
    rw [bright_frame, bright_frame]

end Cabinet.Picture

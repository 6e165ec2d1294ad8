import Cabinet.Picture

/-! The picture that is drawn.

Drawing goes through video RAM bit by bit, and each bit is one pixel. The number of the bit
that a pixel is drawn from is its `turn`: no two pixels have the same, and together they
have all of them. So after every bit the pixels whose turn has come show their colour and
the others what the screen showed before (`Covers`), and in the end nothing is left of that
(`draw_eq`): the screen is `frame`, whatever it was. -/
namespace Cabinet

/-! ### Screens by their pixels -/

/-- A pixel by its place: the rows from the top, each from the left. -/
abbrev Pixel := Fin 57344

namespace Pixel

def column (p : Pixel) : Nat :=
  p.val % Picture.width

def row (p : Pixel) : Nat :=
  p.val / Picture.width

end Pixel

namespace Screen

def pixel (s : Screen) (p : Pixel) : Color where
  red := s.get (p.val * 3) (by omega)
  green := s.get (p.val * 3 + 1) (by omega)
  blue := s.get (p.val * 3 + 2) (by omega)

/-- Screens that show the same are equal. -/
theorem ext_pixel {s t : Screen} (h : ∀ p, s.pixel p = t.pixel p) : s = t := by
  apply Block.ext
  intro i hi
  have same := h ⟨i / 3, by omega⟩
  simp only [pixel, Color.mk.injEq] at same
  obtain ⟨red, green, blue⟩ := same
  have place : i = i / 3 * 3 ∨ i = i / 3 * 3 + 1 ∨ i = i / 3 * 3 + 2 := by omega
  rcases place with e | e | e
  · simpa only [← e] using red
  · simpa only [← e] using green
  · simpa only [← e] using blue

/-- The screen with the given colour at each pixel. -/
def ofPixels (f : Pixel → Color) : Screen :=
  Block.ofFn fun i =>
    let c := f ⟨i.val / 3, by omega⟩
    match i.val % 3 with
    | 0 => c.red
    | 1 => c.green
    | _ => c.blue

@[simp] theorem pixel_ofPixels (f : Pixel → Color) (p : Pixel) : (ofPixels f).pixel p = f p := by
  have h₀ : p.val * 3 / 3 = p.val ∧ p.val * 3 % 3 = 0 := by omega
  have h₁ : (p.val * 3 + 1) / 3 = p.val ∧ (p.val * 3 + 1) % 3 = 1 := by omega
  have h₂ : (p.val * 3 + 2) / 3 = p.val ∧ (p.val * 3 + 2) % 3 = 2 := by omega
  simp only [pixel, ofPixels, Block.get_ofFn, h₀, h₁, h₂]

/-- Writing a colour changes its pixel and no other. -/
theorem write_pixel (c : Color) (s : Screen) (p : Pixel) :
    ∃ t : Screen, c.write s p.val = .ok t ∧ ∀ q, t.pixel q = if q = p then c else s.pixel q := by
  have inside : p.val * 3 + 2 < 172032 := by omega
  refine ⟨_, dif_pos inside, fun q => ?_⟩
  by_cases same : q = p
  · subst same
    simp only [pixel, Block.get_set]
    simp
  · have apart : q.val ≠ p.val := fun e => same (Fin.ext e)
    rw [if_neg same]
    simp only [pixel, Block.get_set]
    congr 1 <;> repeat rw [if_neg (by omega)]

/-! ### Drawing, one pixel after the other -/

/-- `after` shows `color` where `drawn` holds, and elsewhere what `before` showed. -/
structure Covers (color : Pixel → Color) (drawn : Pixel → Prop) (before after : Screen) :
    Prop where
  shown : ∀ p, drawn p → after.pixel p = color p
  kept : ∀ p, ¬drawn p → after.pixel p = before.pixel p

variable {color : Pixel → Color} {before after : Screen}

theorem Covers.start {drawn : Pixel → Prop} (h : ∀ p, ¬drawn p) :
    Covers color drawn before before :=
  ⟨fun p hp => absurd hp (h p), fun _ _ => rfl⟩

/-- One pixel more. -/
theorem Covers.write {drawn more : Pixel → Prop} (h : Covers color drawn before after) (p : Pixel)
    (next : ∀ q, more q ↔ drawn q ∨ q = p) :
    ∃ t, (color p).write after p.val = .ok t ∧ Covers color more before t := by
  obtain ⟨t, written, shows⟩ := write_pixel (color p) after p
  refine ⟨t, written, fun q hq => ?_, fun q hq => ?_⟩
  · rw [shows]
    split
    case isTrue same => rw [same]
    case isFalse other => exact h.shown q (((next q).mp hq).resolve_right other)
  · rw [next, not_or] at hq
    rw [shows, if_neg hq.2]
    exact h.kept q hq.1

/-- A loop that can take each step from the state that the steps before it leave ends in
the state after the last. -/
theorem foldlM_range_ok {Inv : Nat → Screen → Prop} {step : Screen → Nat → Except Fault Screen}
    (n : Nat) (next : ∀ k < n, ∀ s, Inv k s → ∃ t, step s k = .ok t ∧ Inv (k + 1) t)
    {s : Screen} (start : Inv 0 s) : ∃ t, (List.range n).foldlM step s = .ok t ∧ Inv n t := by
  induction n with
  | zero => exact ⟨s, rfl, start⟩
  | succ n ih =>
    obtain ⟨t, ran, reached⟩ := ih fun k hk => next k (Nat.lt_succ_of_lt hk)
    obtain ⟨u, stepped, done⟩ := next n (Nat.lt_succ_self n) t reached
    refine ⟨u, ?_, done⟩
    rw [List.range_succ, List.foldlM_append, ran]
    show (do let s ← step t n; [].foldlM step s) = .ok u
    rw [stepped]
    rfl

end Screen

namespace Picture
open Screen
variable {palette : Palette} {video : VideoRam} {before : Screen}

/-! ### The picture -/

/-- The height of a pixel above the bottom. -/
def heightOf (p : Pixel) : Nat :=
  255 - p.row

theorem column_lt (p : Pixel) : p.column < 224 :=
  Nat.mod_lt _ (by decide)

theorem row_lt (p : Pixel) : p.row < 256 :=
  Nat.div_lt_of_lt_mul p.isLt

/-- The index in video RAM of the byte that a pixel is drawn from. -/
def byteOf (p : Pixel) : Nat :=
  p.column * 32 + heightOf p / 8

theorem byteOf_lt (p : Pixel) : byteOf p < 7168 := by
  have := column_lt p
  have : heightOf p ≤ 255 := Nat.sub_le ..
  unfold byteOf
  omega

theorem lit_ne_black (palette : Palette) (height : Nat) : palette.lit height ≠ .black := by
  unfold Palette.lit
  split
  · decide
  · split
    · decide
    · split <;> decide

/-- The colour that a pixel is to have. -/
def colorOf (palette : Palette) (video : VideoRam) (p : Pixel) : Color :=
  if (video.get (byteOf p) (byteOf_lt p)).toNat.testBit (heightOf p % 8) then
    palette.lit (heightOf p)
  else .black

/-- The screen that shows what is in video RAM. -/
def frame (palette : Palette) (video : VideoRam) : Screen :=
  .ofPixels (colorOf palette video)

/-- The number of the bit that a pixel is drawn from. -/
def turn (p : Pixel) : Nat :=
  p.column * 256 + heightOf p

theorem turn_lt (p : Pixel) : turn p < 57344 := by
  have := column_lt p
  have : heightOf p ≤ 255 := Nat.sub_le ..
  unfold turn
  omega

/-- The pixel that is drawn from a bit of a byte. -/
def pixelAt (index bit : Nat) : Nat :=
  (255 - (index * 8 % 256 + bit)) * width + index * 8 / 256

theorem pixelAt_lt {index bit : Nat} (hi : index < 7168) (hb : bit < 8) :
    pixelAt index bit < 57344 := by
  unfold pixelAt width
  omega

theorem turn_eq_iff {index bit : Nat} (hi : index < 7168) (hb : bit < 8) (p : Pixel) :
    turn p = index * 8 + bit ↔ p = ⟨pixelAt index bit, pixelAt_lt hi hb⟩ := by
  rw [Fin.ext_iff]
  simp only [turn, heightOf, Pixel.column, Pixel.row, pixelAt, width]
  omega

theorem place_eq {index bit : Nat} (hi : index < 7168) (hb : bit < 8) :
    place (UInt64.ofNat index) (UInt8.ofNat bit) =
      .ok (index * 8 / 256, 255 - (index * 8 % 256 + bit)) := by
  have index64 : (UInt64.ofNat index).toNat = index := UInt64.toNat_ofNat_of_lt' (Nat.lt_trans hi (by decide))
  have bit8 : (UInt8.ofNat bit).toNat = bit := UInt8.toNat_ofNat_of_lt' (Nat.lt_trans hb (by decide))
  have fits : ¬(UInt64.size ≤ index * 8 ∨ 255 < index * 8 % 256 + bit) := by
    simp only [UInt64.size]
    omega
  simp only [place, index64, bit8]
  exact if_neg fits

/-- A bit is drawn at its pixel, in the colour that the pixel is to have. -/
theorem drawBit_eq {index bit : Nat} (hi : index < 7168) (hb : bit < 8) (screen : Screen) :
    drawBit palette index (video.get index hi) screen bit =
      (colorOf palette video ⟨pixelAt index bit, pixelAt_lt hi hb⟩).write screen
        (pixelAt index bit) := by
  have height : heightOf ⟨pixelAt index bit, pixelAt_lt hi hb⟩ = index * 8 % 256 + bit := by
    simp only [heightOf, Pixel.row, pixelAt, width]
    omega
  have byte : byteOf ⟨pixelAt index bit, pixelAt_lt hi hb⟩ = index := by
    rw [byteOf, height]
    simp only [Pixel.column, pixelAt, width]
    omega
  have low : (index * 8 % 256 + bit) % 8 = bit := by omega
  simp only [drawBit, place_eq hi hb, bind, Except.bind, colorOf, height, byte, low]
  rfl

/-- Eight turns. -/
theorem drawByte_covers {index : Nat} (hi : index < 7168) {screen : Screen}
    (h : Covers (colorOf palette video) (turn · < index * 8) before screen) :
    ∃ t, drawByte palette index (video.get index hi) screen = .ok t ∧
      Covers (colorOf palette video) (turn · < (index + 1) * 8) before t := by
  have next : ∀ bit < 8, ∀ s, Covers (colorOf palette video) (turn · < index * 8 + bit) before s →
      ∃ t, drawBit palette index (video.get index hi) s bit = .ok t ∧
        Covers (colorOf palette video) (turn · < index * 8 + (bit + 1)) before t := by
    intro bit hb s hs
    rw [drawBit_eq hi hb]
    refine hs.write ⟨pixelAt index bit, pixelAt_lt hi hb⟩ fun q => ?_
    rw [← turn_eq_iff hi hb]
    omega
  obtain ⟨t, ran, done⟩ := foldlM_range_ok 8 next h
  refine ⟨t, ran, ?_⟩
  rwa [Nat.succ_mul]

/-- From any byte to the last. -/
theorem drawFrom_covers {rest : List UInt8} {index : Nat} {screen : Screen}
    (hr : rest = video.toList.drop index)
    (h : Covers (colorOf palette video) (turn · < index * 8) before screen) :
    ∃ t, drawFrom palette index rest screen = .ok t ∧
      Covers (colorOf palette video) (turn · < (index + rest.length) * 8) before t := by
  induction rest generalizing index screen with
  | nil => exact ⟨screen, rfl, h⟩
  | cons v rest ih =>
    have hi : index < video.toList.length := by
      apply Nat.lt_of_not_le
      intro beyond
      rw [List.drop_eq_nil_of_le beyond] at hr
      cases hr
    rw [List.drop_eq_getElem_cons hi] at hr
    obtain ⟨rfl, rfl⟩ := List.cons.inj hr
    obtain ⟨t, drawn, covers⟩ := drawByte_covers (by simpa using hi) h
    obtain ⟨u, ran, done⟩ := ih rfl covers
    refine ⟨u, ?_, ?_⟩
    · rw [drawFrom, Block.getElem_toList, drawn]
      exact ran
    · rw [List.length_cons, Nat.add_comm _ 1, ← Nat.add_assoc]
      exact done

/-- **Drawing gives the picture that is in video RAM**, whatever the screen showed before. -/
theorem draw_eq (palette : Palette) (video : VideoRam) (screen : Screen) :
    draw palette video screen = .ok (frame palette video) := by
  have start : Covers (colorOf palette video) (turn · < 0 * 8) screen screen :=
    .start fun p => by omega
  have whole : video.toList = video.toList.drop 0 := rfl
  obtain ⟨t, ran, done⟩ := drawFrom_covers whole start
  have all : ∀ p, turn p < (0 + video.toList.length) * 8 := by
    intro p
    rw [Block.length_toList]
    exact turn_lt p
  rw [draw, ran]
  refine congrArg Except.ok (ext_pixel fun p => ?_)
  rw [done.shown p (all p), frame, pixel_ofPixels]

end Picture
end Cabinet

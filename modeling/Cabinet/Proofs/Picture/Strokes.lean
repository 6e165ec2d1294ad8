import Cabinet.Proofs.Picture.Drawing

/-! Drawing, as the strokes it is made of.

A stroke is a colour for one pixel. Drawing is the strokes for the bits of video RAM, one
after the other on the same screen (`draw_eq_paint`). Each pixel has a turn of its own, so
among the strokes there is just one for it (`count_strokes`), and nothing is left of what the
screen showed before: each pixel has the colour of its bit (`draw_exact`). -/
namespace Cabinet.Picture
variable {palette : Palette} {video : VideoRam} {index : Nat}

/-! ### Strokes -/

/-- A colour for a pixel, which is known by its number in the buffer. -/
structure Stroke where
  pixel : Nat
  color : Color

namespace Stroke

def paint (screen : Screen) (s : Stroke) : Except Fault Screen :=
  s.color.write screen s.pixel

/-- The last of the bytes written is one of the screen's. -/
def Inside (s : Stroke) : Prop :=
  s.pixel * 3 + 2 < 172032

end Stroke

/-- The stroke for a bit of the byte at `index`. -/
def stroke (palette : Palette) (index : Nat) (v : UInt8) (bit : Nat) : Stroke where
  pixel := pixelAt index bit
  color := if v.toNat.testBit bit then palette.lit (index * 8 % 256 + bit) else .black

def strokesFrom (palette : Palette) (index : Nat) : List UInt8 → List Stroke
  | [] => []
  | v :: rest => (List.range 8).map (stroke palette index v) ++ strokesFrom palette (index + 1) rest

/-- The strokes that draw what is in video RAM, in their order. -/
def strokes (palette : Palette) (video : VideoRam) : List Stroke :=
  strokesFrom palette 0 video.toList

/-! ### Drawing is painting -/

theorem drawBit_eq_paint {bit : Nat} (hi : index < 7168) (hb : bit < 8) (v : UInt8)
    (screen : Screen) :
    drawBit palette index v screen bit = (stroke palette index v bit).paint screen := by
  rw [drawBit, place_eq hi hb]
  rfl

theorem drawBits_eq_paint (hi : index < 7168) (v : UInt8) (screen : Screen) {n : Nat}
    (hn : n ≤ 8) :
    (List.range n).foldlM (drawBit palette index v) screen =
      ((List.range n).map (stroke palette index v)).foldlM Stroke.paint screen := by
  induction n with
  | zero => rfl
  | succ n ih =>
    have last : ∀ s, [n].foldlM (drawBit palette index v) s =
        [stroke palette index v n].foldlM Stroke.paint s := by
      intro s
      rw [List.foldlM_cons, List.foldlM_cons, drawBit_eq_paint hi hn]
      rfl
    rw [List.range_succ, List.map_append, List.foldlM_append, List.foldlM_append,
      ih (Nat.le_of_succ_le hn), funext last]
    rfl

theorem drawFrom_eq_paint (vs : List UInt8) (fits : index + vs.length ≤ 7168) (screen : Screen) :
    drawFrom palette index vs screen =
      (strokesFrom palette index vs).foldlM Stroke.paint screen := by
  induction vs generalizing index screen with
  | nil => rfl
  | cons v vs ih =>
    rw [List.length_cons] at fits
    rw [drawFrom, drawByte, strokesFrom, List.foldlM_append,
      drawBits_eq_paint (by omega) v screen (Nat.le_refl 8), funext (ih (by omega))]

theorem draw_eq_paint (palette : Palette) (video : VideoRam) (screen : Screen) :
    draw palette video screen = (strokes palette video).foldlM Stroke.paint screen :=
  drawFrom_eq_paint _ (by simp) screen

/-! ### One stroke for each pixel -/

theorem inside_of_mem (vs : List UInt8) (fits : index + vs.length ≤ 7168) {s : Stroke}
    (h : s ∈ strokesFrom palette index vs) : s.Inside := by
  induction vs generalizing index with
  | nil => cases h
  | cons v vs ih =>
    rw [List.length_cons] at fits
    cases List.mem_append.mp h with
    | inl here =>
      obtain ⟨bit, hb, rfl⟩ := List.mem_map.mp here
      have := pixelAt_lt (show index < 7168 by omega) (List.mem_range.mp hb)
      show pixelAt index bit * 3 + 2 < 172032
      omega
    | inr later => exact ih (by omega) later

/-- The first bits of a byte have a stroke for a pixel if its turn is among theirs. -/
theorem count_bits (hi : index < 7168) (v : UInt8) (p : Pixel) {n : Nat} (hn : n ≤ 8) :
    (((List.range n).map (stroke palette index v)).map Stroke.pixel).count p.val =
      if index * 8 ≤ turn p ∧ turn p < index * 8 + n then 1 else 0 := by
  induction n with
  | zero =>
    rw [if_neg (by omega)]
    rfl
  | succ n ih =>
    have own : pixelAt index n = p.val ↔ turn p = index * 8 + n := by
      rw [turn_eq_iff hi (Nat.lt_of_succ_le hn), Fin.ext_iff]
      exact eq_comm
    rw [List.range_succ, List.map_append, List.map_append, List.count_append,
      ih (Nat.le_of_succ_le hn)]
    by_cases last : turn p = index * 8 + n
    · have one : [pixelAt index n].count p.val = 1 := by simp [own.mpr last]
      show _ + [pixelAt index n].count p.val = _
      rw [one, if_neg (by omega), if_pos (by omega)]
    · have none : [pixelAt index n].count p.val = 0 := by simp [own, last]
      show _ + [pixelAt index n].count p.val = _
      rw [none]
      split <;> split <;> omega

theorem count_from (vs : List UInt8) (fits : index + vs.length ≤ 7168) (p : Pixel) :
    ((strokesFrom palette index vs).map Stroke.pixel).count p.val =
      if index * 8 ≤ turn p ∧ turn p < (index + vs.length) * 8 then 1 else 0 := by
  induction vs generalizing index with
  | nil =>
    rw [List.length_nil, if_neg (by omega)]
    rfl
  | cons v vs ih =>
    rw [List.length_cons] at fits ⊢
    rw [strokesFrom, List.map_append, List.count_append, count_bits (by omega) v p (Nat.le_refl 8),
      ih (by omega)]
    split <;> split <;> split <;> omega

theorem count_strokes (palette : Palette) (video : VideoRam) (p : Pixel) :
    ((strokes palette video).map Stroke.pixel).count p.val = 1 := by
  have := turn_lt p
  rw [strokes, count_from _ (by simp), Block.length_toList, if_pos (by omega)]

/-! ### The picture, pixel by pixel -/

/-- The pixel in a column and a row, from the left and from the top. -/
def pixelIn (x : Fin 224) (y : Fin 256) : Pixel :=
  ⟨y * 224 + x, by omega⟩

/-- Whether the bit that is shown there is set. -/
def bitAt (video : VideoRam) (x : Fin 224) (y : Fin 256) : Bool :=
  (video.get (32 * x + (255 - y) / 8) (by omega)).toNat.testBit ((255 - y) % 8)

/-- What a screen is to show of video RAM, seen through a palette. -/
structure Decodes (palette : Palette) (video : VideoRam) (screen : Screen) : Prop where
  clear : ∀ x y, bitAt video x y = false → screen.pixel (pixelIn x y) = ⟨0, 0, 0⟩
  monochrome : palette = .monochrome → ∀ x y, bitAt video x y = true →
    screen.pixel (pixelIn x y) = ⟨255, 255, 255⟩
  overlay : palette = .overlay → ∀ x y, bitAt video x y = true →
    screen.pixel (pixelIn x y) =
      if 200 < 255 - y.val ∧ 255 - y.val < 220 then ⟨255, 0, 0⟩
      else if 255 - y.val < 80 then ⟨0, 255, 0⟩
      else ⟨255, 255, 255⟩

theorem colorOf_pixelIn (palette : Palette) (video : VideoRam) (x : Fin 224) (y : Fin 256) :
    colorOf palette video (pixelIn x y) =
      if bitAt video x y then palette.lit (255 - y) else .black := by
  have height : heightOf (pixelIn x y) = 255 - y := by
    simp only [heightOf, Pixel.row, pixelIn, width]
    omega
  have byte : byteOf (pixelIn x y) = 32 * x + (255 - y) / 8 := by
    rw [byteOf, height]
    simp only [Pixel.column, pixelIn, width]
    omega
  simp only [colorOf, byte, height]
  rfl

theorem decodes_frame (palette : Palette) (video : VideoRam) :
    Decodes palette video (frame palette video) where
  clear := by
    intro x y dark
    rw [frame, Screen.pixel_ofPixels, colorOf_pixelIn, dark]
    rfl
  monochrome := by
    intro mono x y bright
    rw [frame, Screen.pixel_ofPixels, colorOf_pixelIn, bright, mono]
    rfl
  overlay := by
    intro film x y bright
    rw [frame, Screen.pixel_ofPixels, colorOf_pixelIn, bright, film]
    rfl

/-- **Drawing is exact, whatever the screen showed.** It paints one stroke for every pixel and
none beside the screen, and they leave every pixel in the colour of its bit, so that the
screens after it are all the same. -/
theorem draw_exact (palette : Palette) (video : VideoRam) :
    (∀ s ∈ strokes palette video, s.Inside) ∧
      (∀ p : Pixel, ((strokes palette video).map Stroke.pixel).count p.val = 1) ∧
      ∃ shown, Decodes palette video shown ∧ ∀ before,
        draw palette video before = .ok shown ∧
          (strokes palette video).foldlM Stroke.paint before = .ok shown := by
  refine ⟨fun s => inside_of_mem _ (by simp), count_strokes palette video, frame palette video,
    decodes_frame palette video, fun before => ⟨draw_eq palette video before, ?_⟩⟩
  rw [← draw_eq_paint]
  exact draw_eq palette video before

end Cabinet.Picture

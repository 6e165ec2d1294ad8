import Cabinet.Proofs.Picture.Drawing
import Cabinet.Session

/-! What a session shows.

An update draws the whole picture and then, during a pause, the band over its top twelve
rows, so the screen is a function of the session it leaves (`display`). Drawing cannot
fail; an update fails only with the frame it runs (`update_eq`). -/
namespace Cabinet.Session

/-- The screen after an update, by the session that the update leaves. -/
def display (s : Session) : Screen :=
  .ofPixels fun p =>
    if s.paused ∧ p.row < bannerHeight then bannerColor p.row
    else (Picture.frame s.palette s.machine.videoRam).pixel p

theorem row_lt_iff (p : Pixel) (rows : Nat) : p.row < rows ↔ p.val < rows * Picture.width :=
  Nat.div_lt_iff_lt_mul (by decide)

theorem drawBanner_eq (screen : Screen) :
    drawBanner screen =
      .ok (.ofPixels fun p => if p.row < bannerHeight then bannerColor p.row else screen.pixel p) := by
  have next : ∀ k < bannerHeight * Picture.width, ∀ s,
      Screen.Covers (bannerColor ·.row) (·.val < k) screen s →
      ∃ t, (bannerColor (k / Picture.width)).write s k = .ok t ∧
        Screen.Covers (bannerColor ·.row) (·.val < k + 1) screen t := by
    intro k hk s hs
    have inside : k < 57344 := Nat.lt_trans hk (by decide)
    refine hs.write ⟨k, inside⟩ fun q => ?_
    rw [Fin.ext_iff]
    exact Nat.lt_succ_iff_lt_or_eq
  obtain ⟨t, ran, done⟩ := Screen.foldlM_range_ok _ next (.start fun p => Nat.not_lt_zero _)
  rw [drawBanner, ran]
  refine congrArg Except.ok (Screen.ext_pixel fun p => ?_)
  rw [Screen.pixel_ofPixels]
  split
  case isTrue inside => exact done.shown p ((row_lt_iff p _).mp inside)
  case isFalse outside => exact done.kept p fun h => outside ((row_lt_iff p _).mpr h)

theorem display_of_running {s : Session} (h : s.paused = false) :
    s.display = Picture.frame s.palette s.machine.videoRam := by
  refine Screen.ext_pixel fun p => ?_
  rw [display, Screen.pixel_ofPixels, if_neg (by simp [h])]

theorem display_of_paused {s : Session} (h : s.paused = true) :
    drawBanner (Picture.frame s.palette s.machine.videoRam) = .ok s.display := by
  simp only [drawBanner_eq, display, h, true_and]

/-- A step that succeeds hands on what it gives. -/
theorem ok_bind {ε α β : Type} (a : α) (f : α → Except ε β) : (Except.ok a >>= f) = f a :=
  rfl

/-- An update advances the session and shows it. -/
theorem update_eq (s : Session) (screen : Screen) :
    s.update screen = (fun r => ⟨r.1, r.1.display, r.2⟩) <$> s.advance := by
  unfold update
  cases s.advance with
  | error fault => rfl
  | ok r =>
    simp only [ok_bind, Picture.draw_eq]
    cases paused : r.1.paused
    · simp only [Bool.false_eq_true, if_false, ← display_of_running paused]
      rfl
    · simp only [if_true, display_of_paused paused]
      rfl

end Cabinet.Session

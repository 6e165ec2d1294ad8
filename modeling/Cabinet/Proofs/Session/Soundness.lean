import Cabinet.Proofs.Machine.Frames
import Cabinet.Proofs.Picture.Checked
import Cabinet.Proofs.Session.History
import Cabinet.Proofs.System.Checked

/-! Nothing a program does stops the machine.

The program is arbitrary: it may run from the picture, overwrite itself and let its stack
and its program counter wrap. Still every step and every interrupt goes through with all its
arithmetic checked, and every pixel of the picture has its place in the buffer (`Unfailing`),
so that only a counter could stop what is done in a session. Those of cycles cannot, since
the budget of a half is far from their end, nor can that of frames before there are 2^64
(`session_sound`). -/
namespace Cabinet.Session

/-- With every sum, difference and shift on the way checked, the parts of the machine do what
they do without, whatever state they are in. -/
structure Unfailing : Prop where
  switches : ∀ s : Switches, Checked.port2 s = some s.port2
  step : ∀ s : System Board, Checked.step s = some (s.step Board.device)
  interrupt : ∀ (s : System Board) (vector : UInt8),
    Checked.interrupt s vector = some (s.interrupt vector)
  pixel : ∀ (palette : Palette) (index bit : Nat) (v : UInt8) (screen : Screen),
    index < 7168 → bit < 8 →
      ∃ t, Picture.drawBit palette index v screen bit = .ok t ∧
        Checked.drawBit palette index v screen bit = some t
  /-- The places of the band, of which a pause draws every pixel. -/
  band : ∀ column row : Nat, column < Picture.width → row < bannerHeight →
    Checked.pixel column row = some (row * Picture.width + column)

theorem unfailing : Unfailing where
  switches := Checked.port2_eq
  step := Checked.step_eq
  interrupt := Checked.interrupt_eq
  pixel := fun palette _ _ v screen hi hb => Checked.drawBit_ok palette hi hb v screen
  band := fun _ _ hc hr => Checked.pixel_eq hc (Nat.lt_trans hr (by decide))

/-- **No program stops the machine**, whatever its switches are and whatever is done with it:
it is built, every sequence of steps, frames, buttons, resets, keys and updates with fewer
than 2^64 frames runs to its end, the cycles of each frame can be added up, and no
arithmetic on the way overflows. -/
theorem session_sound (roms : RomSet) (switches : Switches) :
    Unfailing ∧
      ∃ m₀, Machine.new roms { switches := switches } = .ok m₀ ∧
        ∀ (palette : Palette) (actions : List Action), (driven actions).count .frame < 2 ^ 64 →
          ∃ s, (opened m₀ palette).play actions = .ok s ∧
            ∀ f, s.machine.runFrame = .ok f → ∃ cycles, f.report.total = .ok cycles := by
  refine ⟨unfailing, .fresh roms { switches := switches }, Machine.new_eq ..,
    fun palette actions few => ?_⟩
  have budget : (16667 : UInt32).toNat ≤ 2 ^ 31 - 18 := by decide
  have runs : ∃ m, (Machine.fresh roms { switches := switches }).run (driven actions) = .ok m :=
    Machine.fresh_runs roms (Nat.le_trans budget (by decide)) few
  obtain ⟨m, ran⟩ := runs
  obtain ⟨s, played, follows⟩ := follows_play actions ran palette
  refine ⟨s, played, fun f frame => ⟨_, FrameReport.total_of_within ?_ budget⟩⟩
  have within := Machine.runFrame_within frame
  rw [Machine.run_halfFrameCycles follows.machine] at within
  exact within

/-- Images of nothing but jumps, and nine ships for a coin: a step, an update in a pause and
another after it, a frame from the beginning again. -/
theorem session_sound_reset :
    let roms : RomSet :=
      ⟨.replicate 2048 0xc3, .replicate 2048 0xc3, .replicate 2048 0xc3, .replicate 2048 0xc3⟩
    let screen : Screen := .replicate 172032 0
    let actions : List Action :=
      [.operate .step, .event (.key .p true), .event (.update screen), .event (.key .c true),
        .event (.update screen), .operate .reset, .operate .frame]
    (driven actions).count .frame < 2 ^ 64 ∧
      ∃ m₀ s, Machine.new roms { switches := { ships := 9 } } = .ok m₀ ∧
        (opened m₀ .monochrome).play actions = .ok s ∧
        ∀ f, s.machine.runFrame = .ok f → ∃ cycles, f.report.total = .ok cycles := by
  intro roms screen actions
  have few : (driven actions).count .frame < 2 ^ 64 := show 2 < 2 ^ 64 by decide
  obtain ⟨_, m₀, new, plays⟩ := session_sound roms { ships := 9 }
  obtain ⟨s, played, totals⟩ := plays .monochrome actions few
  exact ⟨few, m₀, s, new, played, totals⟩

end Cabinet.Session

import Cabinet.Proofs.Launcher.Run
import Cabinet.Proofs.Session.History

/-! A session beside a machine that is driven directly.

From the same machine, the events of a session and the operations they come down to lead to
the same machine, and to a launcher without a window a session without keys is a run of
frames. What is shown on the way is the picture of the video RAM, under the band during a
pause (`play_events`). -/
namespace Cabinet.Session
variable {m m' : Machine} {palette : Palette}

/-! ### Frames among events -/

/-- Whether an event lets time pass. -/
def Event.isUpdate : Event → Bool
  | .update _ => true
  | .key _ _ => false

theorem Event.count_operation (e : Event) (paused : Bool) :
    (e.operation? paused).toList.count .frame ≤ if e.isUpdate then 1 else 0 := by
  cases e with
  | key k down => cases k <;> simp [operation?, isUpdate, Key.button?]
  | update screen => cases paused <;> simp [operation?, isUpdate]

/-- No more frames are run than updates are made. -/
theorem count_drivenFrom_le (before events : List Event) :
    (drivenFrom before (events.map .event)).count .frame ≤ events.countP Event.isUpdate := by
  induction events generalizing before with
  | nil => exact Nat.le_refl 0
  | cons e rest ih =>
    rw [List.map_cons, drivenFrom, List.count_append, List.countP_cons, Nat.add_comm]
    exact Nat.add_le_add (ih _) (e.count_operation _)

/-- Outside a pause, updates are frames, and there is no pause without a key. -/
theorem drivenFrom_updates {before : List Event} (h : pausedBy before = false)
    (screens : List Screen) :
    drivenFrom before ((screens.map Event.update).map .event) =
      .replicate screens.length .frame := by
  induction screens generalizing before with
  | nil => rfl
  | cons screen rest ih =>
    have next : pausedBy (before ++ [.update screen]) = false := by rw [pausedBy_update, h]
    rw [List.map_cons, List.map_cons, drivenFrom, h, List.length_cons, List.replicate_succ]
    exact congrArg (Operation.frame :: ·) (ih next)

theorem filterMap_event? (events : List Event) :
    (events.map Action.event).filterMap Action.event? = events := by
  rw [List.filterMap_map]
  exact List.filterMap_some

/-- A run of the launcher is one of frames, and adding up their cycles does not stop it. -/
theorem runFrames_outcome {n : UInt64} (ran : m.run (.replicate n.toNat .frame) = .ok m')
    (small : m.halfFrameCycles.toNat ≤ 2 ^ 31 - 18) (few : n.toNat < 2 ^ 32) :
    (Launcher.runFrames m n).outcome = .ok (Checksum.ofBlock m'.videoRam, m') := by
  have most : 2 * (m.halfFrameCycles.toNat + 17) ≤ 2 ^ 32 := by omega
  have room : n.toNat * (2 * (m.halfFrameCycles.toNat + 17)) < 2 ^ 32 * 2 ^ 32 :=
    Nat.mul_lt_mul_of_lt_of_le few most (by decide)
  exact Launcher.outcome_runFrames ran small room

/-! ### What is shown -/

/-- What an update is to make of a session and to show: the picture of the video RAM, with
its first twelve rows alternately white and black during a pause, in which nothing else
changes. -/
structure Shows (s : Session) (u : Update) : Prop where
  resting : s.paused = true → u.session = s
  picture : ∃ frame : Screen,
    (∀ old, Picture.draw s.palette u.session.machine.videoRam old = .ok frame) ∧
      ∀ p, u.screen.pixel p =
        if s.paused = true ∧ p.row < 12 then (if p.row % 2 = 0 then .white else .black)
        else frame.pixel p

theorem advance_shows {s : Session} {r : Session × List Notice} (h : s.advance = .ok r) :
    Shows s ⟨r.1, r.1.display, r.2⟩ := by
  have same : r.1.paused = s.paused ∧ r.1.palette = s.palette ∧ (s.paused = true → r.1 = s) := by
    unfold advance at h
    cases paused : s.paused with
    | true =>
      rw [if_pos paused] at h
      cases h
      exact ⟨paused, rfl, fun _ => rfl⟩
    | false =>
      rw [if_neg (by simp [paused])] at h
      obtain ⟨frame, _, made⟩ := bind_eq_ok.mp h
      cases made
      exact ⟨paused, rfl, nofun⟩
  obtain ⟨paused, palette, resting⟩ := same
  refine ⟨resting, Picture.frame r.1.palette r.1.machine.videoRam, fun old => ?_, fun p => ?_⟩
  · rw [← palette, Picture.draw_eq]
  · rw [display, Screen.pixel_ofPixels, paused]
    rfl

/-- An update that comes to an end shows what it should. -/
theorem update_shows {s t : Session} {screen : Screen} (h : s.handle (.update screen) = .ok t) :
    ∃ u, s.update screen = .ok u ∧ Shows s u := by
  rw [handle, update_eq] at h
  cases advanced : s.advance with
  | error fault =>
    rw [advanced] at h
    cases h
  | ok r =>
    refine ⟨_, ?_, advance_shows advanced⟩
    rw [update_eq, advanced]
    rfl

/-! ### The two drivers -/

theorem play_append_ok {s t : Session} {as bs : List Action} :
    s.play (as ++ bs) = .ok t ↔ ∃ u, s.play as = .ok u ∧ u.play bs = .ok t := by
  rw [play_append]
  exact bind_eq_ok

/-- **A session is its machine driven directly**, whatever the program, the palette and the
events are: it has the machine that a frame for each update outside a pause and a move of the
button for each key that has one lead to, it is paused after an odd number of P since another
key, leaves once Escape has been pressed, and every update has shown the picture under the
band of a pause. Without keys it has the machine of a run without a window. -/
theorem play_events (roms : RomSet) {config : Config}
    (small : config.halfFrameCycles.toNat ≤ 2 ^ 31 - 18) :
    ∃ m₀, Machine.new roms config = .ok m₀ ∧
      (∀ (palette : Palette) (events : List Event), events.countP Event.isUpdate < 2 ^ 32 →
        ∃ s, (opened m₀ palette).play (events.map .event) = .ok s ∧
          Follows m₀ palette events (driven (events.map .event)) s ∧
          ∀ before screen after, events = before ++ .update screen :: after →
            ∃ t u, (opened m₀ palette).play (before.map .event) = .ok t ∧
              Follows m₀ palette before (driven (before.map .event)) t ∧
              t.update screen = .ok u ∧ Shows t u) ∧
      ∀ (palette : Palette) (screens : List Screen), screens.length < 2 ^ 32 →
        ∃ s, (opened m₀ palette).play ((screens.map Event.update).map .event) = .ok s ∧
          (Launcher.runFrames m₀ (.ofNat screens.length)).outcome =
            .ok (Checksum.ofBlock s.machine.videoRam, s.machine) := by
  have plays : ∀ (palette : Palette) (events : List Event), events.countP Event.isUpdate < 2 ^ 32 →
      ∃ s, (opened (.fresh roms config) palette).play (events.map .event) = .ok s ∧
        Follows (.fresh roms config) palette events (driven (events.map .event)) s := by
    intro palette events few
    obtain ⟨m, ran⟩ : ∃ m, (Machine.fresh roms config).run (driven (events.map .event)) = .ok m :=
      Machine.fresh_runs roms (Nat.le_trans small (by decide))
        (Nat.lt_of_le_of_lt (count_drivenFrom_le [] events) (Nat.lt_trans few (by decide)))
    obtain ⟨s, played, follows⟩ := follows_play (events.map .event) ran palette
    rw [filterMap_event?] at follows
    exact ⟨s, played, follows⟩
  refine ⟨.fresh roms config, Machine.new_eq .., fun palette events few => ?_,
    fun palette screens few => ?_⟩
  · obtain ⟨s, played, follows⟩ := plays palette events few
    refine ⟨s, played, follows, ?_⟩
    rintro before screen after rfl
    obtain ⟨t, played', follows'⟩ := plays palette before (by
      rw [List.countP_append] at few
      exact Nat.lt_of_le_of_lt (Nat.le_add_right ..) few)
    rw [List.map_append, play_append_ok] at played
    obtain ⟨t', front, back⟩ := played
    obtain rfl : t = t' := Except.ok.inj (played'.symm.trans front)
    obtain ⟨_, handled, _⟩ := bind_eq_ok.mp back
    obtain ⟨u, updated, shows⟩ := update_shows handled
    exact ⟨t, u, front, follows', updated, shows⟩
  · have updates : (screens.map Event.update).countP Event.isUpdate = screens.length := by
      rw [List.countP_map]
      exact List.countP_eq_length.mpr fun _ _ => rfl
    obtain ⟨s, played, follows⟩ := plays palette (screens.map .update) (by rwa [updates])
    refine ⟨s, played, runFrames_outcome ?_ small ?_⟩
    · have frames := follows.machine
      rw [driven, drivenFrom_updates rfl] at frames
      rwa [UInt64.toNat_ofNat_of_lt' (Nat.lt_trans few (by decide))]
    · rwa [UInt64.toNat_ofNat_of_lt' (Nat.lt_trans few (by decide))]

/-- A pause, which a coin ends, and a wish to leave: of the two updates only the second is a
frame. -/
theorem play_events_coin :
    let roms : RomSet :=
      ⟨.replicate 2048 0, .replicate 2048 0, .replicate 2048 0, .replicate 2048 0⟩
    let config : Config := {}
    let screen : Screen := .replicate 172032 0
    let events : List Event :=
      [.key .p true, .update screen, .key .c true, .update screen, .key .escape true]
    config.halfFrameCycles.toNat ≤ 2 ^ 31 - 18 ∧ events.countP Event.isUpdate < 2 ^ 32 ∧
      ∃ m₀ s, Machine.new roms config = .ok m₀ ∧
        (opened m₀ .overlay).play (events.map .event) = .ok s ∧
        m₀.run [.button .coin true, .frame] = .ok s.machine ∧
        s.paused = false ∧ s.leaving = true := by
  intro roms config screen events
  have small : config.halfFrameCycles.toNat ≤ 2 ^ 31 - 18 := by decide
  have few : events.countP Event.isUpdate < 2 ^ 32 := show 2 < 2 ^ 32 by decide
  obtain ⟨m₀, new, plays, _⟩ := play_events roms small
  obtain ⟨s, played, follows, _⟩ := plays .overlay events few
  refine ⟨small, few, m₀, s, new, played, follows.machine, follows.paused, ?_⟩
  exact follows.leaving.mpr (by simp [events])

end Cabinet.Session

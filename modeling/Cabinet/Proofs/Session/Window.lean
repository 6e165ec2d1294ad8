import Cabinet.Proofs.Session.History
import Cabinet.Proofs.Window.Protocol
import Cabinet.Session.Window

/-! A session in a window.

The protocol holds for every application. One that runs a session says yes just when Escape has
been pressed, so that the press ends the run with its round. -/
namespace Cabinet

namespace Session

theorem update_leaving {s : Session} {screen : Screen} {u : Update}
    (updated : s.update screen = .ok u) : u.session.leaving = s.leaving := by
  have handled : s.handle (.update screen) = .ok u.session := by
    rw [handle, updated]
    rfl
  rw [handle_update] at handled
  obtain ⟨_, _, same⟩ := map_eq_ok.mp handled
  rw [← same]

/-- A wish to leave comes of Escape alone. -/
theorem made_leaving {call : Call Logged} {p q : ByteArray × Logged}
    (made : application.Made call p q) :
    q.2.session.leaving = true ↔ p.2.session.leaving = true ∨ call = .key .escape true := by
  cases call with
  | started =>
    cases made
    exact (or_iff_left nofun).symm
  | asked _ =>
    obtain ⟨_, rfl⟩ := made
    exact (or_iff_left nofun).symm
  | key k down =>
    cases made
    rw [Call.key.injEq]
    exact key_leaving p.2.session k down
  | updated shown l =>
    obtain ⟨drawn, rfl⟩ := made
    obtain ⟨screen, _, drawn⟩ := bind_eq_ok.mp drawn
    obtain ⟨u, updated, drawn⟩ := bind_eq_ok.mp drawn
    cases drawn
    rw [show u.session.leaving = _ from update_leaving updated]
    exact (or_iff_left nofun).symm
  | stopped =>
    cases made
    exact (or_iff_left nofun).symm

theorem replays_leaving {calls : List (Call Logged)} {p q : ByteArray × Logged}
    (replays : application.Replays calls p q) :
    q.2.session.leaving = true ↔ p.2.session.leaving = true ∨ .key .escape true ∈ calls := by
  induction calls generalizing p with
  | nil =>
    cases replays
    simp
  | cons call calls ih =>
    obtain ⟨r, made, rest⟩ := replays
    rw [ih rest, made_leaving made, or_assoc, List.mem_cons, @eq_comm _ call]

variable {calls before after : List (Call Logged)} {p q : ByteArray × Logged}

/-- The answer to a question is whether Escape has been pressed. -/
theorem asked_iff {leaving : Bool} (stayed : p.2.session.leaving = false)
    (replays : application.Replays (before ++ .asked leaving :: after) p q) :
    leaving = true ↔ .key .escape true ∈ before := by
  obtain ⟨r, first, _, ⟨answer, _⟩, _⟩ := Application.replays_append.mp replays
  rw [answer]
  show r.2.session.leaving = true ↔ _
  rw [replays_leaving first, stayed]
  exact or_iff_right Bool.false_ne_true

/-- A round in which Escape is pressed is the last. -/
theorem behind_escape {system : WindowSystem} {batches : List (List Cabinet.Event)}
    (stayed : p.2.session.leaving = false)
    (protocol : Protocol system batches (before ++ .key .escape true :: after))
    (replays : application.Replays (before ++ .key .escape true :: after) p q) :
    ∃ keys : List (Key × Bool), after = keys.map .ofKey ++ [.stopped] ∨
      ∃ shown l, after = keys.map .ofKey ++ [.updated shown l, .asked true, .stopped] := by
  obtain ⟨keys, rfl | ⟨shown, l, rest, later, rfl, protocol'⟩⟩ := protocol.behind_key
  · exact ⟨keys, .inl rfl⟩
  refine ⟨keys, .inr ⟨shown, l, ?_⟩⟩
  rcases protocol'.begins with rfl | ⟨rest, rfl⟩
  · rfl
  -- The next answer would have been no, but Escape is among the calls before it.
  · have regrouped : before ++ .key .escape true :: (keys.map .ofKey ++ .updated shown l ::
        .asked false :: rest) =
        (before ++ .key .escape true :: (keys.map .ofKey ++ [.updated shown l])) ++
          .asked false :: rest := by
      simp
    rw [regrouped] at replays
    exact absurd ((asked_iff stayed replays).mpr (by simp)) Bool.false_ne_true

end Session

namespace Application
variable {σ : Type}

/-- **The event loop keeps to its protocol**, with every application and on every window system
that opens the window, whatever events come. It starts the application, asks it before each
round whether it wants to leave, hands it the keys of the round in the order of their events and
has it draw, until it wants to leave or the window is closed in the midst of a round; then it
stops it and calls nothing more. Only a drawing that fails ends a run otherwise. Events that are
not heard may come anywhere, behind a quit nothing counts, and the end of the batches is a quit.
A session wants to leave just if Escape has been pressed, and a round in which it is pressed is
the last. -/
theorem run_protocol (app : Application σ) {system : WindowSystem} {w : WindowInfo} {size : Nat}
    (opens : w.Opens system size) (batches : List (List Event)) (s : σ) :
    ((∃ t, app.runOn system w batches s = .ok t) ∨
      ∃ fault calls shown u, app.runOn system w batches s = .error (.fault fault) ∧
        app.Replays (.started :: calls) (blank size, s) (shown, u) ∧
        app.update shown u = .error fault) ∧
      (∀ t, app.runOn system w batches s = .ok t ↔
        ∃ rest, t.calls = .started :: rest ∧ Protocol system batches rest ∧
          ∃ shown, app.Replays t.calls (blank size, s) (shown, t.state)) ∧
      (∀ t, app.runOn system w batches s = .ok t →
        ∃ middle, t.calls = .started :: middle ++ [.stopped] ∧
          .started ∉ middle ∧ .stopped ∉ middle) ∧
      (∀ (e : Event) (k : Key × Bool), e.key? system = some k ↔ e.Moves system k) ∧
      (∀ e : Event, e.heard system = false ↔ e ≠ .quit ∧ ∀ k, ¬e.Moves system k) ∧
      (∀ batches' : List (List Event),
        batches'.map (·.filter (Event.heard system)) = batches.map (·.filter (Event.heard system)) →
          app.runOn system w batches' s = app.runOn system w batches s) ∧
      (∀ (before after : List (List Event)) (front back : List Event),
        batches = before ++ (front ++ .quit :: back) :: after →
          app.runOn system w batches s = app.runOn system w (before ++ [front ++ [.quit]]) s) ∧
      app.runOn system w (batches ++ [[.quit]]) s = app.runOn system w batches s ∧
      ∀ (m : Machine) (palette : Palette) (notices : List Notice) (t : Trace Session.Logged),
        Session.application.runOn system w batches ⟨.opened m palette, notices⟩ = .ok t →
          (∀ (before after : List (Call Session.Logged)) (leaving : Bool),
            t.calls = before ++ .asked leaving :: after →
              (leaving = true ↔ .key .escape true ∈ before)) ∧
          ∀ before after : List (Call Session.Logged),
            t.calls = before ++ .key .escape true :: after →
              ∃ keys : List (Key × Bool), after = keys.map .ofKey ++ [.stopped] ∨
                ∃ shown l, after = keys.map .ofKey ++ [.updated shown l, .asked true, .stopped] := by
  refine ⟨run_cases opens batches s, fun _ => run_eq_ok_iff opens, fun t done => ?_,
    fun _ _ => Event.key?_eq_some_iff, fun _ => Event.heard_eq_false_iff, fun batches' same => ?_, ?_,
    run_congr fun _ _ => rounds_concat_quit, fun m palette notices t done => ?_⟩
  · obtain ⟨rest, calls, protocol, _⟩ := (run_eq_ok_iff opens).mp done
    obtain ⟨middle, rfl, unstarted, unstopped⟩ := protocol.ends
    exact ⟨middle, calls, unstarted, unstopped⟩
  · calc
      app.runOn system w batches' s = app.runOn system w (batches'.map (·.filter (Event.heard system))) s :=
        run_congr fun _ _ => rounds_filter_heard.symm
      _ = app.runOn system w (batches.map (·.filter (Event.heard system))) s := by rw [same]
      _ = app.runOn system w batches s := run_congr fun _ _ => rounds_filter_heard
  · rintro before after front back rfl
    exact run_congr fun _ _ => rounds_append_quit before after front back
  · obtain ⟨rest, calls, protocol, shown, replays⟩ := (run_eq_ok_iff opens).mp done
    refine ⟨fun before after leaving split => ?_, fun before after split => ?_⟩
    · rw [split] at replays
      exact Session.asked_iff rfl replays
    · rw [split] at calls replays
      cases before with
      | nil => cases (List.cons.inj calls).1
      | cons _ before =>
        obtain ⟨rfl, rfl⟩ := List.cons.inj calls
        obtain ⟨_, rfl, replays⟩ := replays
        exact Session.behind_escape rfl protocol replays

/-- A coin put in and taken back, among a repetition, a key without a name and the mouse; then
the window is closed, and the keys behind are not heard. -/
theorem run_protocol_closed :
    let batches : List (List Event) :=
      [[.other, .keyDown 99 false, .keyDown 99 true, .keyDown 1 false],
        [.keyUp 99, .quit, .keyDown 27 false], [.keyDown 32 false]]
    Session.windowInfo.Opens .desktop 172032 ∧
      idle.runOn .desktop Session.windowInfo batches () = .ok {
        calls := [.started, .asked false, .key .c true, .updated (blank 172032) (), .asked false,
          .key .c false, .stopped]
        state := () } := by
  intro batches
  have title : Session.windowInfo.title.contains '\x00' = false := by simp [Session.windowInfo]
  have opens : Session.windowInfo.Opens .desktop 172032 := by
    refine ⟨by decide, by decide, ?_, by decide, by decide, by decide, by decide⟩
    simp only [WindowSystem.desktop, title]
    rfl
  obtain ⟨_, comes_to, _⟩ := run_protocol idle opens batches ()
  refine ⟨opens, (comes_to _).mpr ⟨_, rfl, .round (by decide) (.quit (by decide)), blank 172032, ?_⟩⟩
  exact ⟨_, rfl, _, ⟨rfl, rfl⟩, _, rfl, _, ⟨rfl, rfl⟩, _, ⟨rfl, rfl⟩, _, rfl, _, rfl, rfl⟩

end Application
end Cabinet

import Cabinet.Proofs.Machine.Operations
import Cabinet.Proofs.Session.Display

/-! Sessions by what has been done in them.

A session is driven by its keys and by the passing of time, and its machine may be driven
directly besides. What a key means depends on what was pressed before, but only through
one bit: whether the session is paused. That bit is a function of the keys pressed
(`pausedBy`), so all that is done in a session comes down to operations on the machine that
can be told without the session (`driven`). `Follows` is the account of a session by its
history; every event and every operation keeps it, as long as the machine it started with
can run that far (`follows_play`). -/
namespace Cabinet.Session

/-! ### What is done -/

/-- A session before anything has been done in it. -/
def opened (machine : Machine) (palette : Palette) : Session where
  machine := machine
  palette := palette

inductive Event where
  /-- A key goes down or comes up. -/
  | key (key : Key) (down : Bool)
  /-- The time of a frame passes; the picture is drawn over what `screen` shows. -/
  | update (screen : Screen)

inductive Action where
  | event (e : Event)
  /-- An operation on the session's machine. -/
  | operate (op : Operation)

def handle (s : Session) : Event → Except Fault Session
  | .key k down => .ok (s.key k down)
  | .update screen => (·.session) <$> s.update screen

def act (s : Session) : Action → Except Fault Session
  | .event e => s.handle e
  | .operate op => (fun m => { s with machine := m }) <$> s.machine.operate op

/-- One action after the other, up to the first that fails. -/
def play (s : Session) : List Action → Except Fault Session
  | [] => .ok s
  | a :: as => do
    let s ← s.act a
    play s as

theorem play_append (s : Session) (as bs : List Action) :
    s.play (as ++ bs) = (do let s ← s.play as; s.play bs) := by
  induction as generalizing s with
  | nil => rfl
  | cons a as ih =>
    rw [List.cons_append, play, play]
    cases s.act a with
    | error fault => rfl
    | ok t => exact ih t

/-! ### What comes of it -/

/-- The key that an event presses. -/
def Event.press? : Event → Option Key
  | .key k true => some k
  | _ => none

/-- How often P has been pressed since the last press of a key other than P and Escape, or
since the beginning. -/
def pauses (events : List Event) : Nat :=
  ((events.reverse.filterMap Event.press?).takeWhile fun k => k = .p ∨ k = .escape).count .p

def pausedBy (events : List Event) : Bool :=
  pauses events % 2 == 1

/-- What an event does to the machine of a session that is paused or is not. -/
def Event.operation? (paused : Bool) : Event → Option Operation
  | .key k down => k.button?.map (.button · down)
  | .update _ => if paused then none else some .frame

namespace Action

def event? : Action → Option Event
  | .event e => some e
  | .operate _ => none

def operation? (paused : Bool) : Action → Option Operation
  | .event e => e.operation? paused
  | .operate op => some op

end Action

/-- What the actions do to the machine, behind some earlier events. -/
def drivenFrom (before : List Event) : List Action → List Operation
  | [] => []
  | a :: rest =>
    (a.operation? (pausedBy before)).toList ++ drivenFrom (before ++ a.event?.toList) rest

/-- The operations that actions come down to: a frame for each update that is not made
during a pause, a button for each key that stands for one, and what is done to the machine
directly. -/
def driven (actions : List Action) : List Operation :=
  drivenFrom [] actions

/-! ### Pauses -/

theorem pauses_concat (events : List Event) (e : Event) :
    pauses (events ++ [e]) =
      match e.press? with
      | none => pauses events
      | some .p => pauses events + 1
      | some .escape => pauses events
      | some _ => 0 := by
  unfold pauses
  rw [List.reverse_concat, List.filterMap_cons]
  cases e.press? with
  | none => rfl
  | some k => cases k <;> simp

theorem pausedBy_release (events : List Event) (key : Key) :
    pausedBy (events ++ [.key key false]) = pausedBy events := by
  unfold pausedBy
  rw [pauses_concat]
  rfl

theorem pausedBy_update (events : List Event) (screen : Screen) :
    pausedBy (events ++ [.update screen]) = pausedBy events := by
  unfold pausedBy
  rw [pauses_concat]
  rfl

theorem moveButton_paused (s : Session) (k : Key) (down : Bool) :
    (s.moveButton k down).paused = s.paused := by
  unfold moveButton
  cases k.button? <;> rfl

theorem odd_succ (n : Nat) : ((n + 1) % 2 == 1) = !(n % 2 == 1) := by
  rcases Nat.mod_two_eq_zero_or_one n with even | odd <;> simp [Nat.add_mod, *]

/-- A key that goes down in a session that is paused as `events` say. -/
theorem pausedBy_press {events : List Event} {s : Session} (h : s.paused = pausedBy events)
    (k : Key) : (s.key k true).paused = pausedBy (events ++ [.key k true]) := by
  unfold pausedBy at *
  rw [pauses_concat]
  cases k <;> simp [key, Event.press?, moveButton_paused, odd_succ, h]

/-! ### The account -/

/-- A session as its history has it: the events so far, and the operations that these and
others came down to on the machine `m₀`. -/
structure Follows (m₀ : Machine) (palette : Palette) (before : List Event)
    (ops : List Operation) (s : Session) : Prop where
  machine : m₀.run ops = .ok s.machine
  palette : s.palette = palette
  paused : s.paused = pausedBy before
  leaving : s.leaving = true ↔ .key .escape true ∈ before

variable {m₀ m : Machine} {palette : Palette} {before : List Event} {ops : List Operation}
  {s : Session}

theorem Follows.start : Follows m₀ palette [] [] (opened m₀ palette) where
  machine := rfl
  palette := rfl
  paused := rfl
  leaving := by simp [opened]

theorem Follows.operate (h : Follows m₀ palette before ops s) {op : Operation}
    (ran : m₀.run (ops ++ [op]) = .ok m) :
    s.act (.operate op) = .ok { s with machine := m } ∧
      Follows m₀ palette before (ops ++ [op]) { s with machine := m } := by
  refine ⟨?_, { h with machine := ran }⟩
  rw [Machine.run_append, h.machine, ok_bind, Machine.run_singleton] at ran
  rw [act, ran]
  rfl

theorem key_leaving (s : Session) (k : Key) (down : Bool) :
    (s.key k down).leaving = true ↔ s.leaving = true ∨ (k = .escape ∧ down = true) := by
  cases down <;> cases k <;> simp [key, moveButton, Key.button?]

theorem key_machine (s : Session) (k : Key) (down : Bool) :
    s.machine.run ((k.button?.map (Operation.button · down)).toList) =
      .ok (s.key k down).machine := by
  cases down <;> cases k <;> rfl

theorem Follows.key (h : Follows m₀ palette before ops s) (k : Key) (down : Bool) :
    Follows m₀ palette (before ++ [.key k down])
      (ops ++ (k.button?.map (Operation.button · down)).toList) (s.key k down) where
  machine := by rw [Machine.run_append, h.machine, ok_bind, key_machine]
  palette := by
    rw [← h.palette]
    cases down <;> cases k <;> rfl
  paused := by
    cases down with
    | true => exact pausedBy_press h.paused k
    | false =>
      rw [pausedBy_release, ← h.paused]
      exact moveButton_paused s k false
  leaving := by
    rw [key_leaving, h.leaving, List.mem_append, List.mem_singleton, Event.key.injEq]
    exact or_congr_right ⟨fun ⟨e, d⟩ => ⟨e.symm, d.symm⟩, fun ⟨e, d⟩ => ⟨e.symm, d.symm⟩⟩

/-- An update moves the machine alone, and that by a frame, if there is no pause. -/
theorem handle_update (s : Session) (screen : Screen) :
    s.handle (.update screen) =
      (fun m => { s with machine := m }) <$>
        s.machine.run ((Event.update screen).operation? s.paused).toList := by
  obtain ⟨machine, palette, leaving, paused⟩ := s
  rw [handle, update_eq, advance]
  cases paused with
  | true => rfl
  | false =>
    show _ = _ <$> machine.run [.frame]
    rw [Machine.run_singleton, Machine.operate]
    cases machine.runFrame <;> rfl

theorem Follows.update (h : Follows m₀ palette before ops s) (screen : Screen)
    (ran : m₀.run (ops ++ ((Event.update screen).operation? (pausedBy before)).toList) = .ok m) :
    s.handle (.update screen) = .ok { s with machine := m } ∧
      Follows m₀ palette (before ++ [.update screen])
        (ops ++ ((Event.update screen).operation? (pausedBy before)).toList)
        { s with machine := m } := by
  constructor
  · rw [Machine.run_append, h.machine, ok_bind] at ran
    rw [handle_update, h.paused, ran]
    rfl
  · exact {
      machine := ran
      palette := h.palette
      paused := by rw [pausedBy_update, ← h.paused]
      leaving := by simp [h.leaving] }

/-! ### Runs -/

/-- Every action keeps the account, if the machine runs that far. -/
theorem Follows.act (h : Follows m₀ palette before ops s) (a : Action)
    (ran : m₀.run (ops ++ (a.operation? (pausedBy before)).toList) = .ok m) :
    ∃ t, s.act a = .ok t ∧
      Follows m₀ palette (before ++ a.event?.toList)
        (ops ++ (a.operation? (pausedBy before)).toList) t := by
  match a with
  | .event (.key k down) => exact ⟨_, rfl, h.key k down⟩
  | .event (.update screen) => exact ⟨_, h.update screen ran⟩
  | .operate op =>
    obtain ⟨done, follows⟩ := h.operate ran
    refine ⟨_, done, ?_⟩
    rw [Action.event?, Option.toList_none, List.append_nil]
    exact follows

theorem Follows.play (h : Follows m₀ palette before ops s) (actions : List Action)
    (ran : m₀.run (ops ++ drivenFrom before actions) = .ok m) :
    ∃ t, s.play actions = .ok t ∧
      Follows m₀ palette (before ++ actions.filterMap Action.event?)
        (ops ++ drivenFrom before actions) t := by
  induction actions generalizing before ops s with
  | nil =>
    refine ⟨s, rfl, ?_⟩
    rw [drivenFrom, List.filterMap_nil, List.append_nil, List.append_nil]
    exact h
  | cons a rest ih =>
    rw [drivenFrom, ← List.append_assoc] at ran ⊢
    obtain ⟨_, first, _⟩ := Machine.run_append_ok.mp ran
    obtain ⟨t, acted, follows⟩ := h.act a first
    obtain ⟨u, played, done⟩ := ih follows ran
    refine ⟨u, ?_, ?_⟩
    · rw [Session.play, acted, ok_bind, played]
    · rw [List.append_assoc] at done
      cases a <;> exact done

/-- **A session follows its history**: played from the beginning on a machine that can run
what the actions come down to, it plays them all, and is as they say. -/
theorem follows_play (actions : List Action) (ran : m₀.run (driven actions) = .ok m)
    (palette : Palette) :
    ∃ t, (opened m₀ palette).play actions = .ok t ∧
      Follows m₀ palette (actions.filterMap Action.event?) (driven actions) t := by
  have start : Follows m₀ palette [] [] (opened m₀ palette) := .start
  exact start.play actions ran

end Cabinet.Session

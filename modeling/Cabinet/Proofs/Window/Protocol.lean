import Cabinet.Reporting
import Cabinet.Window.Loop

/-! The protocol between the event loop and an application.

The window opens if no size passes 32 bits and the window system has such a window (`Opens`).
Behind a code that the system names is the key that has it, or another (`IsBehind`). Of a batch of events the loop hears the keys in front of the first quit, and whether there is
one (`deliver_eq`). The calls of a run are the start, rounds and an end, as `Protocol` has them,
and the answers in them are the application's own (`Replays`): what runs is just what is both
(`rounds_eq_ok_iff`). -/
namespace Cabinet

/-! ### Windows -/

/-- The window opens on the system, with so many bytes behind it: no size passes 32 bits, and
the system has such windows and such pictures. -/
structure WindowInfo.Opens (w : WindowInfo) (system : WindowSystem) (size : Nat) : Prop where
  wide : w.width.toNat * w.scale.toNat < UInt32.size
  high : w.height.toNat * w.scale.toNat < UInt32.size
  window : system.openWindow w.title (w.width * w.scale) (w.height * w.scale) = .ok ()
  picture : system.layOut w.pixelFormat w.width w.height = .ok ()
  row : w.width.toNat * 3 < UInt32.size
  bytes : w.width.toNat * 3 * w.height.toNat = size
  fits : size < UInt32.size

namespace WindowInfo
variable {w : WindowInfo} {system : WindowSystem} {size : Nat}

theorem toNat_row (row : w.width.toNat * 3 < UInt32.size) :
    (w.width * 3).toNat = w.width.toNat * 3 := by
  rw [UInt32.toNat_mul]
  exact Nat.mod_eq_of_lt row

theorem toNat_area (row : w.width.toNat * 3 < UInt32.size)
    (area : (w.width * 3).toNat * w.height.toNat < UInt32.size) :
    (w.width * 3 * w.height).toNat = w.width.toNat * 3 * w.height.toNat := by
  rw [UInt32.toNat_mul, Nat.mod_eq_of_lt area, toNat_row row]

theorem product_eq_ok_iff {x y z : UInt32} :
    (Counter.mul32 .windowSize x y).mapError WindowFailure.fault = .ok z ↔
      x.toNat * y.toNat < UInt32.size ∧ x * y = z :=
  mapError_eq_ok.trans Counter.mul32_eq_ok_iff

/-- There is a buffer just if the window opens. -/
theorem bufferSize_eq_ok_iff : w.bufferSize system = .ok size ↔ w.Opens system size := by
  have pixel : w.pixelFormat.size = 3 := by
    cases w.pixelFormat
    rfl
  rw [bufferSize, pixel]
  constructor
  · intro opened
    obtain ⟨_, found, opened⟩ := bind_eq_ok.mp opened
    obtain ⟨wide, rfl⟩ := product_eq_ok_iff.mp found
    obtain ⟨_, found, opened⟩ := bind_eq_ok.mp opened
    obtain ⟨high, rfl⟩ := product_eq_ok_iff.mp found
    obtain ⟨_, window, opened⟩ := bind_eq_ok.mp opened
    obtain ⟨_, picture, opened⟩ := bind_eq_ok.mp opened
    obtain ⟨_, found, opened⟩ := bind_eq_ok.mp opened
    obtain ⟨row, rfl⟩ := product_eq_ok_iff.mp found
    obtain ⟨_, found, opened⟩ := bind_eq_ok.mp opened
    obtain ⟨area, rfl⟩ := product_eq_ok_iff.mp found
    have bytes : (w.width * 3 * w.height).toNat = size := Except.ok.inj opened
    exact {
      wide, high, window, picture, row
      bytes := by rw [← bytes, toNat_area row area]
      fits := bytes ▸ UInt32.toNat_lt_size _ }
  · intro opens
    have across : (w.width * 3).toNat = w.width.toNat * 3 := toNat_row opens.row
    have area : (w.width * 3).toNat * w.height.toNat < UInt32.size := by
      rw [across, opens.bytes]
      exact opens.fits
    have bytes : (w.width * 3 * w.height).toNat = size := by
      rw [toNat_area opens.row area, opens.bytes]
    refine bind_eq_ok.mpr ⟨_, product_eq_ok_iff.mpr ⟨opens.wide, rfl⟩, ?_⟩
    refine bind_eq_ok.mpr ⟨_, product_eq_ok_iff.mpr ⟨opens.high, rfl⟩, ?_⟩
    refine bind_eq_ok.mpr ⟨_, opens.window, bind_eq_ok.mpr ⟨_, opens.picture, ?_⟩⟩
    refine bind_eq_ok.mpr ⟨_, product_eq_ok_iff.mpr ⟨opens.row, rfl⟩, ?_⟩
    refine bind_eq_ok.mpr ⟨_, product_eq_ok_iff.mpr ⟨area, rfl⟩, ?_⟩
    exact congrArg Except.ok bytes

end WindowInfo

/-! ### Keys -/

namespace Key

/-- The code of a key, if it means something. -/
def code? : Key → Option UInt32
  | .num1 => some 0x31
  | .num2 => some 0x32
  | .a => some 0x61
  | .c => some 0x63
  | .d => some 0x64
  | .p => some 0x70
  | .s => some 0x73
  | .left => some 0x40000050
  | .right => some 0x4000004f
  | .space => some 0x20
  | .escape => some 0x1b
  | .other => none

/-- The key behind a code: the one that has it, or another if none has. -/
def IsBehind (key : Key) (code : UInt32) : Prop :=
  key.code? = some code ∨ key = .other ∧ ∀ k : Key, k.code? ≠ some code

theorem code?_of_mem_codes : ∀ entry ∈ codes, entry.2.code? = some entry.1 := by
  decide

theorem ofCode_of_code? {key : Key} {code : UInt32} (has : key.code? = some code) :
    ofCode code = key := by
  cases key <;> cases has <;> rfl

theorem ofCode_of_none {code : UInt32} (none_has : ∀ k : Key, k.code? ≠ some code) :
    ofCode code = .other := by
  have absent : codes.lookup code = none := by
    rw [List.lookup_eq_none_iff]
    intro entry listed
    rw [bne_iff_ne]
    intro same
    exact none_has entry.2 (same ▸ code?_of_mem_codes entry listed)
  rw [ofCode, absent]
  rfl

theorem ofCode_eq_iff {code : UInt32} {key : Key} : ofCode code = key ↔ key.IsBehind code := by
  constructor
  · intro stands
    rw [← stands]
    by_cases some_has : ∃ k : Key, k.code? = some code
    · obtain ⟨k, has⟩ := some_has
      exact .inl (by rw [ofCode_of_code? has, has])
    · have none_has := not_exists.mp some_has
      exact .inr ⟨ofCode_of_none none_has, none_has⟩
  · intro behind
    cases behind with
    | inl has => exact ofCode_of_code? has
    | inr another => rw [another.1, ofCode_of_none another.2]

end Key

section
variable {system : WindowSystem}

theorem WindowSystem.key?_eq_some_iff {code : UInt32} {key : Key} :
    system.key? code = some key ↔ system.named code = true ∧ key.IsBehind code := by
  unfold key?
  by_cases named : system.named code = true
  · simp [named, Key.ofCode_eq_iff]
  · simp [named]

/-! ### What is heard of events -/

namespace Event

variable (system) in
/-- What a key event says, if its code names a key: one that is pressed for the first time goes
down, one that is let go comes up. -/
inductive Moves : Event → Key × Bool → Prop
  | down {code : UInt32} {key : Key} (named : system.named code = true)
      (behind : key.IsBehind code) :
    Moves (.keyDown code false) (key, true)
  | up {code : UInt32} {key : Key} (named : system.named code = true)
      (behind : key.IsBehind code) :
    Moves (.keyUp code) (key, false)

theorem key?_eq_some_iff {e : Event} {k : Key × Bool} :
    e.key? system = some k ↔ e.Moves system k := by
  constructor
  · intro moved
    cases e with
    | keyDown code repeated =>
      cases repeated with
      | true => cases moved
      | false =>
        obtain ⟨key, found, rfl⟩ := Option.map_eq_some_iff.mp moved
        obtain ⟨named, behind⟩ := WindowSystem.key?_eq_some_iff.mp found
        exact .down named behind
    | keyUp code =>
      obtain ⟨key, found, rfl⟩ := Option.map_eq_some_iff.mp moved
      obtain ⟨named, behind⟩ := WindowSystem.key?_eq_some_iff.mp found
      exact .up named behind
    | quit => cases moved
    | other => cases moved
  · intro moves
    cases moves with
    | down named behind | up named behind =>
      have found := WindowSystem.key?_eq_some_iff.mpr ⟨named, behind⟩
      exact Option.map_eq_some_iff.mpr ⟨_, found, rfl⟩

/-- Whether the loop takes any notice of an event. -/
def heard (system : WindowSystem) (e : Event) : Bool :=
  e == .quit || (e.key? system).isSome

theorem heard_eq_false_iff {e : Event} :
    e.heard system = false ↔ e ≠ .quit ∧ ∀ k, ¬e.Moves system k := by
  simp only [← key?_eq_some_iff, ← Option.eq_none_iff_forall_ne_some]
  simp [heard]

/-- The keys that a batch of events moves: those in front of the first quit. -/
def keys (system : WindowSystem) (events : List Event) : List (Key × Bool) :=
  (events.takeWhile (· ≠ .quit)).filterMap (key? system)

theorem keys_quit (rest : List Event) : keys system (.quit :: rest) = [] :=
  rfl

theorem keys_cons {e : Event} (open_yet : e ≠ .quit) (rest : List Event) :
    keys system (e :: rest) = (e.key? system).toList ++ keys system rest := by
  have goes_on : decide (e ≠ .quit) = true := decide_eq_true open_yet
  rw [keys, List.takeWhile_cons, if_pos goes_on, List.filterMap_cons]
  cases e.key? system <;> rfl

/-- Nothing behind a quit is heard. -/
theorem keys_append_quit (front back : List Event) :
    keys system (front ++ .quit :: back) = keys system (front ++ [.quit]) := by
  induction front with
  | nil => rfl
  | cons e front ih =>
    by_cases closing : e = .quit
    · rw [closing]
      rfl
    · rw [List.cons_append, List.cons_append, keys_cons closing, keys_cons closing, ih]

theorem keys_filter_heard (events : List Event) :
    keys system (events.filter (heard system)) = keys system events := by
  induction events with
  | nil => rfl
  | cons e rest ih =>
    by_cases closing : e = .quit
    · rw [closing]
      rfl
    rw [keys_cons closing, ← ih, List.filter_cons]
    split
    case isTrue => exact keys_cons closing _
    case isFalse unheard =>
      have none_moved : e.key? system = none := by simpa [heard, closing] using unheard
      rw [none_moved]
      rfl

theorem quit_mem_filter_heard {events : List Event} :
    .quit ∈ events.filter (heard system) ↔ .quit ∈ events := by
  simp [heard]

end Event
end

/-! ### Calls -/

namespace Call
variable {σ : Type}

/-- The call for a key. -/
def ofKey (k : Key × Bool) : Call σ :=
  .key k.1 k.2

end Call

/-- The calls, behind the start, that a schedule of batches may come to: rounds, each with the
keys of its batch between a no and an update, and at the end a yes or the keys of the batch
that closes the window, and a stop. The window is closed when the batches are at their end. -/
inductive Protocol {σ : Type} (system : WindowSystem) : List (List Event) → List (Call σ) → Prop
  | leaves {batches : List (List Event)} : Protocol system batches [.asked true, .stopped]
  | closed : Protocol system [] [.asked false, .stopped]
  | quit {events : List Event} {later : List (List Event)} (closing : .quit ∈ events) :
    Protocol system (events :: later)
      (.asked false :: (Event.keys system events).map .ofKey ++ [.stopped])
  | round {events : List Event} {later : List (List Event)} {buffer : ByteArray} {state : σ}
      {calls : List (Call σ)} (staying : .quit ∉ events) (rest : Protocol system later calls) :
    Protocol system (events :: later)
      (.asked false :: (Event.keys system events).map .ofKey ++ .updated buffer state :: calls)

namespace Protocol
variable {system : WindowSystem} {σ : Type} {batches : List (List Event)} {calls : List (Call σ)}

theorem not_mem_keys {c : Call σ} (other : ∀ k down, c ≠ .key k down) (keys : List (Key × Bool)) :
    c ∉ keys.map .ofKey := by
  intro among
  obtain ⟨k, _, rfl⟩ := List.mem_map.mp among
  exact other k.1 k.2 rfl

/-- There is one stop, at the end, and no start. -/
theorem ends (h : Protocol system batches calls) :
    ∃ middle, calls = middle ++ [.stopped] ∧ .started ∉ middle ∧ .stopped ∉ middle := by
  induction h with
  | leaves => exact ⟨[.asked true], rfl, by simp, by simp⟩
  | closed => exact ⟨[.asked false], rfl, by simp, by simp⟩
  | quit closing => exact ⟨_, rfl, by simp [not_mem_keys], by simp [not_mem_keys]⟩
  | @round events _ buffer state _ staying _ ih =>
    obtain ⟨middle, rfl, unstarted, unstopped⟩ := ih
    refine ⟨.asked false :: (Event.keys system events).map .ofKey ++ .updated buffer state :: middle,
      by simp, ?_, ?_⟩
    · simp [not_mem_keys, unstarted]
    · simp [not_mem_keys, unstopped]

theorem begins (h : Protocol system batches calls) :
    calls = [.asked true, .stopped] ∨ ∃ rest, calls = .asked false :: rest := by
  cases h with
  | leaves => exact .inl rfl
  | closed => exact .inr ⟨_, rfl⟩
  | quit => exact .inr ⟨_, rfl⟩
  | round => exact .inr ⟨_, rfl⟩

/-- A key among keys with something else behind them is one of them or comes behind that. -/
theorem key_among {keys : List (Key × Bool)} {c : Call σ} {rest before after : List (Call σ)}
    {k : Key} {down : Bool} (h : keys.map .ofKey ++ c :: rest = before ++ .key k down :: after)
    (other : ∀ k down, c ≠ .key k down) :
    (∃ keys' : List (Key × Bool), after = keys'.map .ofKey ++ c :: rest) ∨
      ∃ before', rest = before' ++ .key k down :: after := by
  induction keys generalizing before with
  | nil =>
    cases before with
    | nil => exact absurd (List.cons.inj h).1 (other k down)
    | cons b before => exact .inr ⟨before, (List.cons.inj h).2⟩
  | cons k' keys ih =>
    cases before with
    | nil => exact .inl ⟨keys, (List.cons.inj h).2.symm⟩
    | cons b before => exact ih (List.cons.inj h).2

/-- Behind a key the round goes on with its keys, and then ends the run or comes to its
update. -/
theorem behind_key {before after : List (Call σ)} {k : Key} {down : Bool}
    (h : Protocol system batches (before ++ .key k down :: after)) :
    ∃ keys : List (Key × Bool), after = keys.map .ofKey ++ [.stopped] ∨
      ∃ buffer state rest later,
        after = keys.map .ofKey ++ .updated buffer state :: rest ∧ Protocol system later rest := by
  generalize split : before ++ .key k down :: after = calls at h
  induction h generalizing before with
  | leaves =>
    have among : Call.key k down ∈ [.asked true, .stopped] := split ▸ List.mem_append_cons_self
    simp at among
  | closed =>
    have among : Call.key k down ∈ [.asked false, .stopped] := split ▸ List.mem_append_cons_self
    simp at among
  | quit =>
    cases before with
    | nil => cases (List.cons.inj split).1
    | cons _ before =>
      rcases key_among (List.cons.inj split).2.symm nofun with ⟨keys, behind⟩ | ⟨_, none⟩
      · exact ⟨keys, .inl behind⟩
      · simp at none
  | round _ protocol ih =>
    cases before with
    | nil => cases (List.cons.inj split).1
    | cons _ before =>
      rcases key_among (List.cons.inj split).2.symm nofun with ⟨keys, behind⟩ | ⟨_, later⟩
      · exact ⟨keys, .inr ⟨_, _, _, _, behind, protocol⟩⟩
      · exact ih later.symm

end Protocol

namespace Application
variable {σ : Type} (app : Application σ)

/-- What a call makes of a buffer and a state; its answer is the application's. -/
def Made : Call σ → ByteArray × σ → ByteArray × σ → Prop
  | .started, p, q => q = (p.1, app.start p.2)
  | .asked leaving, p, q => leaving = (app.leaving p.2).1 ∧ q = (p.1, (app.leaving p.2).2)
  | .key key down, p, q => q = (p.1, app.key key down p.2)
  | .updated buffer state, p, q => app.update p.1 p.2 = .ok (buffer, state) ∧ q = (buffer, state)
  | .stopped, p, q => q = (p.1, app.stop p.2)

/-- What calls make of a buffer and a state, one after the other. -/
def Replays : List (Call σ) → ByteArray × σ → ByteArray × σ → Prop
  | [], p, q => q = p
  | call :: calls, p, q => ∃ r, app.Made call p r ∧ Replays calls r q

/-- The state after some keys. -/
def press (keys : List (Key × Bool)) (s : σ) : σ :=
  keys.foldl (fun s k => app.key k.1 k.2 s) s

variable {app}

theorem replays_append {calls calls' : List (Call σ)} {p q : ByteArray × σ} :
    app.Replays (calls ++ calls') p q ↔
      ∃ r, app.Replays calls p r ∧ app.Replays calls' r q := by
  induction calls generalizing p with
  | nil => simp [Replays]
  | cons call calls ih => simp [Replays, ih]; grind

theorem replays_keys {keys : List (Key × Bool)} {calls : List (Call σ)} {p q : ByteArray × σ} :
    app.Replays (keys.map .ofKey ++ calls) p q ↔ app.Replays calls (p.1, app.press keys p.2) q := by
  induction keys generalizing p with
  | nil => rfl
  | cons k keys ih => simp [Replays, Made, Call.ofKey, ih, press]

variable (app) {system : WindowSystem}

theorem deliver_eq (events : List Event) (s : σ) :
    app.deliver system events s =
      (⟨(Event.keys system events).map .ofKey, app.press (Event.keys system events) s⟩,
        decide (.quit ∈ events)) := by
  fun_induction deliver app system events s with
  | case1 s => rfl
  | case2 rest s => simp [Event.keys_quit, press]
  | case3 e rest s open_yet none_moved ih =>
    rw [ih, Event.keys_cons open_yet, none_moved]
    simp [Ne.symm open_yet]
  | case4 e rest s open_yet k down moved t quit delivered ih =>
    rw [delivered] at ih
    cases ih
    rw [Event.keys_cons open_yet, moved]
    simp [Ne.symm open_yet, Trace.after, Call.ofKey, press]

/-! ### Rounds -/

section
variable {batches later : List (List Event)} {events : List Event} {buffer shown : ByteArray}
  {s u : σ} {t : Trace σ} {calls : List (Call σ)}

theorem rounds_of_leaving (leaves : (app.leaving s).1 = true) :
    app.rounds system batches buffer s = .ok ⟨[.asked true, .stopped], app.stop (app.leaving s).2⟩ := by
  cases batches <;> simp [rounds, leaves, leave, Trace.after]

theorem rounds_nil :
    app.rounds system [] buffer s =
      .ok ⟨[.asked (app.leaving s).1, .stopped], app.stop (app.leaving s).2⟩ :=
  rfl

theorem rounds_of_quit (stays : (app.leaving s).1 = false) (closing : .quit ∈ events) :
    app.rounds system (events :: later) buffer s =
      .ok ⟨.asked false :: (Event.keys system events).map .ofKey ++ [.stopped],
        app.stop (app.press (Event.keys system events) (app.leaving s).2)⟩ := by
  simp [rounds, stays, deliver_eq, closing, leave, Trace.after]

theorem rounds_of_update (stays : (app.leaving s).1 = false) (staying : .quit ∉ events) :
    app.rounds system (events :: later) buffer s = (do
      let (buffer, s) ← app.update buffer (app.press (Event.keys system events) (app.leaving s).2)
      let rest ← app.rounds system later buffer s
      return rest.after
        (.asked false :: (Event.keys system events).map .ofKey ++ [.updated buffer s])) := by
  simp [rounds, stays, deliver_eq, staying]

variable {app}

theorem protocol_of_rounds (done : app.rounds system batches buffer s = .ok t) :
    Protocol system batches t.calls ∧ ∃ shown, app.Replays t.calls (buffer, s) (shown, t.state) := by
  induction batches generalizing buffer s t with
  | nil =>
    cases done
    refine ⟨?_, buffer, _, ⟨rfl, rfl⟩, _, rfl, rfl⟩
    show Protocol system [] [.asked (app.leaving s).1, .stopped]
    cases (app.leaving s).1 with
    | true => exact .leaves
    | false => exact .closed
  | cons events later ih =>
    cases asked : (app.leaving s).1 with
    | true =>
      rw [rounds_of_leaving app asked] at done
      cases done
      exact ⟨.leaves, buffer, _, ⟨asked.symm, rfl⟩, _, rfl, rfl⟩
    | false =>
      by_cases closing : .quit ∈ events
      · rw [rounds_of_quit app asked closing] at done
        cases done
        exact ⟨.quit closing, buffer, _, ⟨asked.symm, rfl⟩, replays_keys.mpr ⟨_, rfl, rfl⟩⟩
      · rw [rounds_of_update app asked closing] at done
        obtain ⟨⟨drawn, after⟩, updated, done⟩ := bind_eq_ok.mp done
        obtain ⟨rest, through, done⟩ := bind_eq_ok.mp done
        cases done
        obtain ⟨protocol, last, replays⟩ := ih through
        have calls :
            (rest.after
              (.asked false :: (Event.keys system events).map .ofKey ++ [.updated drawn after])).calls =
              .asked false :: (Event.keys system events).map .ofKey ++ .updated drawn after :: rest.calls := by
          simp [Trace.after]
        rw [calls]
        exact ⟨.round closing protocol, last, _, ⟨asked.symm, rfl⟩,
          replays_keys.mpr ⟨_, ⟨updated, rfl⟩, replays⟩⟩

theorem rounds_of_protocol (protocol : Protocol system batches calls)
    (replays : app.Replays calls (buffer, s) (shown, u)) :
    app.rounds system batches buffer s = .ok ⟨calls, u⟩ := by
  -- The protocol says which way a round went, and the answers that it could not go another.
  induction protocol generalizing buffer s with
  | leaves =>
    obtain ⟨_, ⟨asked, rfl⟩, _, rfl, last⟩ := replays
    cases last
    exact rounds_of_leaving app asked.symm
  | closed =>
    obtain ⟨_, ⟨asked, rfl⟩, _, rfl, last⟩ := replays
    cases last
    rw [rounds_nil, ← asked]
  | quit closing =>
    obtain ⟨_, ⟨asked, rfl⟩, replays⟩ := replays
    obtain ⟨_, rfl, last⟩ := replays_keys.mp replays
    cases last
    exact rounds_of_quit app asked.symm closing
  | round staying protocol ih =>
    obtain ⟨_, ⟨asked, rfl⟩, replays⟩ := replays
    obtain ⟨_, ⟨drawn, rfl⟩, replays⟩ := replays_keys.mp replays
    rw [rounds_of_update app asked.symm staying, drawn]
    show (app.rounds system _ _ _ >>= _) = _
    rw [ih replays]
    simp [Trace.after, bind, Except.bind, pure, Except.pure]

/-- **What the rounds come to is what follows the protocol with the application's answers.** -/
theorem rounds_eq_ok_iff :
    app.rounds system batches buffer s = .ok t ↔
      Protocol system batches t.calls ∧ ∃ shown, app.Replays t.calls (buffer, s) (shown, t.state) :=
  ⟨protocol_of_rounds, fun ⟨protocol, _, replays⟩ => rounds_of_protocol protocol replays⟩

/-- Rounds that come to nothing are those of an application that fails to draw. -/
theorem rounds_eq_error {fault : Fault} (failed : app.rounds system batches buffer s = .error fault) :
    ∃ calls shown u, app.Replays calls (buffer, s) (shown, u) ∧
      app.update shown u = .error fault := by
  induction batches generalizing buffer s with
  | nil => cases failed
  | cons events later ih =>
    cases asked : (app.leaving s).1 with
    | true =>
      rw [rounds_of_leaving app asked] at failed
      cases failed
    | false =>
      by_cases closing : .quit ∈ events
      · rw [rounds_of_quit app asked closing] at failed
        cases failed
      have keys : ∀ calls {q},
          app.Replays calls (buffer, app.press (Event.keys system events) (app.leaving s).2) q →
            app.Replays (.asked false :: (Event.keys system events).map .ofKey ++ calls) (buffer, s) q :=
        fun _ _ replays => ⟨_, ⟨asked.symm, rfl⟩, replays_keys.mpr replays⟩
      rw [rounds_of_update app asked closing] at failed
      rcases bind_eq_error.mp failed with undrawn | ⟨⟨drawn, after⟩, updated, failed⟩
      · exact ⟨_, _, _, keys [] rfl, undrawn⟩
      · rcases bind_eq_error.mp failed with later_failed | ⟨_, _, absurd⟩
        · obtain ⟨calls, shown, u, replays, undrawn⟩ := ih later_failed
          exact ⟨_, shown, u, keys (.updated drawn after :: calls) ⟨_, ⟨updated, rfl⟩, replays⟩, undrawn⟩
        · cases absurd

/-! ### Schedules that are the same -/

theorem rounds_cons_congr {events' : List Event} {later' : List (List Event)}
    (heard : ∀ s, app.deliver system events s = app.deliver system events' s)
    (rest : ∀ buffer s, app.rounds system later buffer s = app.rounds system later' buffer s) :
    app.rounds system (events :: later) buffer s = app.rounds system (events' :: later') buffer s := by
  simp only [rounds, heard, rest]

theorem rounds_filter_heard :
    app.rounds system (batches.map (·.filter (Event.heard system))) buffer s = app.rounds system batches buffer s := by
  induction batches generalizing buffer s with
  | nil => rfl
  | cons events later ih =>
    refine rounds_cons_congr (fun s => ?_) fun _ _ => ih
    rw [deliver_eq, deliver_eq, Event.keys_filter_heard]
    simp only [Event.quit_mem_filter_heard]

/-- Behind a quit there is nothing, in its batch and after it. -/
theorem rounds_append_quit (before after : List (List Event)) (front back : List Event) :
    app.rounds system (before ++ (front ++ .quit :: back) :: after) buffer s =
      app.rounds system (before ++ [front ++ [.quit]]) buffer s := by
  induction before generalizing buffer s with
  | nil =>
    cases asked : (app.leaving s).1 with
    | true => rw [rounds_of_leaving app asked, rounds_of_leaving app asked]
    | false =>
      rw [List.nil_append, List.nil_append, rounds_of_quit app asked List.mem_append_cons_self,
        rounds_of_quit app asked List.mem_append_cons_self, Event.keys_append_quit]
  | cons events before ih => exact rounds_cons_congr (fun _ => rfl) fun _ _ => ih

/-- The end of the batches is a quit. -/
theorem rounds_concat_quit :
    app.rounds system (batches ++ [[.quit]]) buffer s = app.rounds system batches buffer s := by
  induction batches generalizing buffer s with
  | nil =>
    cases asked : (app.leaving s).1 with
    | true => rw [rounds_of_leaving app asked, rounds_of_leaving app asked]
    | false =>
      rw [List.nil_append, rounds_of_quit app asked List.mem_cons_self, rounds_nil, asked]
      rfl
  | cons events later ih => exact rounds_cons_congr (fun _ => rfl) fun _ _ => ih

/-! ### From the opening of the window -/

/-- The buffer behind a window that has just been opened. -/
def blank (size : Nat) : ByteArray :=
  ByteArray.mk (Array.replicate size 0)

variable {w : WindowInfo} {size : Nat}

theorem run_eq (opens : w.Opens system size) :
    app.runOn system w batches s =
      (·.after [.started]) <$>
        (app.rounds system batches (blank size) (app.start s)).mapError WindowFailure.fault := by
  unfold runOn
  rw [WindowInfo.bufferSize_eq_ok_iff.mpr opens]
  show (app.rounds system batches (blank size) (app.start s)).mapError WindowFailure.fault >>= _ = _
  cases app.rounds system batches (blank size) (app.start s) <;> rfl

/-- Schedules that are the same to every round are the same to a run. -/
theorem run_congr {batches' : List (List Event)}
    (same : ∀ buffer s, app.rounds system batches buffer s = app.rounds system batches' buffer s) :
    app.runOn system w batches s = app.runOn system w batches' s := by
  simp only [runOn, same]

theorem run_eq_ok_iff (opens : w.Opens system size) :
    app.runOn system w batches s = .ok t ↔
      ∃ rest, t.calls = .started :: rest ∧ Protocol system batches rest ∧
        ∃ shown, app.Replays t.calls (blank size, s) (shown, t.state) := by
  rw [run_eq opens, map_eq_ok]
  constructor
  · rintro ⟨t, done, rfl⟩
    obtain ⟨protocol, shown, replays⟩ := rounds_eq_ok_iff.mp (mapError_eq_ok.mp done)
    exact ⟨t.calls, rfl, protocol, shown, _, rfl, replays⟩
  · obtain ⟨calls, state⟩ := t
    rintro ⟨rest, rfl, protocol, shown, _, rfl, replays⟩
    have done : app.rounds system batches (blank size) (app.start s) = .ok ⟨rest, state⟩ :=
      rounds_eq_ok_iff.mpr ⟨protocol, shown, replays⟩
    exact ⟨⟨rest, state⟩, mapError_eq_ok.mpr done, rfl⟩

theorem run_cases (opens : w.Opens system size) (batches : List (List Event)) (s : σ) :
    (∃ t, app.runOn system w batches s = .ok t) ∨
      ∃ fault calls shown u, app.runOn system w batches s = .error (.fault fault) ∧
        app.Replays (.started :: calls) (blank size, s) (shown, u) ∧
        app.update shown u = .error fault := by
  rw [run_eq opens]
  cases done : app.rounds system batches (blank size) (app.start s) with
  | ok t => exact .inl ⟨_, rfl⟩
  | error fault =>
    obtain ⟨calls, shown, u, replays, undrawn⟩ := rounds_eq_error done
    exact .inr ⟨fault, calls, shown, u, rfl, ⟨_, rfl, replays⟩, undrawn⟩

end

end Application
end Cabinet

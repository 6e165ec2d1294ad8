import Cabinet.Machine
import Mathlib.Algebra.BigOperators.Group.List.Basic
import Mathlib.Data.List.Induction

/-! What the ports read, by what has been done to the board.

A board remembers little of its history: of each button where it was moved last, of the
shifter the last two bytes fed and the last offset, and of the latter two only those since
the last reset. `Remembers` ties these to the history, one step keeps it (`Remembers.act`),
and every read after any history can be told from it (`ports_of_history`). -/
namespace Cabinet

/-! ### Buttons -/

namespace Button

/-- What the button adds to port 1. -/
def weight : Button → Nat
  | .coin => 1
  | .start2 => 2
  | .start1 => 4
  | .fire => 16
  | .left => 32
  | .right => 64

/-- The buttons, by their bits. -/
def all : List Button :=
  [.coin, .start2, .start1, .fire, .left, .right]

/-- Port 1 with just these buttons down: their weights, upon the bit that is always set. -/
def lit (down : Button → Bool) : Nat :=
  ((all.filter down).map weight).foldr (· + ·) 0x08

/-- Setting and clearing the button's bit is to move the button. -/
theorem lit_moved {v : UInt8} {down : Button → Bool} (h : v.toNat = lit down) (button : Button)
    (moved : Bool) :
    (if moved then v ||| button.mask else v &&& ~~~button.mask).toNat =
      lit fun b => if button = b then moved else down b := by
  obtain rfl : v = UInt8.ofNat (lit down) := by rw [← h, UInt8.ofNat_toNat]
  clear h
  simp only [lit, all, List.filter_cons, List.filter_nil]
  generalize down .coin = c
  generalize down .start2 = s
  generalize down .start1 = t
  generalize down .fire = f
  generalize down .left = l
  generalize down .right = r
  revert c s t f l r
  cases button <;> cases moved <;> decide +kernel

end Button

namespace Board

/-! ### Histories -/

/-- What is done to a board. -/
inductive Event where
  | read (port : UInt8)
  | write (port v : UInt8)
  | press (button : Button) (down : Bool)
  | reset
  deriving Repr, DecidableEq

/-- What an event makes of a board; reads and writes come through the device that the
processor drives. -/
def act (b : Board) : Event → Board
  | .read port => (device.input port b).2
  | .write port v => device.output port v b
  | .press button down => b.setButton button down
  | .reset => b.reset

/-- The byte that an event writes to a port. -/
def Event.wrote? (port : UInt8) : Event → Option UInt8
  | .write p v => if p = port then some v else none
  | _ => none

/-- How an event moves a button, if it does. -/
def Event.moved? (button : Button) : Event → Option Bool
  | .press b down => if b = button then some down else none
  | _ => none

/-- The bytes written to a port since the last reset, the latest first. -/
def written (port : UInt8) (events : List Event) : List UInt8 :=
  (events.reverse.takeWhile (· ≠ .reset)).filterMap (Event.wrote? port)

/-- Whether a button was down when it was last moved. -/
def held (events : List Event) (button : Button) : Bool :=
  (events.reverse.findSome? (Event.moved? button)).getD false

theorem written_concat (port : UInt8) (events : List Event) (e : Event) :
    written port (events ++ [e]) =
      if e = .reset then [] else (e.wrote? port).toList ++ written port events := by
  unfold written
  rw [List.reverse_concat, List.takeWhile_cons]
  by_cases h : e = .reset
  · simp [h]
  · cases wrote : e.wrote? port <;> simp [h, wrote]

theorem held_concat (events : List Event) (e : Event) (button : Button) :
    held (events ++ [e]) button = (e.moved? button).getD (held events button) := by
  unfold held
  rw [List.reverse_concat, List.findSome?_cons]
  cases e.moved? button <;> rfl

/-! ### What a board remembers -/

/-- The last byte fed to the shifter since the last reset. -/
def lastFed (events : List Event) : UInt8 :=
  (written 4 events).getD 0 0

/-- The byte fed to the shifter before the last one. -/
def previousFed (events : List Event) : UInt8 :=
  (written 4 events).getD 1 0

/-- How far the shifter's window has been moved since the last reset. -/
def shift (events : List Event) : Nat :=
  ((written 2 events).getD 0 0).toNat % 8

/-- What is left in a board of its history. -/
structure Remembers (switches : Switches) (events : List Event) (b : Board) : Prop where
  switches : b.switches = switches
  buttons : b.port1.toNat = Button.lit (held events)
  data : b.shifter.data = Word.join (lastFed events) (previousFed events)
  offset : b.shifter.offset.val = shift events

variable {switches : Switches} {events : List Event} {b : Board}

theorem remembers_new (switches : Switches) : Remembers switches [] (new switches) :=
  ⟨rfl, rfl, rfl, rfl⟩

theorem written_unless (port : UInt8) (e : Event) (kept : e ≠ .reset)
    (h : e.wrote? port = none) : written port (events ++ [e]) = written port events := by
  rw [written_concat, if_neg kept, h]
  rfl

theorem written_write (port v : UInt8) :
    written port (events ++ [.write port v]) = v :: written port events := by
  rw [written_concat, if_neg nofun, Event.wrote?, if_pos rfl]
  rfl

theorem written_reset (port : UInt8) : written port (events ++ [.reset]) = [] := by
  rw [written_concat, if_pos rfl]

/-! ### One step -/

theorem act_switches (b : Board) (e : Event) : (b.act e).switches = b.switches := by
  cases e with
  | write port v =>
    show (b.output port v).switches = _
    unfold output
    split <;> [rfl; split <;> rfl]
  | _ => rfl

theorem act_buttons (h : b.port1.toNat = Button.lit (held events)) (e : Event) :
    (b.act e).port1.toNat = Button.lit (held (events ++ [e])) := by
  rw [funext (held_concat events e)]
  cases e with
  | write port v =>
    show (b.output port v).port1.toNat = _
    unfold output
    split <;> [exact h; split <;> exact h]
  | press button down =>
    refine (Button.lit_moved h button down).trans (congrArg Button.lit (funext fun b => ?_))
    simp only [Event.moved?]
    split <;> rfl
  | _ => exact h

/-- The shifter takes what is written to port 4, the byte before it moves down, and what was
below is lost. -/
theorem act_data (h : b.shifter.data = Word.join (lastFed events) (previousFed events))
    (e : Event) :
    (b.act e).shifter.data = Word.join (lastFed (events ++ [e])) (previousFed (events ++ [e])) := by
  unfold lastFed previousFed at *
  cases e with
  | write port v =>
    show (b.output port v).shifter.data = _
    unfold output
    by_cases fed : port = 4
    · subst fed
      rw [written_write]
      show Word.join v (Word.high b.shifter.data) = _
      rw [h, Word.high_join]
      rfl
    · rw [written_unless 4 (.write port v) nofun (if_neg fed), if_neg fed, ← h]
      split <;> rfl
  | reset =>
    rw [written_reset]
    rfl
  | read port =>
    rw [written_unless 4 (.read port) nofun rfl]
    exact h
  | press button down =>
    rw [written_unless 4 (.press button down) nofun rfl]
    exact h

theorem act_offset (h : b.shifter.offset.val = shift events) (e : Event) :
    (b.act e).shifter.offset.val = shift (events ++ [e]) := by
  unfold shift at *
  cases e with
  | write port v =>
    show (b.output port v).shifter.offset.val = _
    unfold output
    by_cases moved : port = 2
    · subst moved
      rw [written_write]
      rfl
    · rw [written_unless 2 (.write port v) nofun (if_neg moved), if_neg moved, ← h]
      split <;> rfl
  | reset =>
    rw [written_reset]
    rfl
  | read port =>
    rw [written_unless 2 (.read port) nofun rfl]
    exact h
  | press button down =>
    rw [written_unless 2 (.press button down) nofun rfl]
    exact h

/-- Every event is remembered as far as it matters. -/
theorem Remembers.act (h : Remembers switches events b) (e : Event) :
    Remembers switches (events ++ [e]) (b.act e) where
  switches := (act_switches b e).trans h.switches
  buttons := act_buttons h.buttons e
  data := act_data h.data e
  offset := act_offset h.offset e

theorem remembers (switches : Switches) (events : List Event) :
    Remembers switches events (events.foldl Board.act (new switches)) := by
  induction events using List.reverseRecOn with
  | nil => exact remembers_new switches
  | append_singleton events e ih =>
    rw [List.foldl_append]
    exact ih.act e

/-! ### What the ports read -/

/-- The window is the high byte of the data shifted up by the offset. -/
theorem toNat_window (s : Shifter) :
    s.window.toNat = s.data.toNat * 2 ^ s.offset.val % 65536 / 256 := by
  have within : 8 - s.offset.val + s.offset.val = 8 := by omega
  have split : 2 ^ (8 - s.offset.val) * 2 ^ s.offset.val = 256 := by
    rw [← Nat.pow_add, within]
  calc s.window.toNat
      = s.data.toNat / 2 ^ (8 - s.offset.val) % 256 := by
        rw [Shifter.window, UInt8.toNat_ofNat', Nat.shiftRight_eq_div_pow]
    _ = s.data.toNat * 2 ^ s.offset.val / 256 % 256 := by
        rw [← split, Nat.mul_div_mul_right _ _ (Nat.two_pow_pos _), split]
    _ = s.data.toNat * 2 ^ s.offset.val % 65536 / 256 :=
        (Nat.mod_mul_right_div_self _ 256 256).symm

/-- What a board tells after a history: what each port reads, what it does not take notice
of, and that the window stays within the data. -/
structure Shows (switches : Switches) (events : List Event) (b : Board) : Prop where
  fixed : b.input 0 = 0x06
  buttons : (b.input 1).toNat = Button.lit (held events)
  switches : b.input 2 = switches.port2
  window : (b.input 3).toNat =
    ((lastFed events).toNat * 256 + (previousFed events).toNat) * 2 ^ shift events % 65536 / 256
  others : ∀ port, port ∉ [0, 1, 2, 3] → b.input port = 0
  reads : ∀ port, device.input port b = (b.input port, b)
  ignored : ∀ port v, port ∉ [2, 4] → device.output port v b = b
  /-- The distance from the bottom is no negative number. -/
  within : b.shifter.offset.val = shift events ∧ shift events ≤ 8
  /-- In a machine, a reset and the buttons reach the board as the events do. -/
  inside : ∀ m : Machine, m.board = b → m.reset.board = b.act .reset ∧
    ∀ button down, (m.setButton button down).board = b.act (.press button down)

/-- **The ports by what has been done to the board.** Whatever is read, written, pressed and
reset from a new board on, in any order, the ports show it: the buttons by where each was moved
last, the window by the last two bytes fed and the last offset since the last reset. -/
theorem ports_of_history (switches : Switches) (events : List Event) :
    Shows switches events (events.foldl act (new switches)) := by
  obtain ⟨kept, buttons, data, offset⟩ := remembers switches events
  generalize events.foldl act (new switches) = b at *
  exact {
    fixed := rfl
    buttons := buttons
    switches := congrArg Switches.port2 kept
    window := by
      show b.shifter.window.toNat = _
      rw [toNat_window, data, Word.toNat_join, offset]
    others := fun port other => by
      simp only [List.mem_cons, List.not_mem_nil, or_false, not_or] at other
      obtain ⟨h₀, h₁, h₂, h₃⟩ := other
      rw [input, if_neg h₀, if_neg h₁, if_neg h₂, if_neg h₃]
    reads := fun _ => rfl
    ignored := fun port v other => by
      simp only [List.mem_cons, List.not_mem_nil, or_false, not_or] at other
      show b.output port v = b
      rw [output, if_neg other.1, if_neg other.2]
    within := ⟨offset, by unfold shift; omega⟩
    inside := by
      rintro m rfl
      exact ⟨rfl, fun _ _ => rfl⟩ }

/-- What was fed before a reset is not seen after it. -/
example :
    (([.write 4 0xaa, .reset, .write 4 0xff, .press .fire true, .write 2 0x0b] :
      List Event).foldl act (new {})).input 3 = 0xf8 := by decide

end Board
end Cabinet

import Cabinet.Word
import Cabinet.Processor.Device

/-! The board behind the ports: switches, buttons and the shifter.

Port 1 holds the buttons, port 2 the switches set when the machine is built. The
shifter is a 16-bit register that takes bytes at its top, pushing the older one down;
it is read through a window of eight bits, set by an offset from the top. It spares
the program from shifting pictures bit by bit. -/
namespace Cabinet

/-! ### Switches -/

/-- The settings inside the cabinet. -/
structure Switches where
  /-- Ships for a coin, from three to six. -/
  ships : UInt8 := 3
  /-- Whether the machine tells what a game costs while it waits for one. -/
  coinInfo : Bool := true
  deriving Repr, DecidableEq, Inhabited

namespace Switches

/-- Port 2: the ships above three in the low bits, and the top bit to hide the coin
line. Fewer than three ships count as three, more than six as six. -/
def port2 (s : Switches) : UInt8 :=
  let ships := max 3 (min s.ships 6)
  ((ships - 3) &&& 3) ||| (if s.coinInfo then 0 else 0x80)

end Switches

/-! ### Buttons -/

inductive Button where
  | coin | start1 | start2 | left | right | fire
  deriving Repr, DecidableEq, Inhabited

namespace Button

/-- The button's bit of port 1. -/
def mask : Button → UInt8
  | .coin => 0x01
  | .start2 => 0x02
  | .start1 => 0x04
  | .fire => 0x10
  | .left => 0x20
  | .right => 0x40

end Button

/-! ### The shifter -/

structure Shifter where
  data : UInt16 := 0
  /-- How far below the top the window lies: at most seven bits, so that it never
  reaches past the bottom. -/
  offset : Fin 8 := 0
  deriving Repr, DecidableEq, Inhabited

namespace Shifter

/-- A byte enters at the top. -/
def feed (s : Shifter) (v : UInt8) : Shifter :=
  { s with data := Word.join v (Word.high s.data) }

/-- Of an offset only the low three bits count. -/
def setOffset (s : Shifter) (v : UInt8) : Shifter :=
  { s with offset := Fin.ofNat 8 v.toNat }

/-- The eight bits that lie `offset` below the top. -/
def window (s : Shifter) : UInt8 :=
  UInt8.ofNat (s.data.toNat >>> (8 - s.offset.val))

end Shifter

/-! ### The ports -/

@[ext] structure Board where
  switches : Switches
  /-- Buttons that are down, and a bit that is always set. -/
  port1 : UInt8 := 0x08
  shifter : Shifter := {}
  deriving Repr, DecidableEq, Inhabited

namespace Board

/-- The board of a new machine: no button is down and the shifter is empty. -/
def new (switches : Switches) : Board :=
  { switches := switches }

def setButton (b : Board) (button : Button) (down : Bool) : Board :=
  { b with port1 := if down then b.port1 ||| button.mask else b.port1 &&& ~~~button.mask }

/-- What a port reads. -/
def input (b : Board) (port : UInt8) : UInt8 :=
  if port = 0 then 0x06
  else if port = 1 then b.port1
  else if port = 2 then b.switches.port2
  else if port = 3 then b.shifter.window
  else 0

/-- What a write to a port does. Sounds and the watchdog are not modelled. -/
def output (b : Board) (port v : UInt8) : Board :=
  if port = 2 then { b with shifter := b.shifter.setOffset v }
  else if port = 4 then { b with shifter := b.shifter.feed v }
  else b

/-- A reset empties the shifter and leaves buttons and switches. -/
def reset (b : Board) : Board :=
  { b with shifter := {} }

/-- The board as the processor sees it. Reading changes nothing. -/
def device : Device Board where
  input := fun port b => (b.input port, b)
  output := fun port v b => b.output port v

end Board
end Cabinet

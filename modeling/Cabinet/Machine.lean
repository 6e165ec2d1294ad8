import Cabinet.Board
import Cabinet.Rom
import Cabinet.System.Step

/-! The machine: processor, memory and board, and the number of frames it has shown.

It is built from a set of ROM images, which is the only thing loaded, and comes up with
interrupts enabled. A reset restarts processor and shifter and the count of frames;
memory, buttons and switches stay. -/
namespace Cabinet

/-- The settings of a machine. -/
structure Config where
  /-- The cycles of half a frame: at 60 frames a second, a 2 MHz clock has 16667. -/
  halfFrameCycles : UInt32 := 16667
  switches : Switches := {}
  deriving Repr, DecidableEq, Inhabited

@[ext] structure Machine where
  system : System Board
  frames : UInt64
  halfFrameCycles : UInt32

namespace Machine

/-- Cycles in a second. -/
def clock : Nat := 2000000

/-- Frames in a second. -/
def frameRate : UInt32 := 60

def board (m : Machine) : Board :=
  m.system.device

def memory (m : Machine) : Memory :=
  m.system.memory

def videoRam (m : Machine) : VideoRam :=
  m.memory.videoRam

def config (m : Machine) : Config :=
  { halfFrameCycles := m.halfFrameCycles, switches := m.board.switches }

/-- A machine with its program loaded and all else as after power-up. -/
def new (roms : RomSet) (config : Config) : Except LoadError Machine := do
  let memory ← roms.install Memory.blank
  return {
    system := { cpu := {}, memory := memory, device := .new config.switches }
    frames := 0
    halfFrameCycles := config.halfFrameCycles }

/-- What is told of a new machine. -/
def newNotice (config : Config) : Notice :=
  .romsInstalled config.halfFrameCycles config.switches.port2

def reset (m : Machine) : Machine :=
  { m with system := { m.system with cpu := {}, device := m.board.reset }, frames := 0 }

/-- What is told of a reset, before it. -/
def resetNotice (m : Machine) : Notice :=
  .machineReset m.frames

def setButton (m : Machine) (button : Button) (down : Bool) : Machine :=
  { m with system := { m.system with device := m.board.setButton button down } }

/-- The cycles of `n` steps, and the machine after them. -/
def steps (m : Machine) (n : Nat) : Nat × Machine :=
  let (cycles, system) := m.system.steps Board.device n 0
  (cycles, { m with system := system })

end Machine
end Cabinet

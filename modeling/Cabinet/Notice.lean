import Cabinet.Hex

/-! What the program tells its log.

Each message is a constructor that holds what it tells of; `level` and `text` are how
it is written. Nothing reads a notice back. -/
namespace Cabinet

inductive Level where
  | warn | info | debug | trace
  deriving Repr, DecidableEq

namespace Level

def name : Level → String
  | .warn => "WARN"
  | .info => "INFO"
  | .debug => "DEBUG"
  | .trace => "TRACE"

end Level

inductive Notice where
  /-- The processor took the interrupt `vector` while at `pc`. -/
  | interruptTaken (vector : UInt8) (pc : UInt16)
  | romsInstalled (halfFrameCycles : UInt32) (port2 : UInt8)
  | machineReset (frames : UInt64)
  | frameDone (number : UInt64) (first second : UInt32) (pc : UInt16)
  | imageRead (path : String) (length : Nat)
  | sessionOpened
  | sessionClosed (frames : UInt64)
  | pauseChanged (paused : Bool)
  | loadingRoms (path : String)
  | noWindow
  | framesRun (frames cycles : UInt64)
  | windowOpened (title : String) (width height scale frameRate : UInt32)
  deriving Repr, DecidableEq

namespace Notice

def level : Notice → Level
  | .noWindow => .warn
  | .romsInstalled .. | .sessionOpened | .sessionClosed _ | .loadingRoms _ | .framesRun ..
  | .windowOpened .. => .info
  | .interruptTaken .. | .machineReset _ | .imageRead .. | .pauseChanged _ => .debug
  | .frameDone .. => .trace

def text : Notice → String
  | .interruptTaken vector pc => s!"Interrupt RST {vector} accepted at pc={Hex.literal 4 pc.toNat}"
  | .romsInstalled cycles port2 =>
    s!"Space Invaders ROMs installed (half frame = {cycles} cycles, " ++
      s!"port 2 = {Hex.literal 2 port2.toNat})"
  | .machineReset frames => s!"Machine reset after {frames} frames"
  | .frameDone number first second pc =>
    s!"frame {number}: {first} + {second} cycles, pc={Hex.literal 4 pc.toNat}"
  | .imageRead path length => s!"Read ROM image {path} ({length} bytes)"
  | .sessionOpened => "Space Invaders init"
  | .sessionClosed frames => s!"Space Invaders exit after {frames} frames"
  | .pauseChanged paused => s!"Paused: {paused}"
  | .loadingRoms path => s!"Loading ROMs from '{path}'"
  | .noWindow => "Built without the `sdl` feature, running headless"
  | .framesRun frames cycles => s!"Ran {frames} frames ({cycles} cycles)"
  | .windowOpened title width height scale frameRate =>
    s!"{title}: {width}x{height} at {scale}x, {frameRate} fps"

end Notice
end Cabinet

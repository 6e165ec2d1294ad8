import Cabinet.Counter
import Cabinet.Machine

/-! One frame of the picture.

The beam crosses the screen in two halves. In each the processor runs until it has
spent the half's cycles; the last instruction may pass them, and a halted processor
ends the half early. Then the board interrupts it, at vector 1 in the middle of the
screen and at vector 2 at its end. -/
namespace Cabinet

/-- The cycles spent in each half of a frame. -/
structure FrameReport where
  first : UInt32
  second : UInt32
  deriving Repr, DecidableEq, Inhabited

def FrameReport.total (r : FrameReport) : Except Fault UInt32 :=
  Counter.add32 .frameCycles r.first r.second

namespace System
variable {σ : Type} (dev : Device σ)

/-- Steps until `budget` is spent or the processor is halted, with `spent` cycles
already gone. -/
def runHalf (budget spent : UInt32) (s : System σ) : Except Fault (UInt32 × System σ) :=
  if spent < budget then
    let (cost, s') := s.step dev
    if cost = 0 then .ok (spent, s')
    else
      match _fits : Counter.add32 .halfFrameCycles spent cost with
      | .error fault => .error fault
      | .ok spent' => runHalf budget spent' s'
  else .ok (spent, s)
termination_by budget.toNat - spent.toNat
decreasing_by
  have := Counter.add32_eq_ok_iff.mp ‹_›
  have : cost.toNat ≠ 0 := fun h => ‹¬cost = 0› (UInt32.toNat_inj.mp h)
  have := UInt32.lt_iff_toNat_lt.mp ‹_›
  omega

end System

/-- A frame that has been run. -/
structure Frame where
  report : FrameReport
  machine : Machine
  notices : List Notice

namespace Machine

def midScreenVector : UInt8 := 1

def endOfScreenVector : UInt8 := 2

/-- Half a frame, from its first cycle. -/
def runHalf (m : Machine) (s : System Board) : Except Fault (UInt32 × System Board) :=
  s.runHalf Board.device m.halfFrameCycles 0

def runFrame (m : Machine) : Except Fault Frame := do
  let (first, atMiddle) ← m.runHalf m.system
  let middle := atMiddle.interruptNotices midScreenVector
  let (second, atEnd) ← m.runHalf (atMiddle.interrupt midScreenVector)
  let last := atEnd.interruptNotices endOfScreenVector
  let system := atEnd.interrupt endOfScreenVector
  let frames ← Counter.add64 .frameCount m.frames 1
  return {
    report := ⟨first, second⟩
    notices := middle ++ last ++ [.frameDone frames first second system.cpu.pc]
    machine := { m with system := system, frames := frames } }

/-- Frames that have been run, one after the other. -/
structure Frames where
  machine : Machine
  /-- Latest first. -/
  reports : List FrameReport := []
  /-- Latest first. -/
  notices : List Notice := []

namespace Frames

/-- One frame more. -/
def next (f : Frames) : Except Fault Frames := do
  let frame ← f.machine.runFrame
  return {
    machine := frame.machine
    reports := frame.report :: f.reports
    notices := frame.notices.reverse ++ f.notices }

/-- Another `n` frames. -/
def run : Nat → Frames → Except Fault Frames
  | 0, f => .ok f
  | n + 1, f => do
    let f ← f.next
    run n f

end Frames

/-- Run `n` frames from a machine as it is. -/
def runFrames (m : Machine) (n : Nat) : Except Fault Frames :=
  Frames.run n { machine := m }

/-- The cycles of all these frames together. -/
def totalCycles (reports : List FrameReport) : Except Fault UInt64 :=
  reports.foldlM
    (fun sum report => do Counter.add64 .runCycles sum (← report.total).toUInt64) 0

end Machine
end Cabinet

import Cabinet.Checksum
import Cabinet.Launcher.Options
import Cabinet.Machine.Frame

/-! The launcher: load the program, run some frames without a window and print the
digest of the video RAM.

A run gives the text it prints, or the failure that stopped it, and reports on the way.
Nothing is printed before the last frame is done. -/
namespace Cabinet

/-- Why a run failed. -/
inductive RunFailure where
  | load (path : String) (cause : LoadError)
  | install (cause : LoadError)
  | fault (fault : Fault)
  deriving Repr, DecidableEq

namespace RunFailure

/-- The message, then what caused it, each behind what it caused. -/
def chain : RunFailure → List String
  | .load path cause => s!"loading ROMs from '{path}'" :: cause.chain
  | .install cause => cause.chain
  | .fault _ => []

end RunFailure

namespace Launcher

/-- Run some frames, report their cycles and give the digest of the video RAM. -/
def runFrames (m : Machine) (frames : UInt64) : Reporting Fault (UInt64 × Machine) := do
  let run ← Reporting.ofExcept (m.runFrames frames.toNat)
  Reporting.tell run.notices.reverse
  let cycles ← Reporting.ofExcept (Machine.totalCycles run.reports)
  Reporting.tell [.framesRun frames cycles]
  return (Checksum.ofBlock run.machine.videoRam, run.machine)

/-- A machine with the program at a path. -/
def loadMachine (disk : Disk) (path : String) : Reporting RunFailure Machine := do
  Reporting.tell [.loadingRoms path]
  let roms ← (RomSet.ofPath disk path).mapError (.load path)
  let machine ← Reporting.ofExcept ((Machine.new roms {}).mapError .install)
  Reporting.tell [Machine.newNotice {}]
  return machine

/-- What a run prints. -/
def resultLine (frames checksum : UInt64) : String :=
  s!"{frames} frames, vram checksum {Hex.digits 16 checksum.toNat}\n"

/-- Run as the options say. There is no window to show it in, which is told unless none
was wanted. -/
def run (disk : Disk) (o : Options) : Reporting RunFailure String := do
  let machine ← loadMachine disk o.romPath
  if !o.headless then
    Reporting.tell [.noWindow]
  let (checksum, _) ← (runFrames machine o.frames).mapError .fault
  return resultLine o.frames checksum

/-! ### As a command -/

def usage : String :=
  "usage: arcade8080 <rom-dir-or-file> [--frames N] [--headless] [--overlay]\n\n" ++
  "  <rom-dir-or-file>  directory holding invaders.h/g/f/e, or one 8 KiB image\n" ++
  "  --frames N         frames to run in headless mode (default 600)\n" ++
  "  --headless         run without a window and print the video RAM checksum\n" ++
  "  --overlay          colour the screen like the cabinet's gel overlay"

/-- What a command leaves behind. -/
structure Result where
  exitCode : UInt32
  stdout : String
  stderr : String
  deriving Repr, DecidableEq

/-- A text indented line by line: the first by `first`, the others by `later`. -/
def indent (first later text : String) : String :=
  first ++ ("\n" ++ later).intercalate (text.splitToList (· == '\n'))

/-- The causes of a failure, one below the other, numbered if there are several. -/
def causes (chain : List String) : String :=
  match chain with
  | [] => ""
  | [cause] => "\n\nCaused by:\n" ++ indent "    " "    " cause
  | _ =>
    "\n\nCaused by:" ++ String.join (chain.zipIdx.map fun (cause, i) =>
      "\n" ++ indent ("".pushn ' ' (5 - (toString i).length) ++ toString i ++ ": ") "       " cause)

/-- The text of a failure and of all that caused it. -/
def failureText : List String → String
  | [] => "Error: \n"
  | message :: chain => "Error: " ++ message ++ causes chain ++ "\n"

/-- Every path the command may have to read. -/
def paths (args : List String) : List String :=
  match Options.ofArguments args with
  | .error _ => []
  | .ok options =>
    options.romPath :: Chip.all.map fun chip => Disk.join options.romPath chip.fileName

/-- The command: what it is called with, and what comes of it. -/
def command (disk : Disk) (args : List String) : Except Fault Result :=
  match Options.ofArguments args with
  | .error e => .ok ⟨1, "", e.message ++ "\n\n" ++ usage ++ "\n"⟩
  | .ok options =>
    match (run disk options).outcome with
    | .ok line => .ok ⟨0, line, ""⟩
    | .error (.fault fault) => .error fault
    | .error failure => .ok ⟨1, "", failureText failure.chain⟩

end Launcher
end Cabinet

import Cabinet.Launcher.Count
import Cabinet.Picture

/-! The command line.

One path, and any options in any order around it. The argument behind `--frames` is its
value, whatever it looks like. The first argument that is wrong, from the left, is the
error; a missing path is noticed last. -/
namespace Cabinet

structure Options where
  romPath : String
  /-- Frames to run without a window. -/
  frames : UInt64
  headless : Bool
  palette : Palette
  deriving Repr, DecidableEq

inductive ArgumentError where
  | missingFrames
  | badFrames (text : String) (cause : CountError)
  | unknownOption (text : String)
  | secondPath
  | noPath
  deriving Repr, DecidableEq

namespace ArgumentError

def message : ArgumentError → String
  | .missingFrames => "--frames needs a value"
  | .badFrames text _ => s!"invalid frame count '{text}'"
  | .unknownOption text => s!"unknown option '{text}'"
  | .secondPath => "more than one ROM path given"
  | .noPath => "no ROM path given"

/-- The message, then what caused it. -/
def chain (e : ArgumentError) : List String :=
  match e with
  | .badFrames _ cause => [e.message, cause.message]
  | _ => [e.message]

end ArgumentError

namespace Options

/-- Frames that are run if the command line does not say. -/
def defaultFrames : UInt64 := 600

/-! ### Reading the arguments -/

/-- What one option or path of a command line is; `frames` comes with its value, if one
follows it. -/
inductive Argument where
  | headless
  | overlay
  | frames (text : Option String)
  | single (text : String)
  deriving Repr, DecidableEq

namespace Argument

/-- The arguments a command line is made of, from the left. -/
def scan : List String → List Argument
  | [] => []
  | arg :: rest =>
    if arg = "--headless" then .headless :: scan rest
    else if arg = "--overlay" then .overlay :: scan rest
    else if arg = "--frames" then
      match rest with
      | [] => [.frames none]
      | value :: rest => .frames (some value) :: scan rest
    else .single arg :: scan rest

end Argument

/-- What the arguments read so far say. -/
structure Draft where
  romPath : Option String := none
  frames : UInt64 := defaultFrames
  headless : Bool := false
  palette : Palette := .monochrome
  deriving Repr, DecidableEq

namespace Draft

/-- One argument more. -/
def take (d : Draft) : Argument → Except ArgumentError Draft
  | .headless => .ok { d with headless := true }
  | .overlay => .ok { d with palette := .overlay }
  | .frames none => .error .missingFrames
  | .frames (some text) =>
    match Count.ofText text with
    | .error cause => .error (.badFrames text cause)
    | .ok frames => .ok { d with frames := frames }
  | .single text =>
    if text.startsWith "--" then .error (.unknownOption text)
    else if d.romPath.isSome then .error .secondPath
    else .ok { d with romPath := some text }

/-- Options, if a path was given. -/
def finish (d : Draft) : Except ArgumentError Options :=
  match d.romPath with
  | none => .error .noPath
  | some path =>
    .ok { romPath := path, frames := d.frames, headless := d.headless, palette := d.palette }

end Draft

/-- The options a command line gives. -/
def ofArguments (args : List String) : Except ArgumentError Options := do
  let draft ← (Argument.scan args).foldlM Draft.take {}
  draft.finish

end Options
end Cabinet

import Cabinet.Window
import Cabinet.Window.Application
import Cabinet.Window.KeyCode

/-! The window's event loop.

Each round first asks the application whether it wants to leave, then hands it the keys
among the events that have come in, then has it draw. The application leaves by saying
so or by the window being closed, which ends the round on the spot. Either way it is
stopped once and nothing is called after. -/
namespace Cabinet

/-- What the window system tells. -/
inductive Event where
  | keyDown (code : UInt32) (repeated : Bool)
  | keyUp (code : UInt32)
  /-- The window is closed. -/
  | quit
  | other
  deriving Repr, DecidableEq, Inhabited

namespace Event

/-- The key an event moves, and whether down. A key that is held repeats, and that is
not heard; nor is a code that names no key. -/
def key? (system : WindowSystem) : Event → Option (Key × Bool)
  | .keyDown code repeated => if repeated then none else (system.key? code).map (·, true)
  | .keyUp code => (system.key? code).map (·, false)
  | .quit | .other => none

end Event

/-- A call the loop makes; an update shows the buffer and the state it left. -/
inductive Call (σ : Type) where
  | started
  | asked (leaving : Bool)
  | key (key : Key) (down : Bool)
  | updated (buffer : ByteArray) (state : σ)
  | stopped

/-- The calls made so far and the state after them. -/
structure Trace (σ : Type) where
  calls : List (Call σ)
  state : σ

namespace Trace
variable {σ : Type}

/-- The trace behind some earlier calls. -/
def after (calls : List (Call σ)) (t : Trace σ) : Trace σ :=
  { t with calls := calls ++ t.calls }

end Trace

namespace Application
variable {σ : Type} (app : Application σ) (system : WindowSystem)

/-- Hand over the keys among some events, up to a quit; and whether there was one. -/
def deliver : List Event → σ → Trace σ × Bool
  | [], s => (⟨[], s⟩, false)
  | .quit :: _, s => (⟨[], s⟩, true)
  | event :: rest, s =>
    match event.key? system with
    | none => deliver rest s
    | some (key, down) =>
      let (t, quit) := deliver rest (app.key key down s)
      (t.after [.key key down], quit)

def leave (s : σ) : Trace σ :=
  ⟨[.stopped], app.stop s⟩

/-- The rounds, one for each batch of events, from a buffer and a state. After the last
batch the window is closed. -/
def rounds : List (List Event) → ByteArray → σ → Except Fault (Trace σ)
  | [], _, s =>
    let (leaving, s) := app.leaving s
    .ok ((app.leave s).after [.asked leaving])
  | events :: later, buffer, s =>
    let (leaving, s) := app.leaving s
    if leaving then .ok ((app.leave s).after [.asked true])
    else
      let (keys, quit) := app.deliver system events s
      let told := .asked false :: keys.calls
      if quit then .ok ((app.leave keys.state).after told)
      else do
        let (buffer, s) ← app.update buffer keys.state
        let rest ← rounds later buffer s
        return rest.after (told ++ [.updated buffer s])

/-- Open a window, all black, and show the application in it. -/
def runOn (w : WindowInfo) (batches : List (List Event)) (s : σ) :
    Except WindowFailure (Trace σ) := do
  let size ← w.bufferSize system
  let buffer := ByteArray.mk (Array.replicate size 0)
  let t ← (app.rounds system batches buffer (app.start s)).mapError .fault
  return t.after [.started]

end Application
end Cabinet

/-! What is behind the ports.

A device answers the input instruction and takes the output instruction, both with an
8-bit port number, over a state of its own. The processor is the same whatever device
it drives. -/
namespace Cabinet

structure Device (σ : Type) where
  /-- The byte read from a port, and the state after the read. -/
  input : UInt8 → σ → UInt8 × σ
  /-- The state after a byte is written to a port. -/
  output : UInt8 → UInt8 → σ → σ

namespace Device

/-- Nothing is connected: reads give zero, writes are lost. -/
def unconnected : Device Unit where
  input := fun _ s => (0, s)
  output := fun _ _ s => s

end Device

/-! ### Playing back -/

/-- Answers to give, over and over, and how many have been given. -/
structure Playback where
  answers : Array UInt8
  reads : Nat := 0
  deriving Repr, DecidableEq, Inhabited

namespace Playback

/-- The answer to the next read: zero if there are no answers at all. -/
def answer (p : Playback) : UInt8 :=
  (p.answers[p.reads % p.answers.size]?).getD 0

/-- Every port gives the next answer; writes are lost. -/
def device : Device Playback where
  input := fun _ p => (p.answer, { p with reads := p.reads + 1 })
  output := fun _ _ p => p

end Playback

/-! ### Recording -/

/-- One use of a port. -/
inductive PortCall where
  | input (port value : UInt8)
  | output (port value : UInt8)
  deriving Repr, DecidableEq

/-- A device's state and the calls it has had, latest first. -/
structure Recorded (σ : Type) where
  state : σ
  calls : List PortCall := []

/-- The same device, with every call kept. -/
def Device.recorded {σ : Type} (dev : Device σ) : Device (Recorded σ) where
  input := fun port r =>
    let (value, state) := dev.input port r.state
    (value, ⟨state, .input port value :: r.calls⟩)
  output := fun port v r => ⟨dev.output port v r.state, .output port v :: r.calls⟩

end Cabinet

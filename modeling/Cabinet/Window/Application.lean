import Cabinet.Counter
import Cabinet.Session.Key

/-! What can be shown in a window: a program over a state of its own, driven by calls. -/
namespace Cabinet

structure Application (σ : Type) where
  /-- Before anything else. -/
  start : σ → σ
  /-- Whether it wants to leave. -/
  leaving : σ → Bool × σ
  /-- A key goes down or comes up. -/
  key : Key → Bool → σ → σ
  /-- A frame's time has passed: the buffer is drawn anew. -/
  update : ByteArray → σ → Except Fault (ByteArray × σ)
  /-- After everything else. -/
  stop : σ → σ

namespace Application
variable {σ : Type}

/-- Does nothing and never leaves. -/
def idle : Application Unit where
  start := fun s => s
  leaving := fun s => (false, s)
  key := fun _ _ s => s
  update := fun buffer s => .ok (buffer, s)
  stop := fun s => s

/-- The same application, told from outside when to leave: at each question the next
answer of a list, or its own if that is no or the list is at its end. -/
def toldToLeave (app : Application σ) : Application (List Bool × σ) where
  start := fun (told, s) => (told, app.start s)
  leaving := fun (told, s) =>
    let (own, s) := app.leaving s
    (told.headD false || own, told.tail, s)
  key := fun key down (told, s) => (told, app.key key down s)
  update := fun buffer (told, s) => do
    let (buffer, s) ← app.update buffer s
    return (buffer, told, s)
  stop := fun (told, s) => (told, app.stop s)

end Application
end Cabinet

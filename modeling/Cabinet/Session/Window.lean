import Cabinet.Session
import Cabinet.Window.Desktop

/-! A session in a window: the application that runs it and the window it asks for.
What it tells its log is kept beside it, latest last. -/
namespace Cabinet.Session

/-- A session and what it has told. -/
structure Logged where
  session : Session
  notices : List Notice := []

namespace Logged

def tell (l : Logged) (notices : List Notice) : Logged :=
  { l with notices := l.notices ++ notices }

end Logged

def application : Application Logged where
  start := fun l => l.tell [openNotice]
  leaving := fun l => (l.session.leaving, l)
  key := fun key down l =>
    { l.tell (l.session.keyNotices key down) with session := l.session.key key down }
  update := fun buffer l => do
    let update ← l.session.update (← Picture.screenOfBytes buffer)
    return (update.screen.bytes, { l.tell update.notices with session := update.session })
  stop := fun l => l.tell [l.session.closeNotice]

def windowInfo : WindowInfo where
  width := UInt32.ofNat Picture.width
  height := UInt32.ofNat Picture.height
  scale := 3
  title := "Space Invaders 8080"

end Cabinet.Session

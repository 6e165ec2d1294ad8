import Cabinet.Machine.Frame
import Cabinet.Picture
import Cabinet.Session.Key

/-! Someone at the machine.

Keys move buttons; besides, one asks to leave and one pauses. While paused no frames
are run and a striped band lies over the top of the picture; any other key that goes
down ends the pause, and moves its button as well. -/
namespace Cabinet

@[ext] structure Session where
  machine : Machine
  palette : Palette
  leaving : Bool := false
  paused : Bool := false

namespace Session

/-! ### Keys -/

/-- The button a key stands for, moved. -/
def moveButton (s : Session) (key : Key) (down : Bool) : Session :=
  match key.button? with
  | some button => { s with machine := s.machine.setButton button down }
  | none => s

/-- A key goes down or comes up. -/
def key (s : Session) (key : Key) (down : Bool) : Session :=
  if down then
    match key with
    | .escape => { s with leaving := true }
    | .p => { s with paused := !s.paused }
    | _ => { s with paused := false }.moveButton key down
  else s.moveButton key down

/-- What is told of a key, before it is used. -/
def keyNotices (s : Session) (key : Key) (down : Bool) : List Notice :=
  if down && key == .p then [.pauseChanged !s.paused] else []

/-! ### The screen -/

/-- How high the band is that tells of a pause. -/
def bannerHeight : Nat := 12

/-- Even rows are white, odd ones black. -/
def bannerColor (y : Nat) : Color :=
  if y % 2 = 0 then .white else .black

/-- The band over the top of a screen. -/
def drawBanner (screen : Screen) : Except Fault Screen :=
  (List.range (bannerHeight * Picture.width)).foldlM
    (fun screen pixel => (bannerColor (pixel / Picture.width)).write screen pixel) screen

/-- A session after a frame's time has passed, and what it shows. -/
structure Update where
  session : Session
  screen : Screen
  notices : List Notice

/-- The machine after a frame's time. -/
def advance (s : Session) : Except Fault (Session × List Notice) :=
  if s.paused then .ok (s, [])
  else do
    let frame ← s.machine.runFrame
    return ({ s with machine := frame.machine }, frame.notices)

def update (s : Session) (screen : Screen) : Except Fault Update := do
  let (s, notices) ← s.advance
  let shown ← Picture.draw s.palette s.machine.videoRam screen
  let shown ← if s.paused then drawBanner shown else .ok shown
  return ⟨s, shown, notices⟩

/-! ### Beginning and end -/

def openNotice : Notice := .sessionOpened

def closeNotice (s : Session) : Notice :=
  .sessionClosed s.machine.frames

end Session
end Cabinet

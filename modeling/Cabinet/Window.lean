import Cabinet.Counter
import Cabinet.Notice

/-! The window a program is shown in.

A window has a size in pixels of the picture and a scale, and shows the picture from a
buffer of three bytes a pixel. Opening one fails if a size does not fit 32 bits or if the
window system will not have it: what that system makes of titles, sizes and key codes is a
matter of its own. -/
namespace Cabinet

/-- How a pixel is laid out in the buffer: red, green and blue, a byte each. -/
inductive PixelFormat where
  | rgb24
  deriving Repr, DecidableEq, Inhabited

namespace PixelFormat

/-- Bytes in a pixel. -/
def size : PixelFormat → UInt32
  | .rgb24 => 3

end PixelFormat

/-- What a window is opened with. -/
structure WindowInfo where
  width : UInt32
  height : UInt32
  scale : UInt32
  title : String
  pixelFormat : PixelFormat := .rgb24
  /-- Updates in a second, at most. -/
  frameRate : UInt32 := 60
  deriving Repr, DecidableEq

/-- Why there is no window. -/
inductive WindowFailure where
  | fault (fault : Fault)
  /-- The title holds a character that ends a text for the window system. -/
  | badTitle
  /-- More pixels on a side than the window system has. -/
  | tooLarge
  /-- No pixel at all, or more than the window system can lay out. -/
  | badPicture
  deriving Repr, DecidableEq

/-- What is behind windows and keyboard. -/
structure WindowSystem where
  /-- Makes a window with a title, so many pixels wide and high on the screen. -/
  openWindow : String → UInt32 → UInt32 → Except WindowFailure Unit
  /-- Lays out a picture of a width and a height for it. -/
  layOut : PixelFormat → UInt32 → UInt32 → Except WindowFailure Unit
  /-- Whether a code names a key. -/
  named : UInt32 → Bool

namespace WindowInfo

/-- The length of the buffer behind an opened window. Sizes on the screen are found
first, then the window is asked for, then the buffer is laid out. -/
def bufferSize (w : WindowInfo) (system : WindowSystem) : Except WindowFailure Nat := do
  let outerWidth ← (Counter.mul32 .windowSize w.width w.scale).mapError .fault
  let outerHeight ← (Counter.mul32 .windowSize w.height w.scale).mapError .fault
  system.openWindow w.title outerWidth outerHeight
  system.layOut w.pixelFormat w.width w.height
  let row ← (Counter.mul32 .windowSize w.width w.pixelFormat.size).mapError .fault
  let size ← (Counter.mul32 .windowSize row w.height).mapError .fault
  return size.toNat

/-- What is told of an opened window. -/
def openNotice (w : WindowInfo) : Notice :=
  .windowOpened w.title w.width w.height w.scale w.frameRate

end WindowInfo
end Cabinet

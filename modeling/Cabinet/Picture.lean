import Cabinet.Counter
import Cabinet.Memory

/-! The picture in video RAM.

The monitor stands on its side. A byte holds eight pixels one above the other, the
lowest in bit 0; thirty-two bytes make a column, from the bottom up, and the columns
follow from left to right. The screen is 224 pixels wide and 256 high, three bytes a
pixel, its first row on top. The tube is black and white; strips of coloured film on
it tint two bands of the picture. -/
namespace Cabinet

@[ext] structure Color where
  red : UInt8
  green : UInt8
  blue : UInt8
  deriving Repr, DecidableEq, Inhabited

namespace Color

def black : Color := ⟨0, 0, 0⟩

def white : Color := ⟨255, 255, 255⟩

def pureRed : Color := ⟨255, 0, 0⟩

def pureGreen : Color := ⟨0, 255, 0⟩

/-- The colour at a pixel of a buffer, three bytes a pixel. -/
def write {n : Nat} (c : Color) (buffer : Block n) (pixel : Nat) : Except Fault (Block n) :=
  if h : pixel * 3 + 2 < n then
    .ok (((buffer.set (pixel * 3) c.red (by omega)).set (pixel * 3 + 1) c.green (by omega)).set
      (pixel * 3 + 2) c.blue h)
  else .error .outsidePicture

end Color

/-- The film in front of the tube. -/
inductive Palette where
  | monochrome
  | overlay
  deriving Repr, DecidableEq, Inhabited

namespace Palette

/-- The colour of a lit pixel, by its height above the bottom. -/
def lit (p : Palette) (height : Nat) : Color :=
  match p with
  | .monochrome => .white
  | .overlay =>
    if 200 < height ∧ height < 220 then .pureRed
    else if height < 80 then .pureGreen
    else .white

end Palette

/-- What is shown: 224 by 256 pixels of three bytes. -/
abbrev Screen := Block 172032

namespace Picture

def width : Nat := 224

def height : Nat := 256

/-- The column, and the row from the top, of a bit of a byte of the picture. -/
def place (index : UInt64) (bit : UInt8) : Except Fault (Nat × Nat) :=
  let first := index.toNat * 8
  let above := first % 256 + bit.toNat
  if UInt64.size ≤ first ∨ 255 < above then .error .outsidePicture
  else .ok (first / 256, 255 - above)

/-- One pixel, from one bit of the byte at `index`. -/
def drawBit (palette : Palette) (index : Nat) (v : UInt8) (screen : Screen) (bit : Nat) :
    Except Fault Screen := do
  let (x, y) ← place (UInt64.ofNat index) (UInt8.ofNat bit)
  let color := if v.toNat.testBit bit then palette.lit (index * 8 % 256 + bit) else .black
  color.write screen (y * width + x)

/-- Eight pixels, from the lowest bit up. -/
def drawByte (palette : Palette) (index : Nat) (v : UInt8) (screen : Screen) :
    Except Fault Screen :=
  (List.range 8).foldlM (drawBit palette index v) screen

/-- The bytes from `index` on. -/
def drawFrom (palette : Palette) (index : Nat) : List UInt8 → Screen → Except Fault Screen
  | [], screen => .ok screen
  | v :: rest, screen => do
    let screen ← drawByte palette index v screen
    drawFrom palette (index + 1) rest screen

/-- The picture, drawn over whatever the screen showed. -/
def draw (palette : Palette) (video : VideoRam) (screen : Screen) : Except Fault Screen :=
  drawFrom palette 0 video.toList screen

/-- The screen these bytes are. -/
def screenOfBytes (bytes : ByteArray) : Except Fault Screen :=
  match Block.ofBytes? 172032 bytes with
  | some screen => .ok screen
  | none => .error .outsidePicture

/-- The screen of `length` bytes that are all `v`. -/
def screenFilled (length : Nat) (v : UInt8) : Except Fault Screen :=
  if length = 172032 then .ok (Block.replicate 172032 v) else .error .outsidePicture

/-- The video RAM these bytes are. -/
def videoRamOfBytes (bytes : ByteArray) : Except Fault VideoRam :=
  match Block.ofBytes? 7168 bytes with
  | some video => .ok video
  | none => .error .outsidePicture

end Picture
end Cabinet

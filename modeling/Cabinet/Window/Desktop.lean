import Cabinet.Window.Loop

/-! The window system of a desktop.

It takes a title without the character that ends a text, makes windows of at most 16384 pixels
on a side, and lays out a picture that has pixels and takes less than 2³¹ bytes. The keys it
names are those that write a character, and of the table of keyboard usages the lock keys, the
function keys, the number pad and the keys on to the media keys. -/
namespace Cabinet

/-! ### Keys -/

namespace KeyCode

/-- Characters that name a key, as first and last of each run: backspace and tab,
return, escape, space to at sign, opening bracket to z, delete. -/
def characters : List (UInt32 × UInt32) :=
  [(8, 9), (13, 13), (27, 27), (32, 64), (91, 122), (127, 127)]

/-- Usages that name a key, as first and last of each run: caps lock to page up; end to
the point of the number pad; menu to lower volume; comma and equals of larger number
pads; erase to the selection keys; the other keys of larger number pads; the modifiers;
mode switch to sleep. -/
def usages : List (UInt32 × UInt32) :=
  [(57, 75), (77, 99), (101, 129), (133, 134), (153, 164), (176, 221), (224, 231), (257, 282)]

/-- Whether `n` lies in one of some runs. -/
def within (runs : List (UInt32 × UInt32)) (n : UInt32) : Bool :=
  runs.any fun (first, last) => first ≤ n && n ≤ last

/-- The code of the first usage; below it are the characters. -/
def usageBase : UInt32 := 0x40000000

/-- Whether a code names a key. -/
def named (code : UInt32) : Bool :=
  if code < usageBase then within characters code else within usages (code - usageBase)

end KeyCode

/-- Every key that means something is named. -/
theorem Key.named_of_mem_codes : ∀ entry ∈ codes, KeyCode.named entry.1 = true := by
  decide

/-! ### Windows -/

namespace WindowSystem

/-- The largest side of a window. -/
def largestSide : UInt32 := 16384

/-- The memory that a picture takes: four bytes a pixel. -/
def pictureMemory (width height : UInt32) : Nat :=
  width.toNat * height.toNat * 4

def desktop : WindowSystem where
  openWindow := fun title width height =>
    if title.contains '\x00' then .error .badTitle
    else if largestSide < width ∨ largestSide < height then .error .tooLarge
    else .ok ()
  layOut := fun _ width height =>
    if 0 < pictureMemory width height ∧ pictureMemory width height < 0x80000000 then .ok ()
    else .error .badPicture
  named := KeyCode.named

end WindowSystem

/-- The key that a code stands for, if it names a key of the desktop. -/
def Key.ofCode? (code : UInt32) : Option Key :=
  WindowSystem.desktop.key? code

/-- Show the application in a window of the desktop. -/
def Application.run {σ : Type} (app : Application σ) (w : WindowInfo)
    (batches : List (List Event)) (s : σ) : Except WindowFailure (Trace σ) :=
  app.runOn .desktop w batches s

end Cabinet

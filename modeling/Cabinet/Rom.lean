import Cabinet.Memory.Image
import Cabinet.Reporting

/-! The program: four ROM chips of two kilobytes.

A set of images is complete by its type. It can be had from four byte strings, from one
that holds all four one after the other, or from a disk, and every way checks lengths
in the order of the chips. -/
namespace Cabinet

/-- The content of one chip. -/
abbrev ChipImage := Block 2048

inductive Chip where
  | h | g | f | e
  deriving Repr, DecidableEq, Inhabited

namespace Chip

/-- The chips by address. -/
def all : List Chip := [.h, .g, .f, .e]

def fileName : Chip → String
  | .h => "invaders.h"
  | .g => "invaders.g"
  | .f => "invaders.f"
  | .e => "invaders.e"

/-- Where the chip begins in memory. -/
def base : Chip → UInt16
  | .h => 0x0000
  | .g => 0x0800
  | .f => 0x1000
  | .e => 0x1800

end Chip

@[ext] structure RomSet where
  h : ChipImage
  g : ChipImage
  f : ChipImage
  e : ChipImage

namespace RomSet

def image (r : RomSet) : Chip → ChipImage
  | .h => r.h
  | .g => r.g
  | .f => r.f
  | .e => r.e

/-- The length of one image. -/
def imageSize : Nat := 2048

/-- The length of all four together. -/
def combinedSize : Nat := 8192

/-! ### From bytes -/

/-- The bytes as a block, if they have its length. -/
def sized (name : String) (n : Nat) (bytes : ByteArray) : Except LoadError (Block n) :=
  match Block.ofBytes? n bytes with
  | some b => .ok b
  | none => .error (.wrongSize name n bytes.size)

def chipImage (chip : Chip) (bytes : ByteArray) : Except LoadError ChipImage :=
  sized chip.fileName imageSize bytes

def ofImages (h g f e : ByteArray) : Except LoadError RomSet := do
  let h ← chipImage .h h
  let g ← chipImage .g g
  let f ← chipImage .f f
  let e ← chipImage .e e
  return ⟨h, g, f, e⟩

/-- The images cut from one string of all four. -/
def ofCombined (bytes : ByteArray) : Except LoadError RomSet := do
  let all ← sized "combined image" combinedSize bytes
  return {
    h := all.slice 0 2048 (by decide)
    g := all.slice 2048 2048 (by decide)
    f := all.slice 4096 2048 (by decide)
    e := all.slice 6144 2048 (by decide) }

/-! ### From a disk -/

def readChip (disk : Disk) (dir : String) (chip : Chip) : Reporting LoadError ChipImage := do
  let path := Disk.join dir chip.fileName
  let bytes ← Reporting.ofExcept ((disk.read path).mapError (.missing chip.fileName path))
  let image ← Reporting.ofExcept (chipImage chip bytes)
  Reporting.tell [.imageRead path bytes.size]
  return image

/-- The images in a directory, each in a file of its chip's name. -/
def ofDirectory (disk : Disk) (dir : String) : Reporting LoadError RomSet := do
  let h ← readChip disk dir .h
  let g ← readChip disk dir .g
  let f ← readChip disk dir .f
  let e ← readChip disk dir .e
  return ⟨h, g, f, e⟩

/-- A directory of images, or one file that holds them all. -/
def ofPath (disk : Disk) (path : String) : Reporting LoadError RomSet :=
  if disk.isDirectory path then ofDirectory disk path
  else do
    let bytes ← Reporting.ofExcept ((disk.read path).mapError (.missing path path))
    Reporting.ofExcept (ofCombined bytes)

/-! ### Into memory -/

/-- Every image at its chip's address. -/
def install (r : RomSet) (m : Memory) : Except LoadError Memory :=
  Chip.all.foldlM
    (fun m chip => m.loadImage chip.fileName chip.base (r.image chip).bytes imageSize) m

end RomSet
end Cabinet

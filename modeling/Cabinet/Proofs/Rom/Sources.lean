import Cabinet.Proofs.Rom.Install

/-! Where the chips come from.

A set of images is the same whether it comes as four byte strings, as one, from a directory or
from a file (`ofImages_bytes`, `ofCombined_eq`, `ofPath_eq_ok_iff`), and loaded it lies
in memory as the one string. A load from a disk fails just if something is wrong with a file,
and the error tells of the first such, in the order of the chips (`ofPath_eq_error_iff`). -/
namespace Cabinet

/-! ### All four in one -/

namespace Block
variable {n k : Nat}

/-- One block and another behind it. -/
def append (a : Block n) (b : Block k) : Block (n + k) :=
  ⟨a.bytes ++ b.bytes, by rw [ByteArray.size_append, a.size_bytes, b.size_bytes]⟩

theorem get_append_left (a : Block n) (b : Block k) {i : Nat} (h : i < n) :
    (a.append b).get i (Nat.lt_add_right k h) = a.get i h :=
  ByteArray.getElem_append_left (a.size_bytes.symm ▸ h)

theorem get_append_right (a : Block n) (b : Block k) {i : Nat} (h : i < k) :
    (a.append b).get (n + i) (Nat.add_lt_add_left h n) = b.get i h := by
  obtain ⟨a, rfl⟩ := a
  refine (ByteArray.getElem_append_right (Nat.le_add_right ..)).trans ?_
  simp only [Nat.add_sub_cancel_left]
  rfl

end Block

theorem Chip.base_add_lt (chip : Chip) {i : Nat} (h : i < 2048) : chip.base.toNat + i < 8192 := by
  cases chip <;> simp only [Chip.base, UInt16.reduceToNat] <;> omega

/-- Every place in the four images belongs to one of the chips. -/
theorem Chip.exists_base_add {n : Nat} (h : n < 8192) :
    ∃ (chip : Chip) (i : Nat), i < 2048 ∧ n = chip.base.toNat + i := by
  rcases Nat.lt_or_ge n 2048 with low | high
  · exact ⟨.h, n, low, (Nat.zero_add n).symm⟩
  rcases Nat.lt_or_ge n 4096 with low | high
  · exact ⟨.g, n - 2048, by omega, show n = 2048 + _ by omega⟩
  rcases Nat.lt_or_ge n 6144 with low | high
  · exact ⟨.f, n - 4096, by omega, show n = 4096 + _ by omega⟩
  · exact ⟨.e, n - 6144, by omega, show n = 6144 + _ by omega⟩

namespace RomSet
variable (r : RomSet)

/-- The images one after the other. -/
def combined : Block 8192 :=
  ((r.h.append r.g).append r.f).append r.e

theorem get_combined (chip : Chip) {i : Nat} (h : i < 2048) :
    r.combined.get (chip.base.toNat + i) (chip.base_add_lt h) = (r.image chip).get i h := by
  cases chip with
  | h =>
    have first : Chip.h.base.toNat + i = i := Nat.zero_add i
    simp only [first]
    exact (Block.get_append_left _ r.e (by omega)).trans <|
      (Block.get_append_left _ r.f (by omega)).trans (Block.get_append_left r.h r.g h)
  | g =>
    exact (Block.get_append_left _ r.e (show 2048 + i < 6144 by omega)).trans <|
      (Block.get_append_left _ r.f (show 2048 + i < 4096 by omega)).trans (Block.get_append_right r.h r.g h)
  | f =>
    exact (Block.get_append_left _ r.e (show 4096 + i < 6144 by omega)).trans
      (Block.get_append_right _ r.f h)
  | e => exact Block.get_append_right _ r.e h

/-- Where the images lie in a block, that block is all of them together. -/
theorem eq_combined {all : Block 8192}
    (h : ∀ (chip : Chip) (i : Nat) (hi : i < 2048),
      all.get (chip.base.toNat + i) (chip.base_add_lt hi) = (r.image chip).get i hi) :
    all = r.combined := by
  apply Block.ext
  intro n hn
  obtain ⟨chip, i, hi, rfl⟩ := Chip.exists_base_add hn
  exact (h chip i hi).trans (r.get_combined chip hi).symm

/-- The images that a block of the length of all four is cut into. -/
def cut (all : Block 8192) : RomSet where
  h := all.slice 0 2048 (by decide)
  g := all.slice 2048 2048 (by decide)
  f := all.slice 4096 2048 (by decide)
  e := all.slice 6144 2048 (by decide)

theorem get_cut (all : Block 8192) (chip : Chip) {i : Nat} (h : i < 2048) :
    ((cut all).image chip).get i h = all.get (chip.base.toNat + i) (chip.base_add_lt h) := by
  cases chip <;> exact Block.get_slice all _ _ (by decide) i h

theorem ext_image {r r' : RomSet} (h : ∀ chip, r.image chip = r'.image chip) : r = r' :=
  RomSet.ext (h .h) (h .g) (h .f) (h .e)

theorem combined_cut (all : Block 8192) : (cut all).combined = all :=
  (eq_combined _ fun chip _ hi => (get_cut all chip hi).symm).symm

theorem cut_combined : cut r.combined = r := by
  refine ext_image fun chip => Block.ext fun i hi => ?_
  rw [get_cut, get_combined]

theorem cut_eq_iff {all : Block 8192} : cut all = r ↔ all = r.combined :=
  ⟨fun h => h ▸ (combined_cut all).symm, fun h => h ▸ r.cut_combined⟩

theorem sized_eq_ok_iff {name : String} {n : Nat} {bytes : ByteArray} {b : Block n} :
    sized name n bytes = .ok b ↔ bytes = b.bytes := by
  constructor
  · unfold sized
    split
    case h_1 b' found =>
      rintro made
      cases made
      exact (Block.ofBytes?_eq_some_iff.mp found).symm
    case h_2 => nofun
  · rintro rfl
    exact sized_bytes name b

theorem ofCombined_eq (bytes : ByteArray) :
    ofCombined bytes = cut <$> sized "combined image" combinedSize bytes := by
  unfold ofCombined
  cases sized "combined image" combinedSize bytes <;> rfl

/-- In memory the images lie one after the other, from the first cell on. -/
theorem read_installed_eq (m : Memory) (a : UInt16) :
    (r.installed m).read a =
      if inside : a.toNat < 8192 then r.combined.get a.toNat inside else m.read a := by
  split
  case isTrue inside =>
    obtain ⟨chip, i, hi, place⟩ := Chip.exists_base_add inside
    simp only [place]
    exact (r.read_installed m hi place).trans (r.get_combined chip hi).symm
  case isFalse outside => exact r.read_installed_of_le m (Nat.le_of_not_lt outside)

end RomSet

/-! ### Files -/

namespace Disk
variable (disk : Disk)

/-- The block that a file holds. -/
def fetch (path asked named : String) (n : Nat) : Except LoadError (Block n) := do
  let bytes ← (disk.read path).mapError (.missing asked path)
  RomSet.sized named n bytes

variable {disk} {path asked named : String} {n : Nat} {e : LoadError}

theorem fetch_eq_ok_iff {b : Block n} :
    disk.fetch path asked named n = .ok b ↔ disk.read path = .ok b.bytes := by
  unfold fetch
  cases disk.read path with
  | error cause => exact iff_of_false nofun nofun
  | ok bytes => exact RomSet.sized_eq_ok_iff.trans (by rw [Except.ok.injEq])

end Disk

/-- The chips at lower addresses. -/
def Chip.before (chip : Chip) : List Chip :=
  Chip.all.takeWhile (· ≠ chip)

namespace Disk
variable (disk : Disk)

/-- There is a directory with each image in the file of its chip. -/
structure InDirectory (path : String) (r : RomSet) : Prop where
  directory : disk.isDirectory path = true
  files : ∀ chip : Chip, disk.read (join path chip.fileName) = .ok (r.image chip).bytes

/-- There is a file with the images one after the other. -/
structure InFile (path : String) (r : RomSet) : Prop where
  plain : disk.isDirectory path = false
  content : disk.read path = .ok (r.h.bytes ++ r.g.bytes ++ r.f.bytes ++ r.e.bytes)

/-- These are the images there. -/
def Holds (path : String) (r : RomSet) : Prop :=
  disk.InDirectory path r ∨ disk.InFile path r

end Disk

/-! ### Chip by chip -/

namespace RomSet
variable {image : Chip → Except LoadError ChipImage} {r : RomSet} {e : LoadError}

/-- An image for every chip, in their order. -/
def gather (image : Chip → Except LoadError ChipImage) : Except LoadError RomSet := do
  let h ← image .h
  let g ← image .g
  let f ← image .f
  let e ← image .e
  return ⟨h, g, f, e⟩

theorem gather_eq_ok_iff : gather image = .ok r ↔ ∀ chip, image chip = .ok (r.image chip) := by
  constructor
  · intro made
    obtain ⟨h, first, made⟩ := bind_eq_ok.mp made
    obtain ⟨g, second, made⟩ := bind_eq_ok.mp made
    obtain ⟨f, third, made⟩ := bind_eq_ok.mp made
    obtain ⟨e, fourth, made⟩ := bind_eq_ok.mp made
    cases made
    intro chip
    cases chip with
    | h => exact first
    | g => exact second
    | f => exact third
    | e => exact fourth
  · intro all
    rw [gather, all .h, all .g, all .f, all .e]
    rfl

end RomSet

/-! ### Directories and files -/

namespace RomSet
variable {disk : Disk} {path : String} {r : RomSet} {e : LoadError}

/-- The file of a chip. -/
def chipFile (disk : Disk) (dir : String) (chip : Chip) : Except LoadError ChipImage :=
  disk.fetch (Disk.join dir chip.fileName) chip.fileName chip.fileName 2048

theorem outcome_readChip (disk : Disk) (dir : String) (chip : Chip) :
    (readChip disk dir chip).outcome = chipFile disk dir chip := by
  simp only [readChip, Reporting.outcome_bind, Reporting.outcome_ofExcept, Reporting.outcome_tell,
    Reporting.outcome_pure, chipFile, Disk.fetch]
  cases disk.read (Disk.join dir chip.fileName) with
  | error cause => rfl
  | ok bytes =>
    show (chipImage chip bytes >>= _) = chipImage chip bytes
    cases chipImage chip bytes <;> rfl

theorem outcome_ofDirectory (disk : Disk) (dir : String) :
    (ofDirectory disk dir).outcome = gather (chipFile disk dir) := by
  simp only [ofDirectory, Reporting.outcome_bind, outcome_readChip, Reporting.outcome_pure]
  rfl

theorem ofDirectory_eq_ok_iff :
    (ofDirectory disk path).outcome = .ok r ↔
      ∀ chip : Chip, disk.read (Disk.join path chip.fileName) = .ok (r.image chip).bytes := by
  rw [outcome_ofDirectory, gather_eq_ok_iff]
  exact forall_congr' fun _ => Disk.fetch_eq_ok_iff

theorem outcome_ofPath_of_directory (h : disk.isDirectory path = true) :
    (ofPath disk path).outcome = (ofDirectory disk path).outcome := by
  rw [ofPath, if_pos h]

theorem outcome_ofPath_of_file (h : disk.isDirectory path = false) :
    (ofPath disk path).outcome = cut <$> disk.fetch path path "combined image" 8192 := by
  simp only [ofPath, h, Bool.false_eq_true, if_false, Reporting.outcome_bind,
    Reporting.outcome_ofExcept, ofCombined_eq, Disk.fetch]
  cases disk.read path <;> rfl

theorem ofPath_eq_ok_iff : (ofPath disk path).outcome = .ok r ↔ disk.Holds path r := by
  cases kind : disk.isDirectory path with
  | true =>
    rw [outcome_ofPath_of_directory kind, ofDirectory_eq_ok_iff]
    constructor
    · exact fun files => .inl ⟨kind, files⟩
    · rintro (⟨_, files⟩ | ⟨plain, _⟩)
      · exact files
      · rw [kind] at plain
        cases plain
  | false =>
    rw [outcome_ofPath_of_file kind, map_eq_ok]
    simp only [cut_eq_iff, exists_eq_right, Disk.fetch_eq_ok_iff]
    constructor
    · exact fun content => .inr ⟨kind, content⟩
    · rintro (⟨directory, _⟩ | ⟨_, content⟩)
      · rw [kind] at directory
        cases directory
      · exact content

end RomSet

end Cabinet

import Cabinet.Rom

/-! Installing the chips.

A set of images has the right lengths by its type, and every chip ends inside the memory,
so neither check of the load can fail: installing is to write the four images, each from
its chip's address on. -/
namespace Cabinet

namespace Memory

/-- Bytes written from `a` on are found there in their order, if they do not come around to
where they began; the other cells are as they were. -/
theorem read_writeAll (m : Memory) (a b : UInt16) {bytes : List UInt8}
    (fits : bytes.length ≤ 65536) :
    (m.writeAll a bytes).read b = bytes.getD (b - a).toNat (m.read b) := by
  induction bytes generalizing m a with
  | nil => rfl
  | cons v rest ih =>
    rw [List.length_cons] at fits
    rw [writeAll, ih _ _ (by omega), read_write]
    by_cases here : a = b
    · subst here
      have around : rest.length ≤ (a - (a + 1)).toNat := by
        have : a - (a + 1) = 65535 := by grind
        rw [this]
        show _ ≤ 65535
        omega
      rw [if_pos rfl, List.getD_eq_getElem?_getD, List.getElem?_eq_none around, UInt16.sub_self]
      rfl
    · have next : (b - a).toNat = (b - (a + 1)).toNat + 1 := by
        have := a.toNat_lt
        have := b.toNat_lt
        have : a.toNat ≠ b.toNat := fun e => here (UInt16.toNat_inj.mp e)
        simp only [UInt16.toNat_sub, UInt16.toNat_add, UInt16.reduceToNat]
        omega
      rw [if_neg here, next, List.getD_cons_succ]

end Memory

theorem Chip.base_add_imageSize_le (chip : Chip) :
    chip.base.toNat + RomSet.imageSize ≤ 65536 := by
  cases chip <;> decide

namespace RomSet
variable (r : RomSet) (m : Memory)

theorem loadImage_eq (chip : Chip) :
    m.loadImage chip.fileName chip.base (r.image chip).bytes imageSize =
      .ok (m.writeAll chip.base (r.image chip).toList) := by
  have length : (r.image chip).bytes.size = imageSize := (r.image chip).size_bytes
  unfold Memory.loadImage
  rw [if_neg (not_not_intro length), if_neg (Nat.not_lt.mpr chip.base_add_imageSize_le)]
  rfl

/-- The memory with every image at its chip's address. -/
def installed : Memory :=
  Chip.all.foldl (fun m chip => m.writeAll chip.base (r.image chip).toList) m

theorem install_eq : r.install m = .ok (r.installed m) := by
  unfold install installed
  simp only [loadImage_eq]
  exact List.foldlM_pure ..

/-- Bytes of the right length are the block they make. -/
theorem sized_bytes (name : String) {n : Nat} (b : Block n) : sized name n b.bytes = .ok b := by
  unfold sized
  rw [Block.ofBytes?_eq_some_iff.mpr rfl]

theorem ofImages_bytes : ofImages r.h.bytes r.g.bytes r.f.bytes r.e.bytes = .ok r := by
  have h : chipImage .h r.h.bytes = .ok r.h := sized_bytes _ r.h
  have g : chipImage .g r.g.bytes = .ok r.g := sized_bytes _ r.g
  have f : chipImage .f r.f.bytes = .ok r.f := sized_bytes _ r.f
  have e : chipImage .e r.e.bytes = .ok r.e := sized_bytes _ r.e
  rw [ofImages, h, g, f, e]
  rfl

/-! ### What is in memory then -/

theorem read_writeImage (chip : Chip) (a : UInt16) :
    (m.writeAll chip.base (r.image chip).toList).read a =
      if inside : (a - chip.base).toNat < 2048 then (r.image chip).get _ inside else m.read a := by
  have length : (r.image chip).toList.length = 2048 := (r.image chip).length_toList
  rw [Memory.read_writeAll _ _ _ (by omega), List.getD_eq_getElem?_getD]
  split
  case isTrue inside =>
    rw [List.getElem?_eq_getElem (by omega), Block.getElem_toList]
    rfl
  case isFalse outside =>
    rw [List.getElem?_eq_none (by omega)]
    rfl

/-- A cell below the end of the last chip holds the byte of the chip it belongs to. -/
theorem read_installed {a : UInt16} {chip : Chip} {i : Nat} (inside : i < 2048)
    (place : a.toNat = chip.base.toNat + i) :
    (r.installed m).read a = (r.image chip).get i inside := by
  have := a.toNat_lt
  have offset : (a - chip.base).toNat = i := by
    cases chip <;> simp only [Chip.base, UInt16.toNat_sub, UInt16.reduceToNat] at * <;> omega
  have others : ∀ c : Chip, c ≠ chip → ¬(a - c.base).toNat < 2048 := by
    intro c hc
    cases c <;> cases chip <;> first
      | exact absurd rfl hc
      | (simp only [Chip.base, UInt16.toNat_sub, UInt16.reduceToNat] at *; omega)
  subst offset
  simp only [installed, Chip.all, List.foldl_cons, List.foldl_nil, read_writeImage]
  cases chip with
  | h => rw [dif_neg (others .e (by decide)), dif_neg (others .f (by decide)), dif_neg (others .g (by decide)),
      dif_pos inside]
  | g => rw [dif_neg (others .e (by decide)), dif_neg (others .f (by decide)), dif_pos inside]
  | f => rw [dif_neg (others .e (by decide)), dif_pos inside]
  | e => rw [dif_pos inside]

/-- A cell of the first chip holds its byte of the program there. -/
theorem read_installed_first (cell : Nat → UInt8) (first : r.h = .ofFn fun i => cell i.val)
    {a : UInt16} (inside : a.toNat < 2048) : (r.installed m).read a = cell a.toNat := by
  have place : a.toNat = Chip.h.base.toNat + a.toNat := (Nat.zero_add _).symm
  rw [read_installed _ _ inside place, image, first]
  exact Block.get_ofFn ..

/-- The cells behind the last chip are as they were. -/
theorem read_installed_of_le {a : UInt16} (beyond : 8192 ≤ a.toNat) :
    (r.installed m).read a = m.read a := by
  have outside : ∀ chip : Chip, ¬(a - chip.base).toNat < 2048 := by
    intro chip
    have := a.toNat_lt
    cases chip <;> simp only [Chip.base, UInt16.toNat_sub, UInt16.reduceToNat] <;> omega
  simp only [installed, Chip.all, List.foldl_cons, List.foldl_nil, read_writeImage, outside,
    dif_neg, not_false_eq_true]

end RomSet
end Cabinet

import Cabinet.Proofs.Launcher.Run

/-! The way of the images from where they are given into memory.

Four byte strings, one of all, a directory of four files and a file of all are the same images
(`RomSet`, in `Cabinet.Proofs.Rom.Sources`), a machine comes up with whatever images there are,
and a run of the launcher can not tell a directory from a file (`images_intact`). -/
namespace Cabinet

namespace RomSet
variable (r : RomSet)

theorem ofCombined_combined : ofCombined r.combined.bytes = .ok r := by
  have all : sized "combined image" combinedSize r.combined.bytes = .ok r.combined :=
    sized_bytes _ r.combined
  rw [ofCombined_eq, all]
  exact congrArg Except.ok r.cut_combined

/-- Installed, the images are in memory byte by byte, and nothing else there has changed. -/
theorem install_intact (m : Memory) :
    ∃ m', r.install m = .ok m' ∧
      (∀ (i : Nat) (h : i < 8192), m'.read (.ofNat i) = r.combined.get i h) ∧
      ∀ a : UInt16, 8192 ≤ a.toNat → m'.read a = m.read a := by
  refine ⟨r.installed m, r.install_eq m, fun i h => ?_, fun _ => r.read_installed_of_le m⟩
  have place : (UInt16.ofNat i).toNat = i := UInt16.toNat_ofNat_of_lt' (Nat.lt_trans h (by decide))
  simp only [read_installed_eq, place, h, dif_pos]

end RomSet

namespace Launcher

/-- What is printed depends on the images, not on where they come from. -/
theorem outcome_run_congr {disk disk' : Disk} {o o' : Options} {roms : RomSet}
    (held : disk.Holds o.romPath roms) (held' : disk'.Holds o'.romPath roms)
    (frames : o'.frames = o.frames) : (run disk' o').outcome = (run disk o).outcome := by
  rw [outcome_run, outcome_run, RomSet.ofPath_eq_ok_iff.mpr held, RomSet.ofPath_eq_ok_iff.mpr held',
    frames]
  rfl

/-- **The images reach memory as they are**, whichever way they are given: four byte strings
of the length of a chip, these one after the other, a directory with a file of each and a file
of all are the same images. In every memory these fill the first 8192 cells, byte by byte, and
leave the others. There is a machine for whatever images are given, and below 2^48 frames a
run prints the same line for a directory and for a file. -/
theorem images_intact (r : RomSet) :
    let all := r.h.bytes ++ r.g.bytes ++ r.f.bytes ++ r.e.bytes
    RomSet.ofImages r.h.bytes r.g.bytes r.f.bytes r.e.bytes = .ok r ∧
      RomSet.ofCombined all = .ok r ∧
      (∀ disk : Disk, ∀ path, disk.InDirectory path r →
        (RomSet.ofDirectory disk path).outcome = .ok r ∧ (RomSet.ofPath disk path).outcome = .ok r) ∧
      (∀ disk : Disk, ∀ path, disk.InFile path r → (RomSet.ofPath disk path).outcome = .ok r) ∧
      (∀ m : Memory, ∃ m', r.install m = .ok m' ∧ all.size = 8192 ∧
        (∀ (i : Nat) (_ : i < all.size), m'.read (.ofNat i) = all[i]) ∧
        ∀ a : UInt16, 8192 ≤ a.toNat → m'.read a = m.read a) ∧
      (∀ config, ∃ machine, Machine.new r config = .ok machine) ∧
      ∀ (disk disk' : Disk) (o o' : Options), disk.InDirectory o.romPath r →
        disk'.InFile o'.romPath r → o'.frames = o.frames → o.frames.toNat < 2 ^ 48 →
          ∃ line, (run disk o).outcome = .ok line ∧ (run disk' o').outcome = .ok line := by
  intro all
  refine ⟨r.ofImages_bytes, r.ofCombined_combined, fun disk path held => ?_,
    fun disk path held => RomSet.ofPath_eq_ok_iff.mpr (.inr held), fun m => ?_,
    fun config => ⟨_, Machine.new_eq r config⟩, fun disk disk' o o' held held' same few => ?_⟩
  · exact ⟨RomSet.ofDirectory_eq_ok_iff.mpr held.files, RomSet.ofPath_eq_ok_iff.mpr (.inl held)⟩
  · obtain ⟨m', installed, filled, left⟩ := r.install_intact m
    have size : all.size = 8192 := r.combined.size_bytes
    exact ⟨m', installed, size, fun i h => filled i (size ▸ h), left⟩
  · obtain ⟨m, ran, _⟩ := fresh_frames r few
    have printed := (run_eq_ok_iff few).mpr ⟨r, m, .inl held, ran, rfl⟩
    exact ⟨_, printed, (outcome_run_congr (.inl held) (.inr held') same).trans printed⟩

/-- Four chips, each filled with another byte, beside a file of all four: ten seconds of
either. -/
theorem images_intact_filled :
    let r : RomSet :=
      ⟨.replicate 2048 0xc3, .replicate 2048 0x01, .replicate 2048 0x7f, .replicate 2048 0xff⟩
    let disk : Disk := .ofReadings [
      ("roms", .error .isDirectory), ("roms/invaders.h", .ok r.h.bytes),
      ("roms/invaders.g", .ok r.g.bytes), ("roms/invaders.f", .ok r.f.bytes),
      ("roms/invaders.e", .ok r.e.bytes),
      ("invaders.rom", .ok (r.h.bytes ++ r.g.bytes ++ r.f.bytes ++ r.e.bytes))]
    disk.InDirectory "roms" r ∧ disk.InFile "invaders.rom" r ∧
      ∃ line, (run disk ⟨"roms", 600, true, .monochrome⟩).outcome = .ok line ∧
        (run disk ⟨"invaders.rom", 600, false, .overlay⟩).outcome = .ok line := by
  intro r disk
  have held : disk.InDirectory "roms" r := by
    refine ⟨by simp [disk, Disk.ofReadings, List.lookup_cons], fun chip => ?_⟩
    have path : Disk.join "roms" chip.fileName = "roms/" ++ chip.fileName := by
      cases chip <;> decide +kernel
    rw [path]
    cases chip <;> simp [disk, Disk.ofReadings, List.lookup_cons, Chip.fileName, RomSet.image]
  have held' : disk.InFile "invaders.rom" r := by
    constructor <;> simp [disk, Disk.ofReadings, List.lookup_cons]
  obtain ⟨_, _, _, _, _, _, same⟩ := images_intact r
  exact ⟨held, held', same disk disk _ _ held held' rfl (by decide)⟩

end Launcher
end Cabinet

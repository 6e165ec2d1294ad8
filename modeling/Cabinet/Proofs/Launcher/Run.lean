import Cabinet.Launcher
import Cabinet.Proofs.Machine.Frames
import Cabinet.Proofs.Rom.Sources

/-! A run of the launcher.

It is a load, a machine that comes up with what was loaded, and so many frames of it. Up to
2^48 frames nothing fails but the load, so that there is a line to print just if there are
images (`run_eq_ok_iff`), and else there is what the load tells (`run_eq_error_iff`). -/
namespace Cabinet.Launcher
variable {m m' : Machine} {n : UInt64} {disk : Disk} {o : Options}

/-! ### The frames -/

/-- A run of the launcher is one of frames, and adding up their cycles does not stop it, if
there is room for the most that so many frames can have. -/
theorem outcome_runFrames (ran : m.run (.replicate n.toNat .frame) = .ok m')
    (small : m.halfFrameCycles.toNat ≤ 2 ^ 31 - 18)
    (room : n.toNat * (2 * (m.halfFrameCycles.toNat + 17)) < 2 ^ 64) :
    (runFrames m n).outcome = .ok (Checksum.ofBlock m'.videoRam, m') := by
  obtain ⟨run, done, machine, length, reports⟩ :=
    Machine.Frames.run_ok (f := { machine := m }) ran
  obtain ⟨cycles, sum⟩ := Machine.totalCycles_ok
    (fun r hr => (reports r hr).resolve_left List.not_mem_nil) small
    (by rw [length]; exact (Nat.zero_add _).symm ▸ room)
  have frames : m.runFrames n.toNat = .ok run := done
  subst machine
  rw [runFrames, frames]
  show (Reporting.bind (Reporting.ofExcept (Machine.totalCycles run.reports)) _).outcome = _
  rw [sum]
  rfl

/-- A machine as it comes up runs as many frames as have room for their cycles. -/
theorem fresh_frames (roms : RomSet) (few : n.toNat < 2 ^ 48) :
    ∃ m, (Machine.fresh roms {}).run (.replicate n.toNat .frame) = .ok m ∧
      (runFrames (.fresh roms {}) n).outcome = .ok (Checksum.ofBlock m.videoRam, m) := by
  have runs : ∃ m, (Machine.fresh roms {}).run (.replicate n.toNat .frame) = .ok m := by
    refine Machine.fresh_runs roms (by decide) ?_
    rw [List.count_replicate_self]
    exact Nat.lt_trans few (by decide)
  obtain ⟨m, ran⟩ := runs
  have room : n.toNat * (2 * (16667 + 17)) < 2 ^ 48 * 2 ^ 16 :=
    Nat.mul_lt_mul_of_lt_of_le few (by decide) (by decide)
  exact ⟨m, ran, outcome_runFrames ran (by decide : 16667 ≤ 2 ^ 31 - 18) room⟩

/-! ### The whole run -/

theorem outcome_loadMachine (disk : Disk) (path : String) :
    (loadMachine disk path).outcome =
      (Machine.fresh · {}) <$> (RomSet.ofPath disk path).outcome.mapError (.load path) := by
  simp only [loadMachine, Reporting.outcome_bind, Reporting.outcome_tell,
    Reporting.outcome_mapError, Reporting.outcome_ofExcept, Reporting.outcome_pure, Machine.new_eq]
  cases (RomSet.ofPath disk path).outcome <;> rfl

/-- Whether a window was wanted, and its colours, are all the same to what is printed. -/
theorem outcome_run (disk : Disk) (o : Options) :
    (run disk o).outcome = (do
      let roms ← (RomSet.ofPath disk o.romPath).outcome.mapError (.load o.romPath)
      let (checksum, _) ← (runFrames (.fresh roms {}) o.frames).outcome.mapError .fault
      return resultLine o.frames checksum) := by
  simp only [run, Reporting.outcome_bind, outcome_loadMachine]
  cases (RomSet.ofPath disk o.romPath).outcome with
  | error e => rfl
  | ok roms =>
    have frames := Reporting.outcome_bind
      ((runFrames (.fresh roms {}) o.frames).mapError RunFailure.fault)
      (fun frames => pure (resultLine o.frames frames.1))
    cases o.headless <;> exact frames

theorem run_eq_ok_iff (few : o.frames.toNat < 2 ^ 48) {line : String} :
    (run disk o).outcome = .ok line ↔
      ∃ roms m, disk.Holds o.romPath roms ∧
        (Machine.fresh roms {}).run (.replicate o.frames.toNat .frame) = .ok m ∧
        line = resultLine o.frames (Checksum.ofBlock m.videoRam) := by
  rw [outcome_run]
  constructor
  · intro printed
    obtain ⟨roms, loaded, printed⟩ := bind_eq_ok.mp printed
    obtain ⟨m, ran, frames⟩ := fresh_frames roms few
    rw [frames] at printed
    refine ⟨roms, m, RomSet.ofPath_eq_ok_iff.mp ?_, ran, (Except.ok.inj printed).symm⟩
    exact mapError_eq_ok.mp loaded
  · rintro ⟨roms, m, held, ran, rfl⟩
    obtain ⟨m', ran', frames⟩ := fresh_frames roms few
    obtain rfl : m = m' := Except.ok.inj (ran.symm.trans ran')
    rw [RomSet.ofPath_eq_ok_iff.mpr held]
    show ((runFrames (.fresh roms {}) o.frames).outcome.mapError RunFailure.fault >>= _) = _
    rw [frames]
    rfl

end Cabinet.Launcher

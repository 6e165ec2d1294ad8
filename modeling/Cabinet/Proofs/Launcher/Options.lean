import Cabinet.Proofs.Launcher.Drafts
import Cabinet.Reporting

/-! Which command lines give options, and which (`command_line_settled`). -/
namespace Cabinet.Options

/-- A line of these arguments gives options. -/
structure Acceptable (arguments : List Argument) : Prop where
  counts : ∀ text?, .frames text? ∈ arguments → ∃ text n, text? = some text ∧ Count.IsCount text n
  plain : ∀ text ∈ singles arguments, ¬Dashed text
  path : ∃ path, singles arguments = [path]

/-- The options say what the arguments say. -/
structure Gives (arguments : List Argument) (o : Options) : Prop where
  path : singles arguments = [o.romPath]
  headless : o.headless = true ↔ .headless ∈ arguments
  palette : o.palette = .overlay ↔ .overlay ∈ arguments
  frames : Told (counts arguments) o.frames

theorem Acceptable.sound {arguments : List Argument} (h : Acceptable arguments) :
    Sound arguments := by
  rintro before a after rfl e message offends
  have mem : a ∈ before ++ a :: after := by simp
  cases offends with
  | missing =>
    obtain ⟨text, n, eq, -⟩ := h.counts _ mem
    cases eq
  | count wrong _ =>
    obtain ⟨text, n, eq, count⟩ := h.counts _ mem
    cases eq
    exact wrong n count
  | unknown dashed => exact h.plain _ (mem_singles.mpr mem) dashed
  | second _ earlier =>
    obtain ⟨path, eq⟩ := h.path
    rw [singles_append] at eq
    cases List.append_eq_singleton_iff.mp eq with
    | inl none => exact earlier none.1
    | inr none => exact List.cons_ne_nil _ _ none.2

theorem Sound.acceptable {arguments : List Argument} (h : Sound arguments)
    (given : singles arguments ≠ []) : Acceptable arguments where
  counts text? mem := by
    obtain ⟨before, after, eq⟩ := List.append_of_mem mem
    cases text? with
    | none => exact absurd .missing (h _ _ _ eq _ _)
    | some text =>
      refine ⟨text, ?_⟩
      by_contra wrong
      cases read : Count.ofText text with
      | ok n => exact wrong ⟨_, rfl, Count.ofText_eq_ok_iff.mp read⟩
      | error cause =>
        exact h _ _ _ eq _ _ (.count (fun n count => wrong ⟨n, rfl, count⟩) read)
  plain text mem dashed := by
    obtain ⟨before, after, eq⟩ := List.append_of_mem (mem_singles.mp mem)
    exact h _ _ _ eq _ _ (.unknown dashed)
  path := by
    obtain ⟨d, -, describes⟩ := h.fold
    rw [← describes.path] at given ⊢
    cases first : d.romPath with
    | none =>
      rw [first] at given
      exact absurd rfl given
    | some path => exact ⟨path, rfl⟩

theorem Told.unique {counts : List String} {n m : UInt64} (h : Told counts n)
    (h' : Told counts m) : n = m := by
  unfold Told at h h'
  cases last : counts.getLast? with
  | none =>
    rw [last] at h h'
    exact h.trans h'.symm
  | some text =>
    rw [last] at h h'
    exact UInt64.toNat_inj.mp (h.unique h')

theorem eq_of_overlay_iff {palette palette' : Palette}
    (h : palette = .overlay ↔ palette' = .overlay) : palette = palette' := by
  cases palette <;> cases palette' <;> simp at h ⊢

/-- There is one way only to say what the arguments say. -/
theorem Gives.unique {arguments : List Argument} {o o' : Options} (h : Gives arguments o)
    (h' : Gives arguments o') : o = o' := by
  have path : o.romPath = o'.romPath := List.singleton_inj.mp (h.path.symm.trans h'.path)
  have frames : o.frames = o'.frames := h.frames.unique h'.frames
  have headless : o.headless = o'.headless :=
    Bool.eq_iff_iff.mpr (h.headless.trans h'.headless.symm)
  have palette : o.palette = o'.palette :=
    eq_of_overlay_iff (h.palette.trans h'.palette.symm)
  exact (Options.mk.injEq ..).mpr ⟨path, frames, headless, palette⟩

namespace Describes
variable {arguments : List Argument} {d : Draft}

/-- A draft that has a path gives the options that say what it says. -/
theorem finish_gives (h : Describes arguments d) {path : String} (given : d.romPath = some path) :
    ∃ o, d.finish = .ok o ∧ Gives arguments o := by
  refine ⟨⟨path, d.frames, d.headless, d.palette⟩, ?_, ?_, h.headless, h.palette, h.frames⟩
  · rw [Draft.finish, given]
  · rw [← h.path, given]
    rfl

theorem finish_eq_ok_iff (h : Describes arguments d) {o : Options} :
    d.finish = .ok o ↔ Gives arguments o := by
  cases given : d.romPath with
  | none =>
    rw [Draft.finish, given]
    refine iff_of_false nofun fun gives => ?_
    have := gives.path
    rw [← h.path, given] at this
    cases this
  | some path =>
    obtain ⟨o', finished, gives'⟩ := h.finish_gives given
    rw [finished]
    exact ⟨fun eq => Except.ok.inj eq ▸ gives', fun gives => by rw [gives.unique gives']⟩

theorem finish_eq_error_iff (h : Describes arguments d) {e : ArgumentError} :
    d.finish = .error e ↔ singles arguments = [] ∧ e = .noPath := by
  rw [← h.path, Draft.finish]
  cases d.romPath with
  | none => simp [eq_comm]
  | some path => simp

end Describes

section
variable {line : List String} {arguments : List Argument}

/-- The options of a line are what its arguments say, if they go together. -/
theorem ofArguments_eq_ok_iff (reads : Argument.Reads line arguments) {o : Options} :
    ofArguments line = .ok o ↔ Sound arguments ∧ Gives arguments o := by
  rw [ofArguments, ← reads.eq_scan, bind_eq_ok]
  constructor
  · intro h
    obtain ⟨d, fold, finished⟩ := h
    obtain ⟨describes, sound⟩ := describes_of_fold fold
    exact ⟨sound, describes.finish_eq_ok_iff.mp finished⟩
  · intro h
    obtain ⟨d, fold, describes⟩ := h.1.fold
    exact ⟨d, fold, describes.finish_eq_ok_iff.mpr h.2⟩

theorem ofArguments_eq_error_iff (reads : Argument.Reads line arguments) {e : ArgumentError} :
    ofArguments line = .error e ↔
      Blames arguments e ∨ Sound arguments ∧ singles arguments = [] ∧ e = .noPath := by
  rw [ofArguments, ← reads.eq_scan, bind_eq_error, fold_eq_error_iff]
  refine or_congr_right ⟨fun h => ?_, fun h => ?_⟩
  · obtain ⟨d, fold, finished⟩ := h
    obtain ⟨describes, sound⟩ := describes_of_fold fold
    exact ⟨sound, describes.finish_eq_error_iff.mp finished⟩
  · obtain ⟨d, fold, describes⟩ := h.1.fold
    exact ⟨d, fold, describes.finish_eq_error_iff.mpr h.2⟩

theorem acceptable_iff : Acceptable arguments ↔ Sound arguments ∧ singles arguments ≠ [] := by
  refine ⟨fun h => ⟨h.sound, ?_⟩, fun h => h.1.acceptable h.2⟩
  obtain ⟨path, eq⟩ := h.path
  rw [eq]
  exact List.cons_ne_nil _ _

theorem exists_ofArguments_iff (reads : Argument.Reads line arguments) :
    (∃ o, ofArguments line = .ok o) ↔ Acceptable arguments := by
  simp only [acceptable_iff, ofArguments_eq_ok_iff reads, exists_and_left]
  refine and_congr_right fun sound => ⟨fun h => ?_, fun given => ?_⟩
  · obtain ⟨o, gives⟩ := h
    rw [gives.path]
    exact List.cons_ne_nil _ _
  · obtain ⟨path, eq⟩ := (sound.acceptable given).path
    obtain ⟨d, -, describes⟩ := sound.fold
    rw [← describes.path, Option.toList_eq_singleton_iff] at eq
    obtain ⟨o, -, gives⟩ := describes.finish_gives eq
    exact ⟨o, gives⟩

/-! ### Other orders -/

variable {reordered : List Argument}

theorem Acceptable.perm (h : Acceptable arguments) (perm : reordered.Perm arguments) :
    Acceptable reordered where
  counts text? mem := h.counts text? (perm.mem_iff.mp mem)
  plain text mem := h.plain text ((singles_perm perm).mem_iff.mp mem)
  path := by
    obtain ⟨path, eq⟩ := h.path
    exact ⟨path, List.perm_singleton.mp (eq ▸ singles_perm perm)⟩

theorem Gives.perm {o : Options} (h : Gives arguments o) (perm : reordered.Perm arguments)
    (same : counts reordered = counts arguments) : Gives reordered o where
  path := List.perm_singleton.mp (h.path ▸ singles_perm perm)
  headless := h.headless.trans perm.mem_iff.symm
  palette := h.palette.trans perm.mem_iff.symm
  frames := same ▸ h.frames

/-- The order matters to the counts only. -/
theorem ofArguments_reordered (reads : Argument.Reads line arguments) {o : Options}
    (given : ofArguments line = .ok o) (perm : reordered.Perm arguments)
    (same : counts reordered = counts arguments) :
    Argument.Reads (reordered.flatMap Argument.words) reordered ∧
      ofArguments (reordered.flatMap Argument.words) = .ok o := by
  have acceptable := ((exists_ofArguments_iff reads).mp ⟨o, given⟩).perm perm
  have whole : .frames none ∉ reordered := by
    intro mem
    obtain ⟨text, n, eq, -⟩ := acceptable.counts none mem
    cases eq
  have reads' : Argument.Reads (reordered.flatMap Argument.words) reordered :=
    Argument.reads_words whole fun text mem => reads.single_ne (perm.mem_iff.mp mem)
  have gives := ((ofArguments_eq_ok_iff reads).mp given).2
  exact ⟨reads', (ofArguments_eq_ok_iff reads').mpr ⟨acceptable.sound, gives.perm perm same⟩⟩

end

/-- **A command line is read into arguments in one way.** It gives options just if these are
acceptable: they are what the arguments say, in this order or another that keeps the counts
in theirs. Or else the error is that of the first argument that does not go with those before
it, or that all go and no path is among them. -/
theorem command_line_settled (line : List String) :
    ∃ arguments,
      (∀ other, Argument.Reads line other ↔ other = arguments) ∧
      ((∃ o, ofArguments line = .ok o) ↔ Acceptable arguments) ∧
      (∀ o, ofArguments line = .ok o →
        Gives arguments o ∧
        ∀ reordered : List Argument, reordered.Perm arguments →
          counts reordered = counts arguments →
            Argument.Reads (reordered.flatMap Argument.words) reordered ∧
            ofArguments (reordered.flatMap Argument.words) = .ok o) ∧
      (∀ e, ofArguments line = .error e ↔
        Blames arguments e ∨
        Sound arguments ∧ singles arguments = [] ∧ e = .noPath ∧
          e.message = "no ROM path given") := by
  have reads := Argument.reads_scan line
  refine ⟨Argument.scan line, fun other => ?_, exists_ofArguments_iff reads, fun o given => ?_,
    fun e => ?_⟩
  · exact ⟨Argument.Reads.eq_scan, fun eq => eq ▸ reads⟩
  · exact ⟨((ofArguments_eq_ok_iff reads).mp given).2,
      fun reordered => ofArguments_reordered reads given⟩
  · rw [ofArguments_eq_error_iff reads]
    have told : e = .noPath ↔ e = .noPath ∧ e.message = "no ROM path given" :=
      ⟨fun eq => ⟨eq, eq ▸ rfl⟩, And.left⟩
    rw [← told]

/-- What looks like an option behind `--frames` is its value, and a bad one. -/
example : ofArguments ["--frames", "+2", "a.rom", "--frames", "--headless"] =
    .error (.badFrames "--headless" .invalidDigit) := by
  decide +kernel

end Cabinet.Options

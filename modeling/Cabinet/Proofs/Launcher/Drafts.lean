import Cabinet.Proofs.Launcher.Arguments
import Cabinet.Proofs.Launcher.Counts
import Mathlib.Data.List.Induction

/-! What the arguments of a command line say, and which do not go together.

The draft that arguments make describes them (`Describes`), whatever their order but for the
counts, of which the last one is taken. An argument that does not go with those before it
stops the reading (`Offends`), and the first of these is what the error tells of
(`fold_eq_error_iff`). -/
namespace Cabinet.Options

/-- The frames are those of the last count, or 600 if there is none. -/
def Told (counts : List String) (frames : UInt64) : Prop :=
  match counts.getLast? with
  | none => frames = 600
  | some text => Count.IsCount text frames.toNat

/-- What the draft says is what the arguments say. -/
structure Describes (arguments : List Argument) (d : Draft) : Prop where
  path : d.romPath.toList = singles arguments
  headless : d.headless = true ↔ .headless ∈ arguments
  palette : d.palette = .overlay ↔ .overlay ∈ arguments
  frames : Told (counts arguments) d.frames

/-- What is wrong with an argument behind others, and how this is told. -/
inductive Offends (before : List Argument) : Argument → ArgumentError → String → Prop
  | missing : Offends before (.frames none) .missingFrames "--frames needs a value"
  | count {text cause} (wrong : ∀ n, ¬Count.IsCount text n) (told : Count.ofText text = .error cause) :
    Offends before (.frames (some text)) (.badFrames text cause)
      ("invalid frame count '" ++ text ++ "'")
  | unknown {text} (dashed : Dashed text) :
    Offends before (.single text) (.unknownOption text) ("unknown option '" ++ text ++ "'")
  | second {text} (plain : ¬Dashed text) (earlier : singles before ≠ []) :
    Offends before (.single text) .secondPath "more than one ROM path given"

/-! ### One argument more -/

namespace Describes
variable {before : List Argument} {d : Draft} {text : String}

theorem withHeadless (h : Describes before d) :
    Describes (before ++ [.headless]) { d with headless := true } where
  path := h.path.trans (singles_concat before rfl).symm
  headless := by simp
  palette := by simp [h.palette]
  frames := by
    rw [counts_concat before rfl]
    exact h.frames

theorem withOverlay (h : Describes before d) :
    Describes (before ++ [.overlay]) { d with palette := .overlay } where
  path := h.path.trans (singles_concat before rfl).symm
  headless := by simp [h.headless]
  palette := by simp
  frames := by
    rw [counts_concat before rfl]
    exact h.frames

theorem withFrames (h : Describes before d) {n : UInt64} (count : Count.IsCount text n.toNat) :
    Describes (before ++ [.frames (some text)]) { d with frames := n } where
  path := h.path.trans (singles_concat before rfl).symm
  headless := by simp [h.headless]
  palette := by simp [h.palette]
  frames := by
    rw [counts_append]
    show Told (counts before ++ [text]) n
    rwa [Told, List.getLast?_concat]

theorem withPath (h : Describes before d) (first : d.romPath = none) :
    Describes (before ++ [.single text]) { d with romPath := some text } where
  path := by
    rw [singles_append, ← h.path, first]
    rfl
  headless := by simp [h.headless]
  palette := by simp [h.palette]
  frames := by
    rw [counts_concat before rfl]
    exact h.frames

end Describes

/-- What becomes of a draft with one argument more: it describes this as well, or the
argument does not go with those before. -/
def Goes (before : List Argument) (a : Argument) : Except ArgumentError Draft → Prop
  | .ok d => Describes (before ++ [a]) d ∧ ∀ e message, ¬Offends before a e message
  | .error e => Offends before a e e.message

theorem take_goes {before : List Argument} {d : Draft} (h : Describes before d) (a : Argument) :
    Goes before a (d.take a) := by
  cases a with
  | headless => exact ⟨h.withHeadless, nofun⟩
  | overlay => exact ⟨h.withOverlay, nofun⟩
  | frames text? =>
    cases text? with
    | none => exact .missing
    | some text =>
      rw [Draft.take]
      cases read : Count.ofText text with
      | error cause => exact .count (Count.not_isCount_of_error read) read
      | ok n =>
        have count := Count.ofText_eq_ok_iff.mp read
        refine ⟨h.withFrames count, fun e message offends => ?_⟩
        cases offends with
        | count wrong told => exact wrong n.toNat count
  | single text =>
    rw [Draft.take]
    by_cases dashed : Dashed text
    · rw [if_pos (dashed_iff.mpr dashed)]
      exact .unknown dashed
    · rw [if_neg (dashed_iff.not.mpr dashed)]
      cases path : d.romPath with
      | none =>
        refine ⟨h.withPath path, fun e message offends => ?_⟩
        have none : singles before = [] := by rw [← h.path, path]; rfl
        cases offends with
        | unknown dashed' => exact dashed dashed'
        | second plain earlier => exact earlier none
      | some other =>
        refine .second dashed ?_
        rw [← h.path, path]
        exact List.cons_ne_nil _ _

/-! ### All arguments -/

/-- Every argument goes with those before it. -/
def Sound (arguments : List Argument) : Prop :=
  ∀ before a after, arguments = before ++ a :: after → ∀ e message, ¬Offends before a e message

/-- The error tells of the first argument that does not go with those before it. -/
def Blames (arguments : List Argument) (e : ArgumentError) : Prop :=
  ∃ before a after, arguments = before ++ a :: after ∧ Sound before ∧ Offends before a e e.message

theorem Sound.concat {before : List Argument} {a : Argument} (h : Sound before)
    (last : ∀ e message, ¬Offends before a e message) : Sound (before ++ [a]) := by
  intro front b back eq e message offends
  rcases List.eq_nil_or_concat back with rfl | ⟨back, c, rfl⟩
  · obtain ⟨rfl, rfl⟩ := List.append_singleton_inj.mp eq
    exact last e message offends
  · rw [List.concat_eq_append, ← List.cons_append, ← List.append_assoc] at eq
    exact h front b back (List.append_singleton_inj.mp eq).1 e message offends

theorem Blames.append {before : List Argument} {e : ArgumentError} (h : Blames before e)
    (rest : List Argument) : Blames (before ++ rest) e := by
  obtain ⟨front, a, back, rfl, sound, offends⟩ := h
  exact ⟨front, a, back ++ rest, by simp, sound, offends⟩

theorem Blames.not_sound {arguments : List Argument} {e : ArgumentError} (h : Blames arguments e) :
    ¬Sound arguments := by
  obtain ⟨before, a, after, rfl, -, offends⟩ := h
  exact fun sound => sound before a after rfl e _ offends

/-- What becomes of all arguments: a draft that describes them, or the error that tells of
the first wrong one. -/
def Ends (arguments : List Argument) : Except ArgumentError Draft → Prop
  | .ok d => Describes arguments d ∧ Sound arguments
  | .error e => Blames arguments e

theorem describes_nil : Describes [] {} where
  path := rfl
  headless := by simp
  palette := by simp
  frames := rfl

theorem fold_concat (before : List Argument) (a : Argument) :
    (before ++ [a]).foldlM Draft.take {} = before.foldlM Draft.take {} >>= (·.take a) := by
  simp

theorem fold_ends (arguments : List Argument) :
    Ends arguments (arguments.foldlM Draft.take {}) := by
  induction arguments using List.reverseRecOn with
  | nil => exact ⟨describes_nil, fun before a after eq => by simp at eq⟩
  | append_singleton before a ih =>
    rw [fold_concat]
    cases fold : before.foldlM Draft.take {} with
    | error e =>
      rw [fold] at ih
      exact Blames.append ih [a]
    | ok d =>
      rw [fold] at ih
      obtain ⟨describes, sound⟩ := ih
      have goes := take_goes describes a
      show Ends (before ++ [a]) (d.take a)
      cases taken : d.take a with
      | error e =>
        rw [taken] at goes
        exact ⟨before, a, [], rfl, sound, goes⟩
      | ok d' =>
        rw [taken] at goes
        exact ⟨goes.1, sound.concat goes.2⟩

theorem describes_of_fold {arguments : List Argument} {d : Draft}
    (fold : arguments.foldlM Draft.take {} = .ok d) : Describes arguments d ∧ Sound arguments := by
  have ends := fold_ends arguments
  rwa [fold] at ends

theorem blames_of_fold {arguments : List Argument} {e : ArgumentError}
    (fold : arguments.foldlM Draft.take {} = .error e) : Blames arguments e := by
  have ends := fold_ends arguments
  rwa [fold] at ends

/-- Sound arguments make a draft. -/
theorem Sound.fold {arguments : List Argument} (h : Sound arguments) :
    ∃ d, arguments.foldlM Draft.take {} = .ok d ∧ Describes arguments d := by
  cases fold : arguments.foldlM Draft.take {} with
  | error e => exact absurd h (blames_of_fold fold).not_sound
  | ok d => exact ⟨d, rfl, (describes_of_fold fold).1⟩

theorem Offends.error_unique {before : List Argument} {a : Argument} {e e' : ArgumentError}
    {message message' : String} (h : Offends before a e message)
    (h' : Offends before a e' message') : e = e' := by
  cases h with
  | missing => cases h'; rfl
  | count _ told =>
    cases h' with
    | count _ told' =>
      rw [told] at told'
      cases told'
      rfl
  | unknown dashed =>
    cases h' with
    | unknown _ => rfl
    | second plain _ => exact absurd dashed plain
  | second plain _ =>
    cases h' with
    | unknown dashed => exact absurd dashed plain
    | second _ _ => rfl

/-- The error is the one that tells of the first wrong argument, and no other. -/
theorem fold_eq_error_iff {arguments : List Argument} {e : ArgumentError} :
    arguments.foldlM Draft.take {} = .error e ↔ Blames arguments e := by
  refine ⟨blames_of_fold, fun blames => ?_⟩
  obtain ⟨before, a, after, rfl, sound, offends⟩ := blames
  obtain ⟨d, fold, describes⟩ := sound.fold
  have goes := take_goes describes a
  rw [List.foldlM_append, fold]
  show d.take a >>= (after.foldlM Draft.take ·) = .error e
  cases taken : d.take a with
  | ok d' =>
    rw [taken] at goes
    exact absurd offends (goes.2 e _)
  | error e' =>
    rw [taken] at goes
    rw [goes.error_unique offends]
    rfl

end Cabinet.Options

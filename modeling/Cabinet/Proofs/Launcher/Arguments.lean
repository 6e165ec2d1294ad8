import Cabinet.Launcher.Options
import Mathlib.Data.List.Perm.Basic

/-! The arguments of a command line.

A line is read from the left into arguments, and in one way only (`Reads`): the word behind
`--frames` belongs to it, whatever it looks like. -/
namespace Cabinet.Options

namespace Argument

/-! ### Lines and their arguments -/

/-- The words that an argument takes up. -/
def words : Argument → List String
  | .headless => ["--headless"]
  | .overlay => ["--overlay"]
  | .frames none => ["--frames"]
  | .frames (some text) => ["--frames", text]
  | .single text => [text]

/-- The line is made of these arguments. What follows `--frames` is its value, whatever it
looks like. -/
inductive Reads : List String → List Argument → Prop
  | nil : Reads [] []
  | headless {line arguments} (rest : Reads line arguments) :
    Reads ("--headless" :: line) (.headless :: arguments)
  | overlay {line arguments} (rest : Reads line arguments) :
    Reads ("--overlay" :: line) (.overlay :: arguments)
  | unfinished : Reads ["--frames"] [.frames none]
  | frames {text line arguments} (rest : Reads line arguments) :
    Reads ("--frames" :: text :: line) (.frames (some text) :: arguments)
  | single {text line arguments} (headless : text ≠ "--headless") (overlay : text ≠ "--overlay")
    (frames : text ≠ "--frames") (rest : Reads line arguments) :
    Reads (text :: line) (.single text :: arguments)

theorem reads_scan (line : List String) : Reads line (scan line) := by
  fun_induction scan line with
  | case1 => exact .nil
  | case2 line ih => exact .headless ih
  | case3 line _ ih => exact .overlay ih
  | case4 => exact .unfinished
  | case5 _ _ text line ih => exact .frames ih
  | case6 text line headless overlay frames ih => exact .single headless overlay frames ih

/-- There is no other way to read a line. -/
theorem Reads.eq_scan {line : List String} {arguments : List Argument} (h : Reads line arguments) :
    arguments = scan line := by
  induction h with
  | nil => rfl
  | headless _ ih => simp [scan.eq_def (_ :: _), ih]
  | overlay _ ih => simp [scan.eq_def (_ :: _), ih]
  | unfinished => rfl
  | frames _ ih => simp [scan.eq_def (_ :: _), ih]
  | single headless overlay frames _ ih =>
    simp [scan.eq_def (_ :: _), headless, overlay, frames, ih]

/-- Arguments that no word is missing of and that are not taken for others make a line. -/
theorem reads_words {arguments : List Argument} (whole : .frames none ∉ arguments)
    (single : ∀ text, .single text ∈ arguments →
      text ≠ "--headless" ∧ text ≠ "--overlay" ∧ text ≠ "--frames") :
    Reads (arguments.flatMap words) arguments := by
  induction arguments with
  | nil => exact .nil
  | cons a rest ih =>
    have tail := ih (fun h => whole (.tail _ h)) fun text h => single text (.tail _ h)
    cases a with
    | headless => exact .headless tail
    | overlay => exact .overlay tail
    | frames text =>
      cases text with
      | none => exact absurd (.head _) whole
      | some text => exact .frames tail
    | single text =>
      obtain ⟨headless, overlay, frames⟩ := single text (.head _)
      exact .single headless overlay frames tail

/-- An argument of its own is not one of the options. -/
theorem Reads.single_ne {line : List String} {arguments : List Argument} {text : String}
    (h : Reads line arguments) (mem : .single text ∈ arguments) :
    text ≠ "--headless" ∧ text ≠ "--overlay" ∧ text ≠ "--frames" := by
  induction h with
  | nil => cases mem
  | headless _ ih => exact ih ((List.mem_cons.mp mem).resolve_left nofun)
  | overlay _ ih => exact ih ((List.mem_cons.mp mem).resolve_left nofun)
  | unfinished => cases List.mem_singleton.mp mem
  | frames _ ih => exact ih ((List.mem_cons.mp mem).resolve_left nofun)
  | single headless overlay frames _ ih =>
    cases List.mem_cons.mp mem with
    | inl first =>
      cases first
      exact ⟨headless, overlay, frames⟩
    | inr later => exact ih later

/-! ### What the arguments say -/

def single? : Argument → Option String
  | .single text => some text
  | _ => none

def count? : Argument → Option String
  | .frames text => text
  | _ => none

end Argument

/-- The arguments that are no options. -/
def singles (arguments : List Argument) : List String :=
  arguments.filterMap Argument.single?

/-- The texts behind `--frames`. -/
def counts (arguments : List Argument) : List String :=
  arguments.filterMap Argument.count?

/-- The text looks like an option. -/
def Dashed (text : String) : Prop :=
  "--".toList <+: text.toList

theorem singles_append (before after : List Argument) :
    singles (before ++ after) = singles before ++ singles after :=
  List.filterMap_append

theorem counts_append (before after : List Argument) :
    counts (before ++ after) = counts before ++ counts after :=
  List.filterMap_append

/-- An option says nothing about the path. -/
theorem singles_concat (before : List Argument) {a : Argument} (other : a.single? = none) :
    singles (before ++ [a]) = singles before := by
  simp [singles, other]

/-- Other arguments say nothing about the frames. -/
theorem counts_concat (before : List Argument) {a : Argument} (other : a.count? = none) :
    counts (before ++ [a]) = counts before := by
  simp [counts, other]

theorem dashed_iff {text : String} : text.startsWith "--" = true ↔ Dashed text :=
  String.startsWith_string_iff

theorem mem_singles {arguments : List Argument} {text : String} :
    text ∈ singles arguments ↔ .single text ∈ arguments := by
  simp only [singles, List.mem_filterMap]
  refine ⟨fun h => ?_, fun h => ⟨_, h, rfl⟩⟩
  obtain ⟨a, mem, eq⟩ := h
  cases a <;> cases eq
  exact mem

theorem singles_perm {arguments reordered : List Argument} (perm : reordered.Perm arguments) :
    (singles reordered).Perm (singles arguments) :=
  perm.filterMap _

end Cabinet.Options

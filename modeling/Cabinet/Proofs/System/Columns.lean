import Cabinet.System.Execute
import Mathlib.Data.Nat.Digits.Defs
import Mathlib.Tactic.LinearCombination

/-! Arithmetic on numbers of many bytes, column by column.

The accumulator holds one byte, so a program works out a sum or a difference as on paper:
the same few instructions for each column, from the least significant on, with the carry
flag handing over what one column leaves to the next. What such a program promises of a
whole number is what its instructions promise of one column (`Ripples`), added up
(`Ripples.columns`), whatever the base, the digits and the meaning of the carry. -/
namespace Cabinet

/-- The number that bytes are in a base, the least significant first, when each counts for
its `value`. -/
def numeral (base : Nat) (value : UInt8 → Nat) (bytes : List UInt8) : Nat :=
  Nat.ofDigits base (bytes.map value)

@[simp] theorem numeral_nil (base : Nat) (value : UInt8 → Nat) : numeral base value [] = 0 := rfl

@[simp] theorem numeral_cons (base : Nat) (value : UInt8 → Nat) (v : UInt8) (bytes : List UInt8) :
    numeral base value (v :: bytes) = value v + base * numeral base value bytes :=
  Nat.ofDigits_cons ..

/-- Instructions that stand one behind the other, each with its immediate byte. Those that
have none ignore it. -/
abbrev Code := List (Instruction × UInt8)

namespace System
variable {σ : Type} (dev : Device σ)

/-- Perform the instructions in their order. None of them takes an immediate word. -/
def performAll (s : System σ) (code : Code) : System σ :=
  code.foldl (fun s line => perform dev line.2 0 s line.1) s

/-- Perform the code of each column in turn: what is in the accumulator after each, and the
system in the end. -/
def columns (code : UInt8 → UInt8 → Code) :
    System σ → List UInt8 → List UInt8 → List UInt8 × System σ
  | s, x :: xs, y :: ys =>
    let t := performAll dev s (code x y)
    let rest := columns code t xs ys
    (t.cpu.a :: rest.1, rest.2)
  | s, _, _ => ([], s)

/-- What one column does, in whatever state it is entered: of two bytes that are digits it
makes one that is a digit, and this is their sum (their difference, if `sign` is -1) with
what the carry brings in and without what it takes out. -/
structure Ripples (code : UInt8 → UInt8 → Code) (Digit : UInt8 → Prop) (value : UInt8 → Nat)
    (base : Nat) (sign : Int) (carry : Bool → Int) : Prop where
  digit : ∀ (s : System σ) {x y : UInt8}, Digit x → Digit y →
    Digit (performAll dev s (code x y)).cpu.a
  column : ∀ (s : System σ) {x y : UInt8}, Digit x → Digit y →
    (value (performAll dev s (code x y)).cpu.a : Int) +
        base * carry (performAll dev s (code x y)).cpu.flags.carry =
      value x + sign * value y + carry s.cpu.flags.carry

/-- What all the columns do together: the same, of the numbers that the digits make. -/
structure Rippled (Digit : UInt8 → Prop) (value : UInt8 → Nat) (base : Nat) (sign : Int)
    (carry : Bool → Int) (s : System σ) (xs ys : List UInt8) (r : List UInt8 × System σ) :
    Prop where
  length : r.1.length = xs.length
  digits : ∀ v ∈ r.1, Digit v
  number : (numeral base value r.1 : Int) + base ^ xs.length * carry r.2.cpu.flags.carry =
    numeral base value xs + sign * numeral base value ys + carry s.cpu.flags.carry

variable {dev} {code : UInt8 → UInt8 → Code} {Digit : UInt8 → Prop} {value : UInt8 → Nat}
  {base : Nat} {sign : Int} {carry : Bool → Int}

theorem Rippled.nil (s : System σ) : Rippled Digit value base sign carry s [] [] ([], s) where
  length := rfl
  digits := fun _ h => (List.not_mem_nil h).elim
  number := by simp

/-- What a column takes out is what the next one brings in. -/
theorem Rippled.cons {s t : System σ} {x y v : UInt8} {xs ys : List UInt8}
    {r : List UInt8 × System σ} (digit : Digit v)
    (column : (value v : Int) + base * carry t.cpu.flags.carry =
      value x + sign * value y + carry s.cpu.flags.carry)
    (rest : Rippled Digit value base sign carry t xs ys r) :
    Rippled Digit value base sign carry s (x :: xs) (y :: ys) (v :: r.1, r.2) where
  length := congrArg (· + 1) rest.length
  digits := by
    rintro u (_ | ⟨_, hu⟩)
    · exact digit
    · exact rest.digits u hu
  number := by
    simp only [numeral_cons, List.length_cons, pow_succ]
    push_cast
    linear_combination column + (base : Int) * rest.number

/-- **Columns that each carry over correctly make numbers that do.** -/
theorem Ripples.columns (h : Ripples dev code Digit value base sign carry) (s : System σ)
    {xs ys : List UInt8} (aligned : xs.length = ys.length) (hx : ∀ x ∈ xs, Digit x)
    (hy : ∀ y ∈ ys, Digit y) :
    Rippled Digit value base sign carry s xs ys (columns dev code s xs ys) := by
  induction xs generalizing s ys with
  | nil =>
    obtain rfl := List.length_eq_zero_iff.mp aligned.symm
    exact .nil s
  | cons x xs ih =>
    cases ys with
    | nil => cases aligned
    | cons y ys =>
      obtain ⟨x_digit, hx⟩ := List.forall_mem_cons.mp hx
      obtain ⟨y_digit, hy⟩ := List.forall_mem_cons.mp hy
      exact .cons (h.digit s x_digit y_digit) (h.column s x_digit y_digit)
        (ih _ (Nat.succ.inj aligned) hx hy)

end System
end Cabinet

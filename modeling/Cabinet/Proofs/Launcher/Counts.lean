import Cabinet.Launcher.Count
import Mathlib.Algebra.Order.Ring.Nat
import Mathlib.Tactic.Positivity

/-! Which texts are counts.

Digits are read one by one, and reading stops at the first that is none or that takes the
value past 64 bits. The value never falls, so that this tells of the whole text: it is a
count just if it is decimal digits, with a plus sign before them or not, and what they say
fits (`ofText_eq_ok_iff`). -/
namespace Cabinet.Count

/-- These characters are decimal digits, at least one, and say `n`. -/
structure Decimal (digits : List Char) (n : Nat) : Prop where
  nonempty : digits ≠ []
  digit : ∀ c ∈ digits, c.isDigit = true
  value : Nat.ofDigitChars 10 digits 0 = n

/-- The text says `n`, with a plus sign before the digits or without, and this fits 64 bits. -/
structure IsCount (text : String) (n : Nat) : Prop where
  number : Decimal text.toList n ∨ ∃ digits, text.toList = '+' :: digits ∧ Decimal digits n
  fits : n < 2 ^ 64

variable {text : String} {digits : List Char}

/-! ### Digits -/

theorem le_ofDigitChars (digits : List Char) (value : Nat) :
    value ≤ Nat.ofDigitChars 10 digits value := by
  rw [Nat.ofDigitChars_eq_ofDigitChars_zero]
  have positive : 0 < 10 ^ digits.length := by positivity
  exact Nat.le_trans (Nat.le_mul_of_pos_left value positive) (Nat.le_add_right ..)

theorem ofDigits_cons {value : Nat} {c : Char} (digit : c.isDigit = true) (rest : List Char) :
    ofDigits value (c :: rest) =
      let next := 10 * value + (c.toNat - '0'.toNat)
      if next < 2 ^ 64 then ofDigits next rest else .error .tooLarge := by
  rw [ofDigits, if_pos digit, Nat.mul_comm]
  rfl

/-- What has been read before is a part of what there is to read. -/
theorem ofDigits_eq_ok_iff {value : Nat} (fits : value < 2 ^ 64) {n : UInt64} :
    ofDigits value digits = .ok n ↔
      (∀ c ∈ digits, c.isDigit = true) ∧ Nat.ofDigitChars 10 digits value = n.toNat := by
  induction digits generalizing value with
  | nil =>
    have read : UInt64.ofNat value = n ↔ value = n.toNat := by
      rw [← UInt64.toNat_inj, UInt64.toNat_ofNat_of_lt' fits]
    simp [ofDigits, read]
  | cons c rest ih =>
    by_cases digit : c.isDigit = true
    · simp only [ofDigits_cons digit, Nat.ofDigitChars_cons, List.forall_mem_cons, digit, true_and]
      by_cases small : 10 * value + (c.toNat - '0'.toNat) < 2 ^ 64
      · rw [if_pos small]
        exact ih small
      · -- The value does not come back below what it has passed.
        have grows := le_ofDigitChars rest (10 * value + (c.toNat - '0'.toNat))
        have := n.toNat_lt
        rw [if_neg small]
        constructor
        · intro h
          cases h
        · intro h
          omega
    · simp [ofDigits, digit]

theorem ofDigits_zero_eq_ok_iff (nonempty : digits ≠ []) {n : UInt64} :
    ofDigits 0 digits = .ok n ↔ Decimal digits n.toNat := by
  rw [ofDigits_eq_ok_iff (by decide)]
  exact ⟨fun h => ⟨nonempty, h.1, h.2⟩, fun h => ⟨h.digit, h.value⟩⟩

/-- No number begins with a sign of its own. -/
theorem Decimal.ne_plus {n : Nat} (h : Decimal digits n) (rest : List Char) :
    digits ≠ '+' :: rest := by
  intro sign
  have digit := h.digit '+' (sign ▸ List.mem_cons_self)
  cases digit

/-! ### Texts -/

theorem isCount_of_plus {n : Nat} (sign : text.toList = '+' :: digits) :
    IsCount text n ↔ Decimal digits n ∧ n < 2 ^ 64 := by
  constructor
  · intro h
    obtain plain | ⟨rest, sign', decimal⟩ := h.number
    · exact absurd sign (plain.ne_plus digits)
    · rw [sign] at sign'
      cases sign'
      exact ⟨decimal, h.fits⟩
  · intro h
    exact ⟨.inr ⟨digits, sign, h.1⟩, h.2⟩

theorem isCount_of_plain {n : Nat} (plain : ∀ rest, text.toList ≠ '+' :: rest) :
    IsCount text n ↔ Decimal text.toList n ∧ n < 2 ^ 64 := by
  constructor
  · intro h
    obtain decimal | ⟨rest, sign, _⟩ := h.number
    · exact ⟨decimal, h.fits⟩
    · exact absurd sign (plain rest)
  · intro h
    exact ⟨.inl h.1, h.2⟩

theorem ofText_eq_ok_iff {n : UInt64} : ofText text = .ok n ↔ IsCount text n.toNat := by
  have fits := n.toNat_lt
  unfold ofText
  split
  case h_1 empty =>
    rw [isCount_of_plain (by simp [empty]), empty]
    exact iff_of_false nofun fun h => h.1.nonempty rfl
  case h_2 sign =>
    rw [isCount_of_plus sign]
    exact iff_of_false nofun fun h => h.1.nonempty rfl
  case h_3 digits more sign =>
    rw [isCount_of_plus sign, ofDigits_zero_eq_ok_iff more]
    exact (and_iff_left fits).symm
  case h_4 nonempty _ plain =>
    rw [isCount_of_plain plain, ofDigits_zero_eq_ok_iff nonempty]
    exact (and_iff_left fits).symm

/-- What reading rejects says no number that fits. -/
theorem not_isCount_of_error {cause : CountError} (read : ofText text = .error cause) (n : Nat) :
    ¬IsCount text n := by
  intro count
  have same : (UInt64.ofNat n).toNat = n := UInt64.toNat_ofNat_of_lt' count.fits
  rw [← same, ← ofText_eq_ok_iff, read] at count
  cases count

/-- A text says one number at most. -/
theorem IsCount.unique {n m : Nat} (h : IsCount text n) (h' : IsCount text m) : n = m := by
  by_cases sign : ∃ rest, text.toList = '+' :: rest
  · obtain ⟨rest, sign⟩ := sign
    rw [isCount_of_plus sign] at h h'
    exact h.1.value.symm.trans h'.1.value
  · rw [isCount_of_plain (not_exists.mp sign)] at h h'
    exact h.1.value.symm.trans h'.1.value

end Cabinet.Count

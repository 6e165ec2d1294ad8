import Cabinet.Checksum
import Cabinet.Memory
import Mathlib.Data.Int.ModEq
import Mathlib.RingTheory.Coprime.Lemmas
import Mathlib.Tactic.LinearCombination

/-! What the digest tells apart.

With any byte the state goes to another in a way that can be undone, so two runs that are
once apart stay apart as long as they read the same (`foldl_absorb_injective`). What has to
be shown is that four bytes cannot bring them together again. A byte moves the state by less
than 256 before it is multiplied, and so the distance of the two runs is a polynomial in the
prime whose coefficients are small. The prime is 2^40 + 435: modulo 2^64, such a polynomial
vanishes only if it is zero (`head_vanishes`). Hence a change within four bytes shows in the
digest (`change_shows`). -/
namespace Cabinet

namespace Checksum

/-! ### The same byte in two states -/

theorem absorb_injective (v : UInt8) : Function.Injective (absorb · v) := by
  intro x y h
  have undone : ∀ z : UInt64, z * prime * 0xce965057aff6957b = z := by
    intro z
    have inverse : prime * 0xce965057aff6957b = 1 := by decide
    rw [UInt64.mul_assoc, inverse, UInt64.mul_one]
  have mixed : x ^^^ v.toUInt64 = y ^^^ v.toUInt64 := by
    rw [← undone (x ^^^ v.toUInt64), ← undone (y ^^^ v.toUInt64)]
    exact congrArg (· * 0xce965057aff6957b) h
  exact (UInt64.xor_left_inj v.toUInt64).mp mixed

theorem foldl_absorb_injective (bytes : List UInt8) :
    Function.Injective fun state => bytes.foldl absorb state := by
  induction bytes with
  | nil => exact Function.injective_id
  | cons v rest ih => exact ih.comp (absorb_injective v)

/-! ### What a byte adds to the state -/

/-- What the state becomes more, or less, when a byte is xored into it. -/
def nudge (state : UInt64) (v : UInt8) : Int :=
  (state ^^^ v.toUInt64).toNat - state.toNat

/-- Only the low byte of the state changes. -/
theorem abs_nudge_le (state : UInt64) (v : UInt8) : |nudge state v| ≤ 255 := by
  have high : (state ^^^ v.toUInt64).toNat / 2 ^ 8 = state.toNat / 2 ^ 8 := by
    rw [UInt64.toNat_xor, UInt8.toNat_toUInt64, Nat.xor_div_two_pow,
      Nat.div_eq_of_lt v.toNat_lt, Nat.xor_zero]
  rw [abs_le]
  unfold nudge
  omega

theorem nudge_injective (state : UInt64) : Function.Injective (nudge state) := by
  intro v v' h
  have mixed : state ^^^ v.toUInt64 = state ^^^ v'.toUInt64 := by
    apply UInt64.toNat_inj.mp
    unfold nudge at h
    omega
  have same := congrArg UInt64.toNat ((UInt64.xor_right_inj state).mp mixed)
  rw [UInt8.toNat_toUInt64, UInt8.toNat_toUInt64] at same
  exact UInt8.toNat_inj.mp same

/-- The prime, as the number that it is. -/
abbrev factor : Int := 0x100000001b3

theorem absorb_modEq (state : UInt64) (v : UInt8) :
    (absorb state v).toNat ≡ (state.toNat + nudge state v) * factor [ZMOD 2 ^ 64] := by
  have mixed : state.toNat + nudge state v = (state ^^^ v.toUInt64).toNat := by
    unfold nudge
    omega
  rw [mixed, absorb, UInt64.toNat_mul]
  push_cast
  exact Int.mod_modEq _ _

/-! ### Two runs -/

/-- The state `y` is ahead of `x` by `d`, as far as 64 bits tell. -/
def Ahead (d : Int) (x y : UInt64) : Prop :=
  (y.toNat : Int) - x.toNat ≡ d [ZMOD 2 ^ 64]

theorem Ahead.absorb {d : Int} {x y : UInt64} (h : Ahead d x y) (v v' : UInt8) :
    Ahead ((d + (nudge y v' - nudge x v)) * factor) (absorb x v) (absorb y v') := by
  have moved := (absorb_modEq y v').sub (absorb_modEq x v)
  have apart := (h.add_right (nudge y v' - nudge x v)).mul_right factor
  refine moved.trans ?_
  convert apart using 1
  ring

/-- A polynomial with coefficients as small as this vanishes at the prime only if it has
none. Beyond its value at 435, what counts modulo 2^64 is 2^40 times its derivative there,
the powers of 2^40 from the second on being lost. So 435 is a root, and as far as 24 bits
tell a double one; but the quotient by a root has coefficients of at most one, and no root
at 435. -/
theorem head_vanishes {e₀ e₁ e₂ e₃ : Int} (h₀ : |e₀| ≤ 510) (h₁ : |e₁| ≤ 510) (h₂ : |e₂| ≤ 510)
    (h₃ : |e₃| ≤ 510)
    (h : (2 ^ 64 : Int) ∣ ((e₀ * factor + e₁) * factor + e₂) * factor + e₃) : e₀ = 0 := by
  rw [abs_le] at h₀ h₁ h₂ h₃
  unfold factor at h
  have split : (2 ^ 64 : Int) ∣ (435 ^ 3 * e₀ + 435 ^ 2 * e₁ + 435 * e₂ + e₃) +
      2 ^ 40 * (3 * 435 ^ 2 * e₀ + 2 * 435 * e₁ + e₂) := by
    omega
  have root : 435 ^ 3 * e₀ + 435 ^ 2 * e₁ + 435 * e₂ + e₃ = 0 := by
    omega
  obtain ⟨t₃, ht₃⟩ : (435 : Int) ∣ e₃ := by omega
  obtain ⟨t₂, ht₂⟩ : (435 : Int) ∣ e₂ + t₃ := by omega
  obtain ⟨t₁, ht₁⟩ : (435 : Int) ∣ e₁ + t₂ := by omega
  have small : |t₁| ≤ 1 ∧ |t₂| ≤ 1 ∧ |t₃| ≤ 1 := by
    rw [abs_le, abs_le, abs_le]
    omega
  rw [abs_le, abs_le, abs_le] at small
  have derivative : 3 * 435 ^ 2 * e₀ + 2 * 435 * e₁ + e₂ = -(435 ^ 2 * t₁ + 435 * t₂ + t₃) := by
    omega
  have double : 435 ^ 2 * t₁ + 435 * t₂ + t₃ = 0 := by
    omega
  omega

/-- Runs of four bytes that start together and end together start with the same byte. -/
theorem head_eq {state : UInt64} {v v' : UInt8} {rest rest' : List UInt8}
    (length : rest.length = 3) (length' : rest'.length = 3)
    (h : (v :: rest).foldl absorb state = (v' :: rest').foldl absorb state) : v = v' := by
  obtain ⟨a, b, c, rfl⟩ := List.length_eq_three.mp length
  obtain ⟨a', b', c', rfl⟩ := List.length_eq_three.mp length'
  have start : Ahead 0 state state := by rw [Ahead, Int.sub_self]
  have apart := (((start.absorb v v').absorb a a').absorb b b').absorb c c'
  simp only [List.foldl_cons, List.foldl_nil] at h
  rw [h, Ahead, Int.sub_self] at apart
  have odd : IsCoprime (2 ^ 64 : Int) factor := by
    rw [Int.isCoprime_iff_gcd_eq_one]
    rfl
  have vanishes := odd.dvd_of_dvd_mul_right (Int.modEq_zero_iff_dvd.mp apart.symm)
  rw [zero_add] at vanishes
  have coefficient : ∀ x y u u', |nudge y u' - nudge x u| ≤ 510 := by
    intro x y u u'
    have := abs_le.mp (abs_nudge_le x u)
    have := abs_le.mp (abs_nudge_le y u')
    rw [abs_le]
    omega
  have first : nudge state v' - nudge state v = 0 :=
    head_vanishes (coefficient ..) (coefficient ..) (coefficient ..) (coefficient ..) vanishes
  exact (nudge_injective state (Int.sub_eq_zero.mp first)).symm

/-- Four bytes, from any state, are told by the state they lead to. Fewer are as well, with
the same bytes behind them. -/
theorem foldl_absorb_inj {state : UInt64} {w w' : List UInt8} (short : w.length ≤ 4)
    (length : w'.length = w.length) (h : w.foldl absorb state = w'.foldl absorb state) :
    w = w' := by
  induction w generalizing state w' with
  | nil => exact (List.length_eq_zero_iff.mp length).symm
  | cons v rest ih =>
    cases w' with
    | nil => cases length
    | cons v' rest' =>
      rw [List.length_cons] at short
      rw [List.length_cons, List.length_cons, Nat.succ_inj] at length
      let zeros : List UInt8 := List.replicate (3 - rest.length) 0
      have padded : (v :: (rest ++ zeros)).foldl absorb state =
          (v' :: (rest' ++ zeros)).foldl absorb state := by
        rw [← List.cons_append, ← List.cons_append, List.foldl_append, List.foldl_append, h]
      have four : rest.length + zeros.length = 3 := by
        rw [List.length_replicate]
        omega
      obtain rfl : v = v' := by
        refine head_eq ?_ ?_ padded
        · rw [List.length_append, four]
        · rw [List.length_append, length, four]
      rw [ih (Nat.le_of_succ_le short) length h]

end Checksum

/-! ### Blocks by their lists -/

namespace Block
variable {n k : Nat} {a b : Block n}

theorem toList_injective : Function.Injective (toList (n := n)) := by
  intro a b h
  apply Block.ext
  intro i hi
  have same := List.getElem_of_eq h (i := i) (by rwa [length_toList])
  rwa [getElem_toList, getElem_toList] at same

theorem take_toList_congr (h : ∀ i (hi : i < n), i < k → a.get i hi = b.get i hi) :
    a.toList.take k = b.toList.take k := by
  apply List.ext_getElem
  · simp
  · intro i hi _
    simp only [List.length_take, length_toList] at hi
    simp only [List.getElem_take, getElem_toList]
    exact h i (by omega) (by omega)

theorem drop_toList_congr (h : ∀ i (hi : i < n), k ≤ i → a.get i hi = b.get i hi) :
    a.toList.drop k = b.toList.drop k := by
  apply List.ext_getElem
  · simp
  · intro i hi _
    simp only [List.length_drop, length_toList] at hi
    simp only [List.getElem_drop, getElem_toList]
    exact h (k + i) (by omega) (by omega)

end Block

/-! ### The digest -/

namespace Checksum

theorem ofList_window {p s w w' : List UInt8} (short : w.length ≤ 4)
    (length : w'.length = w.length) (h : ofList (p ++ w ++ s) = ofList (p ++ w' ++ s)) :
    w = w' := by
  simp only [ofList, List.foldl_append] at h
  exact foldl_absorb_inj short length (foldl_absorb_injective s h)

/-- A list, cut before and behind four of its elements. -/
theorem window_append (l : List UInt8) (start : Nat) :
    l.take start ++ (l.drop start).take 4 ++ l.drop (start + 4) = l := by
  rw [List.append_assoc, ← List.drop_drop, List.take_append_drop, List.take_append_drop]

/-- Blocks that differ within four bytes at most and have the same digest do not differ. -/
theorem ofBlock_window {n start : Nat} {v v' : Block n}
    (within : ∀ i (h : i < n), v.get i h ≠ v'.get i h → start ≤ i ∧ i < start + 4)
    (h : ofBlock v = ofBlock v') : v = v' := by
  have kept : ∀ i (hi : i < n), i < start ∨ start + 4 ≤ i → v.get i hi = v'.get i hi := by
    intro i hi outside
    by_contra changed
    have := within i hi changed
    omega
  have before : v.toList.take start = v'.toList.take start :=
    Block.take_toList_congr fun i hi below => kept i hi (.inl below)
  have behind : v.toList.drop (start + 4) = v'.toList.drop (start + 4) :=
    Block.drop_toList_congr fun i hi above => kept i hi (.inr above)
  rw [ofBlock_eq, ofBlock_eq, ← window_append v.toList start, ← window_append v'.toList start,
    before, behind] at h
  have windows := ofList_window (by simp) (by simp) h
  apply Block.toList_injective
  rw [← window_append v.toList start, ← window_append v'.toList start, before, behind, windows]

/-- **A change within four bytes shows in the digest**, whatever there is before and behind
them. So it tells two pictures apart that differ within four bytes of video RAM, one behind
the other. -/
theorem change_shows :
    (∀ p w w' s : ByteArray, w.size ≤ 4 → w'.size = w.size → w ≠ w' →
      ofBytes (p ++ w ++ s) ≠ ofBytes (p ++ w' ++ s)) ∧
    ∀ (v v' : VideoRam) (start : Nat),
      (∀ i (h : i < 7168), v.get i h ≠ v'.get i h → start ≤ i ∧ i < start + 4) → v ≠ v' →
        ofBlock v ≠ ofBlock v' := by
  refine ⟨fun p w w' s short length differ same => ?_, fun v v' start within differ same => ?_⟩
  · rw [ofBytes_eq, ofBytes_eq] at same
    simp only [ByteArray.toList_data_append] at same
    have windows : w.data.toList = w'.data.toList := ofList_window short length same
    exact differ (ByteArray.ext (Array.toList_inj.mp windows))
  · exact differ (ofBlock_window within same)

/-- Four bytes that all change, between others, and a single pixel in a picture. -/
theorem change_shows_pixel :
    let w : ByteArray := ⟨#[0, 0, 0, 0]⟩
    let w' : ByteArray := ⟨#[255, 1, 128, 255]⟩
    let dark : VideoRam := .replicate 7168 0
    let dot : VideoRam := dark.set 3000 1 (by decide)
    w ≠ w' ∧ ofBytes (⟨#[1, 2]⟩ ++ w ++ ⟨#[3]⟩) ≠ ofBytes (⟨#[1, 2]⟩ ++ w' ++ ⟨#[3]⟩) ∧
      dark ≠ dot ∧ ofBlock dark ≠ ofBlock dot := by
  intro w w' dark dot
  have differ : w ≠ w' := by decide
  have lit : ∀ i (h : i < 7168), dot.get i h = if 3000 = i then 1 else 0 := by
    intro i h
    rw [Block.get_set, Block.get_replicate]
  have within : ∀ i (h : i < 7168), dark.get i h ≠ dot.get i h → 2998 ≤ i ∧ i < 2998 + 4 := by
    intro i h changed
    rw [lit, Block.get_replicate] at changed
    have : 3000 = i := by
      by_contra other
      exact changed (if_neg other).symm
    omega
  have differ' : dark ≠ dot := by
    intro same
    have off : dot.get 3000 (by decide) = 0 := by rw [← same, Block.get_replicate]
    rw [lit] at off
    cases off
  exact ⟨differ, change_shows.1 ⟨#[1, 2]⟩ w w' ⟨#[3]⟩ (by decide) rfl differ, differ',
    change_shows.2 dark dot 2998 within differ'⟩

end Checksum
end Cabinet

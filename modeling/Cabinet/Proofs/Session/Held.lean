import Cabinet.Proofs.Board.History
import Cabinet.Proofs.Session.History
import Mathlib.Data.List.Chain
import Mathlib.Data.List.Infix

/-! Buttons, and the keys that hold them down.

A button has one bit, and one key or two (`Button.keys`). Every stroke of one of its keys sets or
clears that bit, so the bit tells of the last of these strokes and of none before it. Where two
keys stand for one button, to let go of one of them clears the bit though the other is down, and
the bit stays clear until one of them goes down again. As long as no two keys of a button are
down together, the bit is set just while one is (`keys_hold_buttons`). -/
namespace Cabinet

/-- The keys of a button. -/
def Button.keys : Button → List Key
  | .coin => [.c]
  | .start1 => [.num1]
  | .start2 => [.num2]
  | .left => [.a, .left]
  | .right => [.d, .right]
  | .fire => [.s, .space]

theorem Button.mem_keys_iff {key : Key} {button : Button} :
    key ∈ button.keys ↔ key.button? = some button := by
  cases key <;> cases button <;> decide

/-- Just the buttons that are down have their bits set. -/
theorem Button.bit_of_lit {v : UInt8} {down : Button → Bool} (h : v.toNat = lit down)
    (button : Button) : v.toNat / button.weight % 2 = 1 ↔ down button = true := by
  obtain rfl : v = UInt8.ofNat (lit down) := by rw [← h, UInt8.ofNat_toNat]
  clear h
  simp only [lit, all, List.filter_cons, List.filter_nil]
  cases button
  all_goals
    generalize down .coin = c
    generalize down .start2 = s
    generalize down .start1 = t
    generalize down .fire = f
    generalize down .left = l
    generalize down .right = r
    revert c s t f l r
    decide +kernel

namespace Session

/-! ### Strokes -/

/-- A key goes down or comes up. -/
structure Stroke where
  key : Key
  down : Bool
  deriving Repr, DecidableEq

/-- One stroke after the other. -/
def strike (s : Session) (strokes : List Stroke) : Session :=
  strokes.foldl (fun s stroke => s.key stroke.key stroke.down) s

/-- What a stroke does to the board, if its key stands for a button. -/
def Stroke.press? (stroke : Stroke) : Option Board.Event :=
  stroke.key.button?.map (.press · stroke.down)

theorem strike_board (s : Session) (strokes : List Stroke) :
    (s.strike strokes).machine.board =
      (strokes.filterMap Stroke.press?).foldl Board.act s.machine.board := by
  induction strokes generalizing s with
  | nil => rfl
  | cons stroke rest ih =>
    have once : (s.key stroke.key stroke.down).machine.board =
        stroke.press?.toList.foldl Board.act s.machine.board := by
      obtain ⟨key, down⟩ := stroke
      cases down <;> cases key <;> rfl
    rw [strike, List.foldl_cons, ← strike, ih, once, List.filterMap_cons]
    cases stroke.press? <;> rfl

/-! ### What is down -/

/-- The last stroke of the button's keys. -/
def lastStroke (strokes : List Stroke) (button : Button) : Option Stroke :=
  (strokes.filter fun stroke => stroke.key ∈ button.keys).getLast?

/-- The last stroke of the key has put it down. -/
def Down (strokes : List Stroke) (key : Key) : Prop :=
  (strokes.filter fun stroke => stroke.key = key).getLast? = some ⟨key, true⟩

/-- The strokes of the key put it down and let it come up in turn. -/
def Alternates (strokes : List Stroke) (key : Key) : Prop :=
  (false :: (strokes.filter fun stroke => stroke.key = key).map Stroke.down).IsChain (· ≠ ·)

/-- No two keys of the button are down together at any time. -/
def Apart (strokes : List Stroke) (button : Button) : Prop :=
  ∀ front, front <+: strokes → ∀ key ∈ button.keys, ∀ key' ∈ button.keys,
    Down front key → Down front key' → key = key'

/-- Some key of the button is down. -/
def Held (strokes : List Stroke) (button : Button) : Prop :=
  ∃ key ∈ button.keys, Down strokes key

instance (strokes : List Stroke) (key : Key) : Decidable (Down strokes key) :=
  inferInstanceAs (Decidable (_ = _))

instance (strokes : List Stroke) (key : Key) : Decidable (Alternates strokes key) :=
  inferInstanceAs (Decidable (List.IsChain _ _))

instance (strokes : List Stroke) (button : Button) : Decidable (Held strokes button) :=
  inferInstanceAs (Decidable (∃ key ∈ button.keys, Down strokes key))

theorem getLast?_filter_concat {α : Type} (p : α → Bool) (xs : List α) (x : α) :
    ((xs ++ [x]).filter p).getLast? = if p x then some x else (xs.filter p).getLast? := by
  rw [List.filter_append]
  cases h : p x <;> simp [h]

variable {strokes : List Stroke} {stroke : Stroke} {key : Key} {button : Button}

theorem lastStroke_concat (strokes : List Stroke) (stroke : Stroke) (button : Button) :
    lastStroke (strokes ++ [stroke]) button =
      if stroke.key ∈ button.keys then some stroke else lastStroke strokes button := by
  simp only [lastStroke, getLast?_filter_concat, decide_eq_true_eq]

theorem down_concat : Down (strokes ++ [stroke]) key ↔
    if stroke.key = key then stroke.down = true else Down strokes key := by
  unfold Down
  rw [getLast?_filter_concat]
  by_cases h : stroke.key = key
  · obtain ⟨k, down⟩ := stroke
    subst h
    simp
  · simp [h]

theorem down_iff : Down strokes key ↔
    ((strokes.filter fun stroke => stroke.key = key).map Stroke.down).getLast?.getD false =
      true := by
  unfold Down
  rw [List.getLast?_map]
  cases h : (strokes.filter fun stroke => stroke.key = key).getLast? with
  | none => simp
  | some last =>
    obtain ⟨_, own⟩ := List.mem_filter.mp (List.mem_of_getLast? h)
    obtain ⟨k, down⟩ := last
    simp only [decide_eq_true_eq] at own
    simp [own]

/-- Up to any stroke the strokes of a key alternate, and a key that comes up has been down. -/
theorem Alternates.before (h : Alternates (strokes ++ [stroke]) key) :
    Alternates strokes key ∧
      (stroke.key = key → stroke.down = false → Down strokes key) := by
  unfold Alternates at *
  rw [List.filter_append, List.map_append, ← List.cons_append, List.isChain_append] at h
  obtain ⟨before, _, turn⟩ := h
  refine ⟨before, fun own up => ?_⟩
  have last := turn _ List.getLast?_cons false (by simp [own, up])
  rw [down_iff]
  simpa using last

/-! ### What the bit tells -/

/-- The button's bit of port 1 is set. -/
def Lit (s : Session) (button : Button) : Prop :=
  (s.machine.board.input 1).toNat / button.weight % 2 = 1

theorem held_presses (strokes : List Stroke) (button : Button) :
    Board.held (strokes.filterMap Stroke.press?) button = true ↔
      ∃ key, lastStroke strokes button = some ⟨key, true⟩ := by
  induction strokes using List.reverseRecOn with
  | nil => exact ⟨nofun, nofun⟩
  | append_singleton rest stroke ih =>
    obtain ⟨key, down⟩ := stroke
    rw [lastStroke_concat, List.filterMap_append, List.filterMap_cons, Stroke.press?,
      if_congr Button.mem_keys_iff rfl rfl]
    cases stands : key.button? with
    | none => simpa using ih
    | some b =>
      show Board.held (_ ++ [.press b down]) button = true ↔ _
      rw [Board.held_concat, Board.Event.moved?]
      by_cases own : b = button
      · simp [own]
      · simpa [own] using ih

variable {roms : RomSet} {config : Config} {m₀ : Machine}

theorem lit_iff (new : Machine.new roms config = .ok m₀) (palette : Palette)
    (strokes : List Stroke) (button : Button) :
    ((opened m₀ palette).strike strokes).Lit button ↔
      ∃ key, lastStroke strokes button = some ⟨key, true⟩ := by
  rw [Machine.new_eq] at new
  cases new
  have kept := (Board.remembers config.switches (strokes.filterMap Stroke.press?)).buttons
  unfold Lit
  rw [strike_board, ← held_presses]
  exact Button.bit_of_lit kept button

theorem down_of_lastStroke (h : lastStroke strokes button = some ⟨key, true⟩) :
    key ∈ button.keys ∧ Down strokes key := by
  induction strokes using List.reverseRecOn with
  | nil => cases h
  | append_singleton rest stroke ih =>
    rw [lastStroke_concat] at h
    by_cases own : stroke.key ∈ button.keys
    · rw [if_pos own] at h
      cases h
      exact ⟨own, down_concat.mpr (by simp)⟩
    · rw [if_neg own] at h
      obtain ⟨stands, down⟩ := ih h
      have other : stroke.key ≠ key := fun same => own (same ▸ stands)
      exact ⟨stands, down_concat.mpr (by rwa [if_neg other])⟩

/-- While a key of a button is down, there is a last stroke of the button's keys. -/
theorem lastStroke_of_held (h : Held strokes button) :
    ∃ stroke, lastStroke strokes button = some stroke := by
  obtain ⟨key, stands, down⟩ := h
  obtain ⟨struck, _⟩ := List.mem_filter.mp (List.mem_of_getLast? down)
  have some : lastStroke strokes button ≠ none := by
    intro none
    have nothing := List.getLast?_eq_none_iff.mp none
    exact List.not_mem_nil (nothing ▸ List.mem_filter.mpr ⟨struck, by simpa using stands⟩)
  exact Option.ne_none_iff_exists'.mp some

theorem Apart.front (h : Apart (strokes ++ [stroke]) button) : Apart strokes button :=
  fun front before => h front (before.trans (List.prefix_append _ _))

/-- Apart from one another, the keys of a button cannot clear its bit while one of them is down:
the one that comes up would be down beside it. -/
theorem press_last (alternates : ∀ key, Alternates strokes key) (apart : Apart strokes button)
    (held : Held strokes button) : ∃ key, lastStroke strokes button = some ⟨key, true⟩ := by
  obtain ⟨key, stands, down⟩ := held
  induction strokes using List.reverseRecOn with
  | nil => cases down
  | append_singleton rest stroke ih =>
    rw [lastStroke_concat]
    rw [down_concat] at down
    by_cases own : stroke.key ∈ button.keys
    · rw [if_pos own]
      obtain ⟨struck, pressed⟩ := stroke
      cases pressed with
      | true => exact ⟨struck, rfl⟩
      | false =>
        obtain ⟨other, down⟩ : struck ≠ key ∧ Down rest key := by
          by_cases same : struck = key
          · simp [same] at down
          · exact ⟨same, by rwa [if_neg same] at down⟩
        have beside : Down rest struck := (alternates struck).before.2 rfl rfl
        have before : rest <+: rest ++ [⟨struck, false⟩] := List.prefix_append _ _
        exact absurd (apart rest before struck own key stands beside down) other
    · have other : stroke.key ≠ key := fun same => own (same ▸ stands)
      rw [if_neg own]
      rw [if_neg other] at down
      exact ih (fun k => (alternates k).before.1) apart.front down

/-- Coin and start have one key each. -/
theorem key_unique (button : Button) : ∀ key ∈ [Key.c, .num1, .num2], key ∈ button.keys →
    ∀ key' ∈ button.keys, key' = key := by
  cases button <;> decide

/-- What the strokes of the keys make of a button. -/
structure Holds (strokes : List Stroke) (button : Button) (s : Session) : Prop where
  lit : s.Lit button ↔
    Held strokes button ∧ ∀ key, lastStroke strokes button ≠ some ⟨key, false⟩
  apart : Apart strokes button → (s.Lit button ↔ Held strokes button)
  /-- The keys of coin and start, which have no other. -/
  single : ∀ key ∈ [Key.c, .num1, .num2], key ∈ button.keys →
    (s.Lit button ↔ Down strokes key)

/-- Whether a button is held, from the last stroke of its keys. -/
theorem holds_of_lit {s : Session} (alternates : ∀ key, Alternates strokes key)
    (lit : s.Lit button ↔ ∃ key, lastStroke strokes button = some ⟨key, true⟩) :
    Holds strokes button s := by
  have held (pressed : ∃ key, lastStroke strokes button = some ⟨key, true⟩) :
      Held strokes button := by
    obtain ⟨key, last⟩ := pressed
    exact ⟨key, down_of_lastStroke last⟩
  have apart (h : Apart strokes button) : s.Lit button ↔ Held strokes button := by
    rw [lit]
    exact ⟨held, press_last alternates h⟩
  refine ⟨?_, apart, fun key listed stands => ?_⟩
  · rw [lit]
    constructor
    · intro pressed
      refine ⟨held pressed, ?_⟩
      obtain ⟨key, last⟩ := pressed
      simp [last]
    · intro both
      obtain ⟨someDown, notReleased⟩ := both
      obtain ⟨⟨key, down⟩, last⟩ := lastStroke_of_held someDown
      cases down with
      | true => exact ⟨key, last⟩
      | false => exact absurd last (notReleased key)
  · have only := key_unique button key listed stands
    have alone : Apart strokes button :=
      fun _ _ k stands k' stands' _ _ => (only k stands).trans (only k' stands').symm
    rw [apart alone]
    constructor
    · intro someDown
      obtain ⟨key', stands', down⟩ := someDown
      exact only key' stands' ▸ down
    · intro down
      exact ⟨key, stands, down⟩

/-- **Keys hold buttons** as long as none of a button's keys is let go of beside another:
after any strokes, each key going down and coming up in turn, in a pause or not, the bit of a
button is set just if one of its keys is down and the last stroke of them all was no release.
Where no two keys of the button are down at once, it is set just if one of them is down. -/
theorem keys_hold_buttons (roms : RomSet) (config : Config) (palette : Palette) :
    ∃ m₀, Machine.new roms config = .ok m₀ ∧
      ∀ strokes, (∀ key, Alternates strokes key) → ∀ button,
        Holds strokes button ((opened m₀ palette).strike strokes) := by
  refine ⟨.fresh roms config, Machine.new_eq .., fun strokes alternates button => ?_⟩
  exact holds_of_lit alternates (lit_iff (Machine.new_eq roms config) palette strokes button)

/-- Fire by one key after the other, with a coin that ends a pause between them. -/
theorem fire_held_by_turns :
    let roms : RomSet :=
      ⟨.replicate 2048 0, .replicate 2048 0, .replicate 2048 0, .replicate 2048 0⟩
    let strokes : List Stroke :=
      [⟨.s, true⟩, ⟨.p, true⟩, ⟨.s, false⟩, ⟨.c, true⟩, ⟨.space, true⟩, ⟨.p, false⟩]
    (∀ key, Alternates strokes key) ∧ Apart strokes .fire ∧
      ∃ m₀ s, Machine.new roms {} = .ok m₀ ∧ (opened m₀ .overlay).strike strokes = s ∧
        s.Lit .fire ∧ s.Lit .coin ∧ ¬ s.Lit .left := by
  intro roms strokes
  have alternates : ∀ key, Alternates strokes key := by
    intro key
    cases key <;> decide
  have apart : Apart strokes .fire := by
    intro front before key stands key' stands' down down'
    have never : ∀ front ∈ strokes.inits, ¬ (Down front .s ∧ Down front .space) := by decide
    have either := never front ((List.mem_inits _ _).mpr before)
    simp only [Button.keys, List.mem_cons, List.not_mem_nil, or_false] at stands stands'
    obtain rfl | rfl := stands <;> obtain rfl | rfl := stands'
    · rfl
    · exact absurd ⟨down, down'⟩ either
    · exact absurd ⟨down', down⟩ either
    · rfl
  obtain ⟨m₀, new, holds⟩ := keys_hold_buttons roms {} .overlay
  refine ⟨alternates, apart, m₀, _, new, rfl, ?_, ?_, ?_⟩
  · exact ((holds strokes alternates .fire).apart apart).mpr ⟨.space, by decide, by decide⟩
  · exact ((holds strokes alternates .coin).single .c (by decide) (by decide)).mpr (by decide)
  · rw [(holds strokes alternates .left).lit]
    intro both
    obtain ⟨someDown, _⟩ := both
    exact absurd someDown (by decide)

/-- The left button of a new machine goes off with one of its keys, while the other is down. -/
theorem released_beside_held :
    ¬ ∀ (roms : RomSet) (config : Config) (palette : Palette) (m₀ : Machine),
      Machine.new roms config = .ok m₀ →
        ∀ strokes, (∀ key, Alternates strokes key) → ∀ button,
          (((opened m₀ palette).strike strokes).Lit button ↔ Held strokes button) := by
  intro claim
  let roms : RomSet :=
    ⟨.replicate 2048 0, .replicate 2048 0, .replicate 2048 0, .replicate 2048 0⟩
  let strokes : List Stroke := [⟨.a, true⟩, ⟨.left, true⟩, ⟨.a, false⟩]
  have alternates : ∀ key, Alternates strokes key := by
    intro key
    cases key <;> decide
  have held : Held strokes .left := ⟨.left, by decide, by decide⟩
  have lit := (claim roms {} .overlay _ (Machine.new_eq roms {}) strokes alternates .left).mpr held
  rw [lit_iff (Machine.new_eq roms {})] at lit
  obtain ⟨key, last⟩ := lit
  have released : lastStroke strokes .left = some ⟨.a, false⟩ := by decide
  rw [released] at last
  cases last

end Session
end Cabinet

import Cabinet.Proofs.Machine.Occurrences
import Cabinet.Proofs.System.Effects

/-! The order interrupts keep.

Every frame requests two, and whether one is accepted is decided by the interrupt switch.
The switch is a function of what has happened: it stands as whoever set it last has set
it (`enabled_of_runs`). So the acceptance of a request can be read off the history before
it, and between two that are accepted something has opened the switch again. -/
namespace Cabinet

/-! ### The switch and its history -/

namespace Occurrence

/-- How the interrupt switch is set, if it is. -/
def gate : Occurrence → Option Bool
  | .executed i => i.gate
  | .accepted _ => some false
  | .reset => some true
  | _ => none

/-- Only a reset and one instruction open the switch. -/
theorem gate_eq_true {e : Occurrence} (h : e.gate = some true) : e = .reset ∨ e = .executed .ei := by
  cases e with
  | executed i => cases i <;> first | exact .inr rfl | cases h
  | reset => exact .inl rfl
  | _ => cases h

end Occurrence

/-- How the switch stands after these occurrences, if before them it was as `first`. -/
def enabledAfter (first : Bool) (es : List Occurrence) : Bool :=
  (es.reverse.findSome? Occurrence.gate).getD first

theorem enabledAfter_cons (first : Bool) (e : Occurrence) (es : List Occurrence) :
    enabledAfter first (e :: es) = enabledAfter (e.gate.getD first) es := by
  unfold enabledAfter
  rw [List.reverse_cons, List.findSome?_append, List.findSome?_singleton]
  cases es.reverse.findSome? Occurrence.gate <;> rfl

/-- A switch that was shut and is open has been opened. -/
theorem opened_of_enabledAfter {es : List Occurrence} (h : enabledAfter false es = true) :
    .reset ∈ es ∨ .executed .ei ∈ es := by
  unfold enabledAfter at h
  cases found : es.reverse.findSome? Occurrence.gate with
  | none =>
    rw [found] at h
    cases h
  | some b =>
    rw [found] at h
    obtain rfl : b = true := h
    obtain ⟨e, he, opens⟩ := List.exists_of_findSome?_eq_some found
    rcases Occurrence.gate_eq_true opens with rfl | rfl
    · exact .inl (List.mem_reverse.mp he)
    · exact .inr (List.mem_reverse.mp he)

namespace Machine
variable {m m' : Machine}

/-- One occurrence sets the switch as it says, or leaves it. -/
theorem Happens.enabled {e : Occurrence} (h : Happens m e m') :
    m'.system.cpu.interruptsEnabled = e.gate.getD m.system.cpu.interruptsEnabled := by
  cases h with
  | executed fetches =>
    show (m.system.step Board.device).2.cpu.interruptsEnabled = _
    rw [System.step_of_fetches _ fetches]
    exact System.execute_interruptsEnabled ..
  | accepted accepts => exact congrArg Processor.interruptsEnabled accepts.cpu
  | _ => rfl

theorem enabled_of_runs {es : List Occurrence} (h : Runs m es m') :
    m'.system.cpu.interruptsEnabled = enabledAfter m.system.cpu.interruptsEnabled es := by
  induction h with
  | nil => rfl
  | cons first _ ih => rw [ih, first.enabled, enabledAfter_cons]

/-! ### The order of a run -/

/-- What can be said of the occurrences of any run, by the operations it consists of. -/
structure Orderly (ops : List Operation) (es : List Occurrence) : Prop where
  /-- Two requests in each frame, for vector 1 and then for vector 2, and no other. -/
  requests : es.filterMap Occurrence.request? = (List.replicate (ops.count .frame) [1, 2]).flatten
  /-- A request is accepted just if the switch, as the history has left it, is open. -/
  decided : ∀ before e after v, es = before ++ e :: after → e.request? = some v →
    (e = .accepted v ↔ enabledAfter true before = true)
  /-- Between two requests that are accepted, if there is no reset, interrupts have been
  enabled again. -/
  reopened : ∀ before v between w after,
    es = before ++ .accepted v :: (between ++ .accepted w :: after) → .reset ∉ between →
      .executed .ei ∈ between

theorem requests_executed (is : List Instruction) :
    (is.map Occurrence.executed).filterMap Occurrence.request? = [] := by
  rw [List.filterMap_map]
  exact List.filterMap_eq_nil_iff.mpr fun _ _ => rfl

theorem Serves.requests {op : Operation} {es : List Occurrence} (h : Serves m op es m') :
    es.filterMap Occurrence.request? = if op = .frame then [1, 2] else [] := by
  cases h with
  | frame _ _ first _ _ second _ =>
    rw [List.filterMap_append, requests_executed, List.nil_append, List.filterMap_cons_some first,
      List.filterMap_append, requests_executed, List.nil_append, List.filterMap_cons_some second]
    rfl
  | _ => rfl

theorem Served.requests {ops : List Operation} {es : List Occurrence} (h : Served m ops es m') :
    es.filterMap Occurrence.request? = (List.replicate (ops.count .frame) [1, 2]).flatten := by
  induction h with
  | nil => rfl
  | @cons _ _ _ op ops _ _ first _ ih =>
    rw [List.filterMap_append, first.requests, ih, List.count_cons]
    cases op <;> rfl

/-- The machine requested to take an interrupt takes it just if its switch is open. -/
theorem Happens.accepted_iff {e : Occurrence} {v : UInt8} (h : Happens m e m')
    (he : e.request? = some v) : e = .accepted v ↔ m.system.cpu.interruptsEnabled = true := by
  cases h with
  | accepted accepts =>
    obtain rfl := Option.some.inj he
    exact iff_of_true rfl accepts.enabled
  | refused disabled =>
    rw [disabled]
    exact iff_of_false nofun nofun
  | _ => cases he

theorem Served.orderly {ops : List Operation} {es : List Occurrence} (h : Served m ops es m')
    (opened : m.system.cpu.interruptsEnabled = true) : Orderly ops es where
  requests := h.requests
  decided := by
    rintro before e after v rfl he
    obtain ⟨mid, front, back⟩ := h.runs.split
    cases back with
    | cons happens _ =>
      rw [happens.accepted_iff he, enabled_of_runs front, opened]
  reopened := by
    rintro before v between w after rfl noReset
    obtain ⟨mid, _, back⟩ := h.runs.split
    cases back with
    | cons taken rest =>
      obtain ⟨mid', front, back⟩ := rest.split
      cases back with
      | cons taken' _ =>
        have shut := taken.enabled
        have reopened := (taken'.accepted_iff rfl).mp rfl
        rw [enabled_of_runs front, shut] at reopened
        exact (opened_of_enabledAfter reopened).resolve_left noReset

/-- **Every run of a machine keeps the order of interrupts**, whatever its program and
whatever is done with it: unless a counter overflows, the run is a sequence of
instructions with two requests to each frame, each behind its half and decided by the
switch as the history left it, and the frame count is that of the frames since the last
reset. -/
theorem run_interrupts (roms : RomSet) (config : Config) :
    ∃ m₀, new roms config = .ok m₀ ∧ ∀ ops : List Operation,
      (m₀.run ops = .error .halfFrameCycles ∧ UInt32.size - 18 < config.halfFrameCycles.toNat) ∨
        (m₀.run ops = .error .frameCount ∧ UInt64.size ≤ ops.count .frame) ∨
        ∃ m es, m₀.run ops = .ok m ∧ Served m₀ ops es m ∧ Orderly ops es ∧
          m.frames.toNat = framesSince ops := by
  refine ⟨fresh roms config, new_eq roms config, fun ops => ?_⟩
  rcases (fresh roms config).run_cases ops with overflow | ⟨overflow, full⟩ | ⟨es, m, ran, served⟩
  · exact .inl overflow
  · have none_yet : (fresh roms config).frames.toNat = 0 := rfl
    rw [none_yet, Nat.zero_add] at full
    exact .inr (.inl ⟨overflow, full⟩)
  · refine .inr (.inr ⟨m, es, ran, served, served.orderly rfl, ?_⟩)
    rw [served.frames]
    exact foldl_framesAfter ops

end Machine
end Cabinet

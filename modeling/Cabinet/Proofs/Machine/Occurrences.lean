import Cabinet.Proofs.Machine.Operations
import Cabinet.Proofs.System.Interrupt

/-! Whole runs, occurrence by occurrence.

A run of operations is, underneath, a sequence of occurrences: an instruction, an
interrupt that is accepted or refused, the end of a frame, a button, a reset. `Happens`
says what each makes of the machine and when it can be, `Serves` which of them an
operation consists of: a frame is the instructions of a half, a request for vector 1, the
instructions of the other half, a request for vector 2, and the count. Every run of
operations that does not overflow a counter is such a sequence (`run_cases`). -/
namespace Cabinet

/-- What happens in a machine, one after the other. -/
inductive Occurrence where
  | executed (i : Instruction)
  | accepted (vector : UInt8)
  | refused (vector : UInt8)
  /-- The end of a frame. -/
  | counted
  | pressed (b : Button) (down : Bool)
  | reset
  deriving Repr, DecidableEq

/-- The vector of an interrupt that is requested. -/
def Occurrence.request? : Occurrence → Option UInt8
  | .accepted v | .refused v => some v
  | _ => none

namespace Machine
variable {m m' m'' : Machine}

/-! ### One occurrence, and many -/

/-- What each occurrence makes of a machine. A request that is refused leaves no trace. -/
inductive Happens : Machine → Occurrence → Machine → Prop
  | executed {m : Machine} {i : Instruction} (fetches : m.system.Fetches i) :
    Happens m (.executed i) { m with system := (m.system.step Board.device).2 }
  | accepted {m : Machine} {v : UInt8} {t : System Board} (accepts : System.Accepts v m.system t) :
    Happens m (.accepted v) { m with system := t }
  | refused {m : Machine} {v : UInt8} (disabled : m.system.cpu.interruptsEnabled = false) :
    Happens m (.refused v) m
  | counted {m : Machine} (room : m.frames.toNat + 1 < UInt64.size) :
    Happens m .counted { m with frames := m.frames + 1 }
  | pressed {m : Machine} {b : Button} {down : Bool} :
    Happens m (.pressed b down) (m.setButton b down)
  | reset {m : Machine} : Happens m .reset m.reset

/-- From the first machine to the second by these occurrences. -/
inductive Runs : Machine → List Occurrence → Machine → Prop
  | nil {m : Machine} : Runs m [] m
  | cons {m m' m'' : Machine} {e : Occurrence} {es : List Occurrence} (first : Happens m e m')
      (rest : Runs m' es m'') : Runs m (e :: es) m''

theorem Runs.append {es fs : List Occurrence} (h : Runs m es m') (h' : Runs m' fs m'') :
    Runs m (es ++ fs) m'' := by
  induction h with
  | nil => exact h'
  | cons first _ ih => exact .cons first (ih h')

/-- A run can be stopped anywhere and taken up again. -/
theorem Runs.split {es fs : List Occurrence} (h : Runs m (es ++ fs) m'') :
    ∃ m', Runs m es m' ∧ Runs m' fs m'' := by
  induction es generalizing m with
  | nil => exact ⟨m, .nil, h⟩
  | cons e es ih =>
    cases h with
    | cons first rest =>
      obtain ⟨m', front, back⟩ := ih rest
      exact ⟨m', .cons first front, back⟩

/-- Instructions happen one by one. -/
theorem runs_of_executes {s t : System Board} {is : List Instruction}
    (h : System.Executes Board.device s is t) (m : Machine) :
    Runs { m with system := s } (is.map .executed) { m with system := t } := by
  induction h with
  | nil => exact .nil
  | cons fetches _ ih => exact .cons (.executed fetches) ih

/-- An interrupt happens as the one of its vector, accepted or refused. -/
theorem happens_interrupt (m : Machine) (s : System Board) {v : UInt8} (hv : v < 8) :
    ∃ e : Occurrence, e.request? = some v ∧
      Happens { m with system := s } e { m with system := s.interrupt v } := by
  rcases s.interrupt_cases hv with accepts | ⟨disabled, lost⟩
  · exact ⟨.accepted v, rfl, .accepted accepts⟩
  · rw [lost]
    exact ⟨.refused v, rfl, .refused disabled⟩

/-! ### Operations -/

/-- What an operation consists of. -/
inductive Serves : Machine → Operation → List Occurrence → Machine → Prop
  | step {m m' : Machine} {i : Instruction} (executed : Happens m (.executed i) m') :
    Serves m .step [.executed i] m'
  | idle {m : Machine} (halted : m.system.cpu.halted = true) : Serves m .step [] m
  | frame {m m' : Machine} {middle woken last left : System Board} {is js : List Instruction}
      {e f : Occurrence}
      (firstHalf : System.Halves Board.device m.halfFrameCycles.toNat 0 m.system is middle)
      (midScreen : Happens { m with system := middle } e { m with system := woken })
      (first : e.request? = some 1)
      (secondHalf : System.Halves Board.device m.halfFrameCycles.toNat 0 woken js last)
      (endOfScreen : Happens { m with system := last } f { m with system := left })
      (second : f.request? = some 2)
      (counted : Happens { m with system := left } .counted m') :
    Serves m .frame (is.map .executed ++ e :: (js.map .executed ++ [f, .counted])) m'
  | button {m : Machine} {b : Button} {down : Bool} :
    Serves m (.button b down) [.pressed b down] (m.setButton b down)
  | reset {m : Machine} : Serves m .reset [.reset] m.reset

/-- What operations consist of, one after the other. -/
inductive Served : Machine → List Operation → List Occurrence → Machine → Prop
  | nil {m : Machine} : Served m [] [] m
  | cons {m m' m'' : Machine} {op : Operation} {ops : List Operation} {es fs : List Occurrence}
      (first : Serves m op es m') (rest : Served m' ops fs m'') : Served m (op :: ops) (es ++ fs) m''

theorem Serves.runs {op : Operation} {es : List Occurrence} (h : Serves m op es m') :
    Runs m es m' := by
  cases h with
  | step executed => exact .cons executed .nil
  | idle _ => exact .nil
  | frame firstHalf midScreen _ secondHalf endOfScreen _ counted =>
    exact (runs_of_executes firstHalf.executes m).append <| .cons midScreen <|
      (runs_of_executes secondHalf.executes m).append <| .cons endOfScreen (.cons counted .nil)
  | button => exact .cons .pressed .nil
  | reset => exact .cons .reset .nil

theorem Served.runs {ops : List Operation} {es : List Occurrence} (h : Served m ops es m') :
    Runs m es m' := by
  induction h with
  | nil => exact .nil
  | cons first _ ih => exact first.runs.append ih

/-! ### Counts -/

/-- No operation moves the budget. -/
theorem Serves.halfFrameCycles {op : Operation} {es : List Occurrence} (h : Serves m op es m') :
    m'.halfFrameCycles = m.halfFrameCycles := by
  cases h with
  | step executed => cases executed; rfl
  | frame _ _ _ _ _ _ counted => cases counted; rfl
  | _ => rfl

/-- The frame count after an operation. -/
def framesAfter (n : Nat) : Operation → Nat
  | .frame => n + 1
  | .reset => 0
  | _ => n

theorem Serves.frames {op : Operation} {es : List Occurrence} (h : Serves m op es m') :
    m'.frames.toNat = framesAfter m.frames.toNat op := by
  cases h with
  | step executed => cases executed; rfl
  | frame _ _ _ _ _ _ counted =>
    cases counted with
    | counted room =>
      rw [UInt64.toNat_add]
      exact Nat.mod_eq_of_lt room
  | _ => rfl

theorem Served.frames {ops : List Operation} {es : List Occurrence} (h : Served m ops es m') :
    m'.frames.toNat = ops.foldl framesAfter m.frames.toNat := by
  induction h with
  | nil => rfl
  | cons first _ ih => rw [ih, first.frames, List.foldl_cons]

/-- The frames among these operations since the last reset, or since the first operation. -/
def framesSince (ops : List Operation) : Nat :=
  (ops.reverse.takeWhile (· ≠ .reset)).count .frame

theorem foldl_framesAfter (ops : List Operation) : ops.foldl framesAfter 0 = framesSince ops := by
  unfold framesSince
  rw [List.foldl_eq_foldr_reverse]
  induction ops.reverse with
  | nil => rfl
  | cons op before ih =>
    rw [List.foldr_cons, ih]
    cases op <;> simp [framesAfter]

/-! ### Runs of operations -/

theorem serves_of_framed {is js : List Instruction} {middle last : System Board} {f : Frame}
    (h : m.Framed is middle js last f) : ∃ es, Serves m .frame es f.machine := by
  obtain ⟨e, first, midScreen⟩ := happens_interrupt m middle (v := midScreenVector) (by decide)
  obtain ⟨e', second, endOfScreen⟩ := happens_interrupt m last (v := endOfScreenVector) (by decide)
  rw [h.machine]
  exact ⟨_, .frame h.firstHalf midScreen first h.secondHalf endOfScreen second (.counted h.counted)⟩

/-- An operation overflows a counter, which only a frame can, or consists of
occurrences. -/
theorem operate_cases (m : Machine) (op : Operation) :
    (m.operate op = .error .halfFrameCycles ∧ UInt32.size - 18 < m.halfFrameCycles.toNat) ∨
      (m.operate op = .error .frameCount ∧ UInt64.size ≤ framesAfter m.frames.toNat op) ∨
      ∃ es m', m.operate op = .ok m' ∧ Serves m op es m' := by
  cases op with
  | step =>
    refine .inr (.inr ?_)
    rcases m.system.step_cases Board.device with ⟨halted, step⟩ | ⟨i, fetches, _⟩
    · have stays : (m.steps 1).2 = m := by
        show { m with system := (m.system.step Board.device).2 } = m
        rw [step]
      exact ⟨[], m, congrArg Except.ok stays, .idle halted⟩
    · exact ⟨_, _, rfl, .step (.executed fetches)⟩
  | frame =>
    rcases m.runFrame_cases with ⟨overflow, large⟩ | ⟨overflow, full⟩ | ⟨_, _, _, _, f, ran, framed⟩
    · refine .inl ⟨?_, large⟩
      rw [operate, overflow]
      rfl
    · refine .inr (.inl ⟨?_, Nat.le_of_eq full.symm⟩)
      rw [operate, overflow]
      rfl
    · obtain ⟨es, serves⟩ := serves_of_framed framed
      refine .inr (.inr ⟨es, f.machine, ?_, serves⟩)
      rw [operate, ran]
      rfl
  | button b down => exact .inr (.inr ⟨_, _, rfl, .button⟩)
  | reset => exact .inr (.inr ⟨_, _, rfl, .reset⟩)

/-- A run overflows a counter, or consists of occurrences. -/
theorem run_cases (m : Machine) (ops : List Operation) :
    (m.run ops = .error .halfFrameCycles ∧ UInt32.size - 18 < m.halfFrameCycles.toNat) ∨
      (m.run ops = .error .frameCount ∧ UInt64.size ≤ m.frames.toNat + ops.count .frame) ∨
      ∃ es m', m.run ops = .ok m' ∧ Served m ops es m' := by
  induction ops generalizing m with
  | nil => exact .inr (.inr ⟨[], m, rfl, .nil⟩)
  | cons op ops ih =>
    have counts : framesAfter m.frames.toNat op + ops.count .frame ≤
        m.frames.toNat + (op :: ops).count .frame := by
      cases op <;> simp [framesAfter]; omega
    rcases m.operate_cases op with ⟨failed, large⟩ | ⟨failed, full⟩ | ⟨es, m', done, serves⟩
    · refine .inl ⟨?_, large⟩
      rw [run, failed]
      rfl
    · refine .inr (.inl ⟨?_, by omega⟩)
      rw [run, failed]
      rfl
    · have step : m.run (op :: ops) = m'.run ops := by
        rw [run, done]
        rfl
      rw [step, ← serves.halfFrameCycles]
      rw [← serves.frames] at counts
      rcases ih m' with overflow | ⟨overflow, full⟩ | ⟨fs, m'', ran, served⟩
      · exact .inl overflow
      · exact .inr (.inl ⟨overflow, by omega⟩)
      · exact .inr (.inr ⟨es ++ fs, m'', ran, .cons serves served⟩)

end Machine
end Cabinet

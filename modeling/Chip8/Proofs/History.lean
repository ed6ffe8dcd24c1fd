import Chip8.Proofs.Bounds

/-!
Histories: what a host does to a machine, one action after another. What each action preserves
where it is allowed, a history of allowed actions preserves.
-/

namespace Chip8

open Table (Row outcome)

/-- What goes on while a program runs: steps, ticks and keys. -/
def HostAction.InPlay : HostAction → Prop
  | .step | .tick | .setKey .. => True
  | .loadRom _ | .loadFont _ | .reset | .assign .. => False

namespace Machine

/-- The machine after a history, whose first action comes first. -/
def acts (m : Machine) (history : List HostAction) : Machine := history.foldl act m

/-- Each action of a history is allowed on the machine that it meets. -/
def Along (allowed : Machine → HostAction → Prop) : Machine → List HostAction → Prop
  | _, [] => True
  | m, a :: history => allowed m a ∧ Along allowed (m.act a) history

/-- The next step carries out instruction `i`. -/
def Executes (m : Machine) (i : Instruction) : Prop :=
  m.fault = none ∧ m.awaiting = none ∧
    ∃ word, m.nextWord = .ok word ∧ Instruction.decode word = i

variable {config : Config} {m after : Machine} {allowed : Machine → HostAction → Prop}
  {history : List HostAction} {i : Instruction} {o : Outcome} {cause : Fault}

@[simp] theorem acts_nil (m : Machine) : m.acts [] = m := rfl

@[simp] theorem acts_cons (m : Machine) (a : HostAction) (history : List HostAction) :
    m.acts (a :: history) = (m.act a).acts history := rfl

@[simp] theorem acts_concat (m : Machine) (history : List HostAction) (a : HostAction) :
    m.acts (history ++ [a]) = (m.acts history).act a := List.foldl_concat ..

theorem along_const {p : HostAction → Prop} :
    Along (fun _ => p) m history ↔ ∀ a ∈ history, p a := by
  induction history generalizing m with
  | nil => simp [Along]
  | cons a history ih => simp [Along, ih]

theorem along_concat {a : HostAction} :
    Along allowed m (history ++ [a]) ↔ Along allowed m history ∧ allowed (m.acts history) a := by
  induction history generalizing m with
  | nil => simp [Along]
  | cons b history ih => simp [Along, ih, and_assoc]

/-- What every allowed action preserves, a history of allowed actions preserves. -/
theorem Along.preserves {P : Machine → Prop} (h : Along allowed m history) (hm : P m)
    (hact : ∀ n a, P n → allowed n a → P (n.act a)) : P (m.acts history) := by
  induction history generalizing m with
  | nil => exact hm
  | cons a history ih =>
    obtain ⟨ha, hrest⟩ := h
    exact ih hrest (hact m a hm ha)

theorem Reachable.acts (h : m.Reachable config) (history : List HostAction) :
    (m.acts history).Reachable config := by
  induction history generalizing m with
  | nil => exact h
  | cons a history ih => exact ih (h.act a)

/-- The reachable machines are what histories make of fresh ones. -/
theorem reachable_iff_exists_history : m.Reachable config ↔
    ∃ seed fresh history, Machine.build config seed = .ok fresh ∧ m = fresh.acts history := by
  constructor
  · intro h
    induction h with
    | @build seed fresh h => exact ⟨seed, fresh, [], h, rfl⟩
    | act _ a ih =>
      obtain ⟨seed, fresh, history, hbuild, rfl⟩ := ih
      exact ⟨seed, fresh, history ++ [a], hbuild, (acts_concat ..).symm⟩
  · rintro ⟨seed, fresh, history, hbuild, rfl⟩
    exact (Reachable.build hbuild).acts history

theorem Executes.unique {i j : Instruction} (hi : m.Executes i) (hj : m.Executes j) : i = j := by
  obtain ⟨-, -, word, hword, rfl⟩ := hi
  obtain ⟨-, -, word', hword', rfl⟩ := hj
  rw [Except.ok.inj (hword.symm.trans hword')]

theorem Executes.next_eq (h : m.Executes i) : Execution.next m = i.execute m.pastFetch := by
  obtain ⟨-, -, word, hword, rfl⟩ := h
  rw [Execution.next_apply, hword]

/-- A step goes through where its instruction does. -/
theorem Executes.step_ok (h : m.Executes i) (hi : i.execute m.pastFetch = .ok o after) :
    m.step = ⟨.ok o, after⟩ :=
  step_of_next h.1 h.2.1 (h.next_eq.trans hi)

theorem Executes.step_error (h : m.Executes i) (hi : i.execute m.pastFetch = .error cause after) :
    m.step = ⟨.error (.fault cause), { m with fault := some cause }⟩ :=
  step_of_next_error h.1 h.2.1 (h.next_eq.trans hi)

/-- A step carries out an instruction of the table, or it fails or waits and moves at most the
fault. -/
theorem step_row (m : Machine) :
    (m.step.machine = { m with fault := m.step.machine.fault } ∧
      ∀ i, m.Executes i → ∃ e, m.step.result = .error e) ∨
    ∃ i, m.Executes i ∧ m.step.result = .ok (outcome i) ∧
      Row m.state i m.step.machine.state := by
  rcases step_cases m with ⟨cause, hf, hs⟩ | ⟨r, -, hw, hs⟩ | ⟨o, after, hf, hw, hn, hs⟩ |
      ⟨cause, after, -, -, -, hs⟩ <;> rw [hs]
  · exact .inl ⟨rfl, fun _ _ => ⟨_, rfl⟩⟩
  · refine .inl ⟨rfl, fun i hi => ?_⟩
    cases hi.2.1.symm.trans hw
  · obtain ⟨word, hword, -, rfl, hrow⟩ := row_of_next hn
    exact .inr ⟨_, ⟨hf, hw, word, hword, rfl⟩, rfl, hrow⟩
  · exact .inl ⟨rfl, fun _ _ => ⟨_, rfl⟩⟩

theorem Executes.row (h : m.Executes i) (ho : m.step.result = .ok o) :
    Row m.state i m.step.machine.state := by
  rcases m.step_row with ⟨-, hfails⟩ | ⟨j, hj, -, hrow⟩
  · obtain ⟨e, he⟩ := hfails i h
    cases ho.symm.trans he
  · obtain rfl := h.unique hj
    exact hrow

/-- A wait begins only where a step carries out the instruction that asks for a key. -/
theorem step_awaiting (hw : m.awaiting = none) (hi : ∀ x, ¬m.Executes (.awaitKey x)) :
    m.step.machine.awaiting = none := by
  rcases m.step_row with ⟨hs, -⟩ | ⟨i, hexec, -, hrow⟩
  · rw [hs]
    exact hw
  · rcases hrow.awaiting_cases with hsame | ⟨x, rfl, -⟩
    · exact hsame.trans hw
    · exact absurd hexec (hi x)

end Machine

end Chip8

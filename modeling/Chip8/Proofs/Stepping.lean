import Chip8.Proofs.KeyWait

/-!
Steps add up. Some steps and then some more come to what all of them at once come to, wherever the
two are parted. An error ends them for good, and so does a key wait, since a machine that waits
does nothing in any further step.
-/

namespace Chip8

open Table (outcome)

namespace Machine

variable {m : Machine} {r : Nibble}

theorem outcome_eq_waiting {i : Instruction} (h : outcome i = .waiting r) : i = .awaitKey r := by
  cases i <;> cases h
  rfl

/-- A machine that answers that it waits answers so again, and stays as it is. -/
theorem step_of_waiting (h : m.step.result = .ok (.waiting r)) :
    m.step.machine.step = ⟨.ok (.waiting r), m.step.machine⟩ := by
  rcases m.step_cases with ⟨cause, -, hs⟩ | ⟨x, -, -, hs⟩ | ⟨o, after, hf, hw, hn, hs⟩ |
      ⟨cause, after, -, -, -, hs⟩
  · rw [hs] at h
    cases h
  · rw [hs] at h ⊢
    cases h
    exact hs
  · rw [hs] at h
    cases h
    obtain ⟨word, hword, -, ho, -⟩ := row_of_next hn
    have hexecutes : m.Executes (.awaitKey r) :=
      ⟨hf, hw, word, hword, outcome_eq_waiting ho.symm⟩
    rw [hexecutes.step_awaitKey]
    exact step_of_awaiting hf rfl
  · rw [hs] at h
    cases h

end Machine

namespace Debugger

variable {m : Machine} {r : Nibble}

theorem stepMachine_of_waiting (h : m.step = ⟨.ok (.waiting r), m⟩) (n : Nat) :
    stepMachine n m = (.ok (), m) := by
  cases n with
  | zero => rfl
  | succ n => rw [stepMachine, h]

theorem stepMachine_add (n k : Nat) (m : Machine) :
    stepMachine (n + k) m = match stepMachine n m with
      | (.ok (), after) => stepMachine k after
      | (.error e, after) => (.error e, after) := by
  induction n generalizing m with
  | zero => rw [Nat.zero_add, stepMachine]
  | succ n ih =>
    rw [Nat.succ_add, stepMachine, stepMachine]
    rcases hresult : m.step.result with e | o
    · rfl
    · cases o with
      | advanced | drew => exact ih m.step.machine
      | waiting r => exact (stepMachine_of_waiting (Machine.step_of_waiting hresult) k).symm

/-- What steps do is told by the machine alone, and the machine is all that they move. -/
theorem perform_step (d : Debugger) (count : UInt16) :
    d.perform (.step count) =
      let stepped := stepMachine count.toNat d.machine
      ((stepped.1.map fun _ => .done).mapError .stepFailed, d.withMachine stepped.2) := by
  rw [perform]
  rcases stepMachine count.toNat d.machine with ⟨_ | _, after⟩ <;> rfl

/-- No steps do nothing, and one is a step of the machine. Some steps and then some more answer and
do what all of them do at once, as long as the first ones go through; if those fail, all of them
fail in the same way. It is so from every debugger: its breakpoints and whether it runs have no
part in it and stay as they are, and a draw, a key wait or a latched fault makes no difference. -/
theorem steps_add_up (d : Debugger) :
    d.perform (.step 0) = (.ok .done, d) ∧
    (d.perform (.step 1) = match d.machine.step.result with
      | .ok _ => (.ok .done, d.withMachine d.machine.step.machine)
      | .error e => (.error (.stepFailed e), d.withMachine d.machine.step.machine)) ∧
    (∀ m n : UInt16, m.toNat + n.toNat ≤ 65535 →
      let first := d.perform (.step m)
      let whole := d.perform (.step (m + n))
      (∀ reply, first.1 = .ok reply → first.2.perform (.step n) = whole) ∧
      ∀ e, first.1 = .error e → whole = first) ∧
    ∀ count stops running,
      let stepped := d.perform (.step count)
      stepped.2 = d.withMachine stepped.2.machine ∧
      { d with breakpoints := stops, running }.perform (.step count) =
        (stepped.1, { stepped.2 with breakpoints := stops, running }) := by
  refine ⟨rfl, ?one, ?sum, ?frame⟩
  case one =>
    rw [perform_step]
    have hone : stepMachine (1 : UInt16).toNat d.machine =
        (d.machine.step.result.map fun _ => (), d.machine.step.machine) := by
      change stepMachine 1 d.machine = _
      rw [stepMachine]
      rcases d.machine.step.result with e | o
      · rfl
      · cases o <;> rfl
    rw [hone]
    rcases d.machine.step.result with e | o <;> rfl
  case sum =>
    intro m n hsum first whole
    have hwhole : whole = _ := d.perform_step (m + n)
    have htoNat : (m + n).toNat = m.toNat + n.toNat := by
      rw [UInt16.toNat_add, Nat.mod_eq_of_lt (Nat.lt_succ_of_le hsum)]
    rw [htoNat, stepMachine_add] at hwhole
    have hfirst : first = _ := d.perform_step m
    rcases hstepped : stepMachine m.toNat d.machine with ⟨e | ⟨⟩, after⟩ <;>
      rw [hstepped] at hwhole hfirst
    · refine ⟨fun reply h => ?_, fun _ _ => hwhole.trans hfirst.symm⟩
      rw [hfirst] at h
      cases h
    · refine ⟨fun _ _ => ?_, fun e h => ?_⟩
      · rw [hwhole, hfirst]
        exact perform_step (d.withMachine after) n
      · rw [hfirst] at h
        cases h
  case frame =>
    intro count stops running stepped
    have hstepped : stepped = _ := d.perform_step count
    refine ⟨?_, ?_⟩
    · rw [hstepped]
      rfl
    · rw [hstepped]
      exact perform_step _ count

/-- A running debugger on a program that draws, asks for a key and then returns from no call. It has
a breakpoint where it will wait. -/
def askingAfterDraw : Debugger :=
  { start { Machine.powerOn {} 0 with
      memory := ⟨overlay Memory.zero.bytes 0x200 [0xD0, 0x01, 0xF1, 0x0A, 0x00, 0xEE]⟩ } with
    running := true, breakpoints := Breakpoints.none.insert 0x204 }

/-- The wait ends the steps, be they parted before it or not. Once a key has gone down, the return
fails, and the steps that would have come after it are not made. -/
theorem steps_add_up_askingAfterDraw :
    let drawn := askingAfterDraw.perform (.step 1)
    let waiting := drawn.2.perform (.step 65534)
    let resumed := waiting.2.withMachine (waiting.2.machine.setKey 7 true)
    let failed := resumed.perform (.step 1)
    drawn.1 = .ok .done ∧ (1 : UInt16).toNat + (65534 : UInt16).toNat ≤ 65535 ∧
      waiting = askingAfterDraw.perform (.step 65535) ∧
      waiting.1 = .ok .done ∧ waiting.2.machine.awaiting = some 1 ∧
      waiting.2.running = true ∧
      failed.1 = .error (.stepFailed (.fault .stackUnderflow)) ∧
      resumed.perform (.step 4) = failed := by
  intro drawn waiting resumed failed
  have hdrawn : drawn.1 = .ok .done := by decide +kernel
  have hfailed : failed.1 = .error (.stepFailed (.fault .stackUnderflow)) := by decide +kernel
  obtain ⟨hanswer, hwait⟩ : waiting.1 = .ok .done ∧ waiting.2.machine.awaiting = some 1 := by
    decide +kernel
  obtain ⟨-, -, hsum, hframe⟩ := steps_add_up askingAfterDraw
  have hwaiting : waiting = askingAfterDraw.perform (.step 65535) :=
    (hsum 1 65534 (by decide)).1 .done hdrawn
  have hrunning : waiting.2.running = true := by
    rw [hwaiting, (hframe 65535 .none true).1]
    rfl
  exact ⟨hdrawn, by decide, hwaiting, hanswer, hwait, hrunning, hfailed,
    ((steps_add_up resumed).2.2.1 1 3 (by decide)).2 _ hfailed⟩

end Debugger

end Chip8

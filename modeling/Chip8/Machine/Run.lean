import Chip8.Machine.Step

/-!
Several steps in a row, up to the first error.
-/

namespace Chip8.Machine

/-- The steps made, the first one first. -/
def steps : Nat → Machine → List Step
  | 0, _ => []
  | n + 1, m =>
    let s := m.step
    match s.result with
    | .error _ => [s]
    | .ok _ => s :: steps n s.machine

structure Run where
  machine : Machine
  count : Nat
  last : Option (Except StepError Outcome)

/-- What `steps` comes to, without keeping the machines in between. -/
def run (limit : Nat) (m : Machine) : Run := go limit ⟨m, 0, none⟩
where
  go : Nat → Run → Run
    | 0, r => r
    | n + 1, r =>
      let s := r.machine.step
      let r := ⟨s.machine, r.count + 1, some s.result⟩
      match s.result with
      | .error _ => r
      | .ok _ => go n r

end Chip8.Machine

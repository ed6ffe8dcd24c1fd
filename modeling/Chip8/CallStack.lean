import Chip8.Fault

/-!
The bounded stack of return addresses.
-/

namespace Chip8

@[ext] structure CallStack where
  depth : Nat
  /-- The innermost call comes first. -/
  entries : List UInt16
  deriving DecidableEq, Repr

namespace CallStack

def empty (depth : Nat) : CallStack := ⟨depth, []⟩

def push (s : CallStack) (a : UInt16) : Except Fault CallStack :=
  if s.entries.length < s.depth then .ok { s with entries := a :: s.entries }
  else .error (.stackOverflow s.depth)

def pop (s : CallStack) : Except Fault (UInt16 × CallStack) :=
  match s.entries with
  | [] => .error .stackUnderflow
  | a :: rest => .ok (a, { s with entries := rest })

def clear (s : CallStack) : CallStack := { s with entries := [] }

theorem pop_push {s t : CallStack} {a : UInt16} (h : s.push a = .ok t) : t.pop = .ok (a, s) := by
  rw [push] at h
  split at h
  · obtain rfl := Except.ok.inj h
    rfl
  · simp at h

theorem push_cases (s : CallStack) (a : UInt16) :
    (s.entries.length < s.depth ∧ s.push a = .ok { s with entries := a :: s.entries }) ∨
    (s.depth ≤ s.entries.length ∧ s.push a = .error (.stackOverflow s.depth)) := by
  by_cases h : s.entries.length < s.depth
  · exact .inl ⟨h, if_pos h⟩
  · exact .inr ⟨Nat.not_lt.mp h, if_neg h⟩

theorem pop_cases (s : CallStack) :
    (∃ a rest, s.entries = a :: rest ∧ s.pop = .ok (a, { s with entries := rest })) ∨
    (s.entries = [] ∧ s.pop = .error .stackUnderflow) := by
  rcases h : s.entries with _ | ⟨a, rest⟩
  · exact .inr ⟨rfl, by rw [pop, h]⟩
  · exact .inl ⟨a, rest, rfl, by rw [pop, h]⟩

/-- The outermost call comes first. -/
def fromBottom (s : CallStack) : List UInt16 := s.entries.reverse

end CallStack

end Chip8

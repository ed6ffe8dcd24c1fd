import Chip8.Proofs.History

/-!
The random bytes of a run. Each instruction that loads a random byte takes the next one of the
stream of the seed, whatever of it is kept, and nothing else takes any. So the bytes that a program
gets depend on the seed and on how many it got before, and on nothing that it or its host does.
-/

namespace Chip8

/-- The random instructions take a byte each, and no others do. -/
theorem Table.Row.random_eq {s s' : State} {i : Instruction} (h : Row s i s')
    (hi : ∀ x nn, i ≠ .random x nn) : s'.random = s.random := by
  cases h with
  | random => exact absurd rfl (hi _ _)
  | _ => rfl

/-- What a random instruction leaves in its register, and its operands. -/
structure RandomLoad where
  register : Nibble
  mask : UInt8
  value : UInt8
  deriving DecidableEq, Repr

namespace Machine

/-- The random load that an action carries out, if it does one. -/
def randomLoad? (m : Machine) : HostAction → Option RandomLoad
  | .step =>
    match m.fault, m.awaiting, m.nextWord with
    | none, none, .ok word =>
      match Instruction.decode word with
      | .random x nn => some ⟨x, nn, m.step.machine.v.get x⟩
      | _ => none
    | _, _, _ => none
  | _ => none

/-- The random loads of a history, the first one first. -/
def randomLoads (m : Machine) : List HostAction → List RandomLoad
  | [] => []
  | a :: history => (m.randomLoad? a).toList ++ (m.act a).randomLoads history

variable {config : Config} {seed : UInt64} {m fresh : Machine} {a : HostAction}
  {history : List HostAction} {l : RandomLoad} {x : Nibble} {nn : UInt8}

theorem randomLoad?_step (h : m.Executes (.random x nn)) :
    m.randomLoad? .step = some ⟨x, nn, m.step.machine.v.get x⟩ := by
  obtain ⟨hf, hw, word, hword, hdecode⟩ := h
  unfold randomLoad?
  simp only [hf, hw, hword, hdecode]

theorem executes_of_randomLoad? (h : m.randomLoad? a = some l) :
    a = .step ∧ m.Executes (.random l.register l.mask) ∧
      l.value = m.step.machine.v.get l.register := by
  unfold randomLoad? at h
  split at h
  · split at h
    · rename_i hf hw hword
      split at h
      · rename_i hdecode
        cases h
        exact ⟨rfl, ⟨hf, hw, _, hword, hdecode⟩, rfl⟩
      · cases h
    · cases h
  · cases h

/-- A random load takes the next byte of the stream and keeps what its mask leaves of it. -/
theorem random_of_some (h : m.randomLoad? a = some l) :
    l.value = m.random.peek &&& l.mask ∧ (m.act a).random = m.random.advance := by
  obtain ⟨rfl, hexec, hvalue⟩ := executes_of_randomLoad? h
  have hstep := hexec.step_ok (Instruction.execute_random ..)
  refine ⟨?_, congrArg (fun s => s.machine.random) hstep⟩
  rw [hvalue, hstep]
  exact (get_setAt ..).trans (if_pos rfl)

/-- Whatever else happens leaves the stream where it is. -/
theorem random_of_none (h : m.randomLoad? a = none) : (m.act a).random = m.random := by
  cases a with
  | step =>
    rcases m.step_row with ⟨hs, -⟩ | ⟨i, hi, -, hrow⟩
    · rw [act, hs]
    · refine hrow.random_eq fun x nn hrandom => ?_
      subst hrandom
      cases (randomLoad?_step hi).symm.trans h
  | setKey k pressed => rcases m.setKey_cases k pressed with hs | ⟨r, -, hs⟩ <;> rw [act, hs]
  | loadRom rom => rcases m.act_loadRom rom with hs | ⟨-, hs⟩ <;> rw [hs]
  | tick | loadFont | reset => rfl
  | assign target value =>
    rcases m.act_assign target value with hs | hs
    · rw [hs]
    · rw [(Debugger.of_setTarget hs).2]

theorem randomLoads_of_none (h : m.randomLoad? a = none) :
    m.randomLoads (a :: history) = (m.act a).randomLoads history := by
  rw [randomLoads, h]
  rfl

theorem randomLoads_of_some (h : m.randomLoad? a = some l) :
    m.randomLoads (a :: history) = l :: (m.act a).randomLoads history := by
  rw [randomLoads, h]
  rfl

theorem random_acts (m : Machine) (history : List HostAction) :
    (m.acts history).random =
      ⟨m.random.seed, m.random.position + (m.randomLoads history).length⟩ := by
  induction history generalizing m with
  | nil => rfl
  | cons a history ih =>
    rw [acts_cons, ih]
    rcases h : m.randomLoad? a with _ | l
    · rw [randomLoads_of_none h, random_of_none h]
    · rw [randomLoads_of_some h, (random_of_some h).2, List.length_cons, Nat.add_comm _ 1,
        ← Nat.add_assoc]
      rfl

theorem value_randomLoads (m : Machine) (history : List HostAction) (j : Nat)
    (hj : j < (m.randomLoads history).length) :
    (m.randomLoads history)[j].value =
      RandomStream.byteAt m.random.seed (m.random.position + j) &&&
        (m.randomLoads history)[j].mask := by
  induction history generalizing m j with
  | nil => cases hj
  | cons a history ih =>
    -- A load of the first action is load 0, and then the rest of the stream is one byte on.
    rcases h : m.randomLoad? a with _ | l
    · simp only [randomLoads_of_none h] at hj ⊢
      rw [ih (m.act a) j hj, random_of_none h]
    · obtain ⟨hvalue, hadvance⟩ := random_of_some h
      simp only [randomLoads_of_some h] at hj ⊢
      cases j with
      | zero => exact hvalue
      | succ j =>
        have hj := Nat.lt_of_succ_lt_succ hj
        have hplace : m.random.position + (j + 1) = m.random.position + 1 + j := by omega
        rw [List.getElem_cons_succ, ih (m.act a) j hj, hadvance, hplace]
        rfl

theorem random_of_build (h : build config seed = .ok fresh) :
    fresh.random = .start (config.seed.getD seed) := by
  obtain ⟨-, -, rfl⟩ := of_build h
  rfl

/-- Load `j` of a run keeps, of byte `j` of the stream of its seed, what its mask leaves, and it
takes that byte even if it leaves nothing. No other step takes any, nor does the host, whatever is
loaded, reset or refused. So runs of other programs on other machines with that seed get the same
bytes in the same order. -/
theorem random_bytes_in_order (h : build config seed = .ok fresh) (history : List HostAction) :
    let source := config.seed.getD seed
    let loads := fresh.randomLoads history
    let now := fresh.acts history
    (∀ j, (hj : j < loads.length) →
      loads[j].value = RandomStream.byteAt source j &&& loads[j].mask) ∧
    now.random = ⟨source, loads.length⟩ ∧
    (∀ x nn, now.Executes (.random x nn) →
      now.step.machine.v.get x = RandomStream.byteAt source loads.length &&& nn ∧
        now.step.machine.random = ⟨source, loads.length + 1⟩) ∧
    (∀ a, (∀ x nn, a = .step → ¬now.Executes (.random x nn)) →
      (now.act a).random = now.random) ∧
    ∀ config' seed' fresh' history', build config' seed' = .ok fresh' →
      config'.seed.getD seed' = source →
      let loads' := fresh'.randomLoads history'
      ∀ j, (hj : j < loads.length) → (hj' : j < loads'.length) → loads[j].mask = loads'[j].mask →
        loads[j].value = loads'[j].value := by
  intro source loads now
  have hstart := random_of_build h
  have hvalue : ∀ j, (hj : j < loads.length) →
      loads[j].value = RandomStream.byteAt source j &&& loads[j].mask := by
    intro j hj
    have hj := value_randomLoads fresh history j hj
    rwa [hstart, RandomStream.start, Nat.zero_add] at hj
  have hnow : now.random = ⟨source, loads.length⟩ := by
    rw [random_acts, hstart, RandomStream.start, Nat.zero_add]
  refine ⟨hvalue, hnow, ?_, ?_, ?_⟩
  · intro x nn hexec
    obtain ⟨hkept, hadvance⟩ := random_of_some (randomLoad?_step hexec)
    rw [hnow] at hkept hadvance
    exact ⟨hkept, hadvance⟩
  · intro a hother
    apply random_of_none
    by_contra hload
    obtain ⟨l, hl⟩ := Option.ne_none_iff_exists'.mp hload
    obtain ⟨hstep, hexec, -⟩ := executes_of_randomLoad? hl
    exact hother _ _ hstep hexec
  · intro config' seed' fresh' history' h' hsource loads' j hj hj' hmask
    have hvalue' := value_randomLoads fresh' history' j hj'
    rw [random_of_build h', hsource, RandomStream.start, Nat.zero_add] at hvalue'
    rw [hvalue, hvalue', hmask]

/-- A byte into V0 and one into V1 that is masked out. After a reset the first comes again. -/
def resetBetween : List HostAction :=
  [.loadRom [0xC0, 0x3F, 0xC1, 0x00], .step, .step, .reset, .step]

/-- The byte that was masked out is gone, and after the reset comes the third of the stream. -/
theorem random_bytes_in_order_resetBetween :
    let m := powerOn {} 7
    m.randomLoads resetBetween =
        [⟨0, 0x3F, RandomStream.byteAt 7 0 &&& 0x3F⟩, ⟨1, 0, RandomStream.byteAt 7 1 &&& 0⟩,
          ⟨0, 0x3F, RandomStream.byteAt 7 2 &&& 0x3F⟩] ∧
      (m.acts resetBetween).random = ⟨7, 3⟩ := by
  intro m
  have hbuild : build {} 7 = .ok m := rfl
  have hoperands : (m.randomLoads resetBetween).map (fun l => (l.register, l.mask)) =
      [(0, 0x3F), (1, 0), (0, 0x3F)] := by decide +kernel
  obtain ⟨hvalues, hnow, -⟩ := random_bytes_in_order hbuild resetBetween
  rw [hnow]
  generalize m.randomLoads resetBetween = loads at hvalues hoperands
  match loads with
  | [⟨_, _, first⟩, ⟨_, _, second⟩, ⟨_, _, third⟩] =>
    cases hoperands
    have hfirst : first = RandomStream.byteAt 7 0 &&& 0x3F := hvalues 0 (Nat.succ_pos 2)
    have hsecond : second = RandomStream.byteAt 7 1 &&& 0 := hvalues 1 (Nat.le_succ 2)
    have hthird : third = RandomStream.byteAt 7 2 &&& 0x3F := hvalues 2 (Nat.lt_succ_self 2)
    rw [hfirst, hsecond, hthird]
    exact ⟨rfl, rfl⟩

end Machine

end Chip8

import Chip8.Proofs.History

/-!
Lenient settings. A machine that passes over unknown words, or that has room for more calls, is in
step with a strict one until the strict one stops at an unknown word or at a full stack. Nothing
else that a machine does depends on these two settings.
-/

namespace Chip8

/-- The settings of a machine that may pass over unknown words where another stops, and may have
room for more calls. -/
structure Config.Relaxes (lenient strict : Config) : Prop where
  eq_with : lenient = { strict with
    unknownOpcodes := lenient.unknownOpcodes, stackDepth := lenient.stackDepth }
  unknown : lenient.unknownOpcodes = .ignore ∨ lenient.unknownOpcodes = strict.unknownOpcodes
  depth_le : strict.stackDepth ≤ lenient.stackDepth

/-- A fault that lenient settings may spare a program. -/
def Fault.Tolerable : Fault → Prop
  | .stackOverflow _ | .unknownOpcode _ => True
  | .memoryOutOfBounds _ | .stackUnderflow => False

/-- What a host is told of an action. -/
inductive HostAnswer where
  | stepped (result : Except StepError Outcome)
  | loaded (result : Except RomTooLarge Unit)
  | assigned (result : Except CommandError Unit)
  | done

namespace Machine

def answer (m : Machine) : HostAction → HostAnswer
  | .step => .stepped m.step.result
  | .loadRom rom => .loaded ((m.loadRom rom).map fun _ => ())
  | .assign target value => .assigned ((Debugger.setTarget m target value).map fun _ => ())
  | .setKey .. | .tick | .loadFont _ | .reset => .done

/-- What a host is told along a history. -/
def answers (m : Machine) : List HostAction → List HostAnswer
  | [] => []
  | a :: history => m.answer a :: (m.act a).answers history

/-- The machine with other settings; of the stack only the bound is another. -/
def withSettings (m : Machine) (c : Config) : Machine :=
  { m with config := c, stack := { m.stack with depth := c.stackDepth } }

/-- An action that does not stop the machine for a fault that lenient settings may spare it. -/
def Spared (m : Machine) (a : HostAction) : Prop :=
  a = .step → ∀ cause, m.step.result = .error (.fault cause) → ¬cause.Tolerable

end Machine

theorem Machine.skipIf_withSettings (m : Machine) (c : Config) (condition : Bool) :
    (m.withSettings c).skipIf condition = (m.skipIf condition).withSettings c := by
  cases condition <;> rfl

namespace Execution

variable {α : Type}

/-- The end of an execution on a machine with other settings. -/
def onSettings (c : Config) : EStateM.Result Fault Machine α → EStateM.Result Fault Machine α
  | .ok a after => .ok a (after.withSettings c)
  | .error cause after => .error cause (after.withSettings c)

end Execution

open Execution

variable {c config : Config} {m : Machine}

/-- A return finds what it found. -/
theorem Instruction.execute_ret_withSettings (m : Machine) (c : Config) :
    ret.execute (m.withSettings c) = onSettings c (ret.execute m) := by
  rw [execute_ret, execute_ret]
  rcases m.stack.pop_cases with ⟨a, rest, hs, hp⟩ | ⟨hs, hp⟩
  · have hp' : (m.withSettings c).stack.pop = .ok (a, ⟨c.stackDepth, rest⟩) := by
      rw [Machine.withSettings, CallStack.pop, hs]
    rw [hp, hp']
    rfl
  · have hp' : (m.withSettings c).stack.pop = .error .stackUnderflow := by
      rw [Machine.withSettings, CallStack.pop, hs]
    rw [hp, hp']
    rfl

/-- A call that fits the stack fits a stack with more room. -/
theorem Instruction.execute_call_withSettings {nnn : Address}
    (hc : m.stack.depth ≤ c.stackDepth)
    (h : ∀ cause after, (call nnn).execute m = .error cause after → ¬cause.Tolerable) :
    (call nnn).execute (m.withSettings c) = onSettings c ((call nnn).execute m) := by
  rw [execute_call] at h ⊢
  rw [execute_call]
  rcases m.stack.push_cases m.pc with ⟨hroom, hp⟩ | ⟨-, hp⟩ <;> rw [hp] at h ⊢
  · have hp' : (m.withSettings c).stack.push (m.withSettings c).pc =
        .ok ⟨c.stackDepth, m.pc :: m.stack.entries⟩ :=
      if_pos (Nat.lt_of_lt_of_le hroom hc)
    rw [hp']
    rfl
  · exact absurd trivial (h _ _ rfl)

theorem Instruction.execute_unknown_withSettings {word : UInt16}
    (h : ∀ cause after, (unknown word).execute m = .error cause after → ¬cause.Tolerable)
    (hc : c.unknownOpcodes = .ignore ∨ c.unknownOpcodes = m.config.unknownOpcodes) :
    (unknown word).execute (m.withSettings c) = onSettings c ((unknown word).execute m) := by
  rw [execute_unknown] at h ⊢
  rw [execute_unknown]
  rcases hm : m.config.unknownOpcodes with _ | _ <;> rw [hm] at h hc
  · exact absurd trivial (h _ _ rfl)
  · have hignore : (m.withSettings c).config.unknownOpcodes = .ignore := hc.elim id id
    rw [hignore]
    rfl

/-- An instruction whose fault the settings could not spare does with lenient settings what it does
with strict ones. -/
theorem Instruction.execute_withSettings (i : Instruction) (hc : c.Relaxes m.config)
    (hdepth : m.stack.depth = m.config.stackDepth)
    (h : ∀ cause after, i.execute m = .error cause after → ¬cause.Tolerable) :
    i.execute (m.withSettings c) = onSettings c (i.execute m) := by
  cases i with
  | ret => exact execute_ret_withSettings m c
  | call nnn => exact execute_call_withSettings (hdepth ▸ hc.depth_le) h
  | unknown word => exact execute_unknown_withSettings h hc.unknown
  | alu x y op => cases op <;> rfl
  | draw x y n =>
    have hrows : (m.withSettings c).spriteRows y n = m.spriteRows y n := rfl
    rw [execute_draw, execute_draw, hrows]
    cases m.spriteRows y n <;> rfl
  | addIndex x =>
    rw [execute_addIndex, execute_addIndex]
    dsimp only [Machine.withSettings]
    split <;> rfl
  | storeDecimal x =>
    rw [execute_storeDecimal, execute_storeDecimal]
    dsimp only [Machine.withSettings]
    cases m.memory.splice m.index.toNat (Machine.decimalDigits (m.v.get x)) <;> rfl
  | saveRegisters x =>
    rw [execute_saveRegisters, execute_saveRegisters]
    dsimp only [Machine.withSettings]
    cases m.memory.splice m.index.toNat (m.v.toList.take (x.val + 1)) <;> rfl
  | restoreRegisters x =>
    rw [execute_restoreRegisters, execute_restoreRegisters]
    dsimp only [Machine.withSettings]
    cases m.memory.slice m.index.toNat (x.val + 1) <;> rfl
  | skipEqByte | skipNeByte | skipEqRegister | skipNeRegister | skipKeyDown | skipKeyUp =>
    exact congrArg (EStateM.Result.ok Outcome.advanced) (m.skipIf_withSettings c _)
  | _ => rfl

/-- A word that is unknown is unknown whatever the settings, and lenient ones pass over it. -/
theorem Execution.next_ignore {word : UInt16} {after : Machine}
    (h : next m = .error (.unknownOpcode word) after) (hc : c.unknownOpcodes = .ignore) :
    next (m.withSettings c) = .ok .advanced { m.withSettings c with pc := m.pc + 2 } := by
  obtain hw | ⟨w, hw, hfails⟩ := Machine.cause_of_next h
  · obtain ⟨-, hcause⟩ := Memory.readWord_eq_error.mp hw
    cases hcause
  · have hw' : (m.withSettings c).nextWord = .ok w := hw
    generalize hi : Instruction.decode w = i at hfails
    cases hfails with
    | unknown =>
      rw [next_apply, hw']
      dsimp only
      rw [hi, Instruction.execute_unknown]
      have hignore : (m.withSettings c).pastFetch.config.unknownOpcodes = .ignore := hc
      rw [hignore]
      rfl

theorem Execution.next_withSettings (hc : c.Relaxes m.config)
    (hdepth : m.stack.depth = m.config.stackDepth)
    (h : ∀ cause after, next m = .error cause after → ¬cause.Tolerable) :
    next (m.withSettings c) = onSettings c (next m) := by
  have hword : (m.withSettings c).nextWord = m.nextWord := rfl
  rw [next_apply] at h ⊢
  rw [next_apply, hword]
  rcases hw : m.nextWord with cause | word <;> rw [hw] at h
  · rfl
  · exact (Instruction.decode word).execute_withSettings (m := m.pastFetch) hc hdepth h

namespace Machine

/-- With lenient settings a machine makes the step that it makes with strict ones, unless that is
where the strict ones stop it. -/
theorem step_withSettings (hc : c.Relaxes m.config) (hdepth : m.stack.depth = m.config.stackDepth)
    (h : m.Spared .step) :
    (m.withSettings c).step = ⟨m.step.result, m.step.machine.withSettings c⟩ := by
  have hspared := h rfl
  rcases step_cases m with ⟨cause, hf, hs⟩ | ⟨r, hf, hw, hs⟩ | ⟨o, after, hf, hw, hn, hs⟩ |
      ⟨cause, after, hf, hw, hn, hs⟩ <;> rw [hs] at hspared ⊢
  · exact step_of_fault (m := m.withSettings c) hf
  · exact step_of_awaiting (m := m.withSettings c) hf hw
  · have hnext : Execution.next (m.withSettings c) = .ok o (after.withSettings c) := by
      rw [next_withSettings hc hdepth (by rw [hn]; nofun), hn]
      rfl
    exact step_of_next (m := m.withSettings c) hf hw hnext
  · have htolerable : ¬cause.Tolerable := hspared cause rfl
    have hnext : Execution.next (m.withSettings c) = .error cause (after.withSettings c) := by
      rw [next_withSettings hc hdepth (by rw [hn]; rintro _ _ ⟨⟩; exact htolerable), hn]
      rfl
    exact step_of_next_error (m := m.withSettings c) hf hw hnext

theorem setTarget_withSettings (m : Machine) (c : Config) (target : SetTarget) (value : UInt16) :
    Debugger.setTarget (m.withSettings c) target value =
      (Debugger.setTarget m target value).map (·.withSettings c) := by
  cases target with
  | index => rfl
  | register x | delayTimer | soundTimer | pc =>
    unfold Debugger.setTarget
    dsimp only
    split <;> rfl

theorem writeRom_withSettings (m : Machine) (c : Config) (rom : List UInt8) :
    writeRom rom (m.withSettings c) = match writeRom rom m with
      | .ok () after => .ok () (after.withSettings c)
      | .error refusal after => .error refusal (after.withSettings c) := by
  rcases writeRom_cases rom m with ⟨hlen, h⟩ | ⟨hlen, h⟩ <;> rw [h]
  · exact ((writeRom_cases rom (m.withSettings c)).resolve_right fun h' =>
      absurd h'.1 (Nat.not_le.mpr hlen)).2
  · exact ((writeRom_cases rom (m.withSettings c)).resolve_left fun h' =>
      absurd hlen (Nat.not_le.mpr h'.1)).2

theorem setKey_withSettings (m : Machine) (c : Config) (k : Nibble) (pressed : Bool) :
    (m.withSettings c).setKey k pressed = (m.setKey k pressed).withSettings c := by
  have hcompletes : (m.withSettings c).completes k pressed = m.completes k pressed := rfl
  rw [setKey, setKey, hcompletes]
  cases m.completes k pressed <;> rfl

/-- A step that does not fail is one that the settings could spare nothing. -/
theorem spared_of_ok {o : Outcome} (h : m.step.result = .ok o) : m.Spared .step := by
  rintro - cause hcause
  cases h.symm.trans hcause

/-- What a host does to a machine with lenient settings does what it does to one with strict ones,
and the host is told the same. -/
theorem act_withSettings (hc : c.Relaxes m.config) (hdepth : m.stack.depth = m.config.stackDepth)
    {a : HostAction} (h : m.Spared a) :
    (m.withSettings c).act a = (m.act a).withSettings c ∧
      (m.withSettings c).answer a = m.answer a := by
  cases a with
  | step =>
    have hs := step_withSettings hc hdepth h
    exact ⟨congrArg Step.machine hs, by rw [answer, answer, hs]⟩
  | setKey k pressed => exact ⟨m.setKey_withSettings c k pressed, rfl⟩
  | loadRom rom =>
    rw [act, act, answer, answer, loadRom, loadRom, writeRom_withSettings]
    cases writeRom rom m <;> exact ⟨rfl, rfl⟩
  | tick | loadFont | reset => exact ⟨rfl, rfl⟩
  | assign target value =>
    rw [act, act, answer, answer, setTarget_withSettings]
    cases Debugger.setTarget m target value <;> exact ⟨rfl, rfl⟩

variable {fresh : Machine} {history : List HostAction}

/-- While the settings could spare the strict machine nothing, a lenient one keeps up with it. -/
theorem acts_withSettings (hfresh : fresh.Reachable config) (hc : c.Relaxes config)
    (hh : Along Spared fresh history) :
    (fresh.withSettings c).acts history = (fresh.acts history).withSettings c ∧
      (fresh.withSettings c).answers history = fresh.answers history := by
  induction history generalizing fresh with
  | nil => exact ⟨rfl, rfl⟩
  | cons a history ih =>
    obtain ⟨ha, hrest⟩ := hh
    have hbounded := hfresh.bounded
    have hconfig : c.Relaxes fresh.config := by rwa [hbounded.config_eq]
    have hdepth : fresh.stack.depth = fresh.config.stackDepth := by
      rw [hbounded.depth_eq, hbounded.config_eq]
    obtain ⟨hact, hanswer⟩ := act_withSettings hconfig hdepth ha
    obtain ⟨hacts, hanswers⟩ := ih (hfresh.act a) hrest
    constructor
    · rw [acts_cons, hact, hacts, acts_cons]
    · rw [answers, hact, hanswer, hanswers, answers]

/-- Two machines that are built alike but for the two settings start alike. The host's seed counts
only where the settings have none. -/
theorem powerOn_withSettings {seed seed' : UInt64} (hc : c.Relaxes config)
    (hseed : config.seed = none → seed' = seed) :
    powerOn c seed' = (powerOn config seed).withSettings c := by
  have hrandom : config.seed.getD seed' = config.seed.getD seed := by
    rcases hs : config.seed with _ | given
    · exact hseed hs
    · rfl
  rw [hc.eq_with, powerOn, powerOn, hrandom]
  rfl

/-- Two machines are built alike, with the same source of random bytes, but that the second may pass
over unknown words and may have room for more calls. Until the first stops at an unknown word or at
a full stack, the host is told the same by both after every action, faults included, and they differ
in these settings alone. Where the first stops at an unknown word, one that passes over it goes on,
and its program counter is all that moves. -/
theorem lenient_keeps_up {seed seed' : UInt64} {strict lenient : Machine} (hc : c.Relaxes config)
    (hseed : config.seed = none → seed' = seed) (hstrict : Machine.build config seed = .ok strict)
    (hlenient : Machine.build c seed' = .ok lenient) (hh : Along Spared strict history) :
    lenient.answers history = strict.answers history ∧
      lenient.acts history = (strict.acts history).withSettings c ∧
      (c.unknownOpcodes = .ignore → ∀ word,
        (strict.acts history).step.result = .error (.fault (.unknownOpcode word)) →
        (lenient.acts history).step =
          ⟨.ok .advanced, { lenient.acts history with pc := (lenient.acts history).pc + 2 }⟩) := by
  have hreachable : strict.Reachable config := .build hstrict
  obtain ⟨-, -, rfl⟩ := of_build hstrict
  obtain ⟨-, -, rfl⟩ := of_build hlenient
  rw [powerOn_withSettings hc hseed]
  obtain ⟨hacts, hanswers⟩ := acts_withSettings hreachable hc hh
  refine ⟨hanswers, hacts, ?_⟩
  intro hignore word hfault
  rw [hacts]
  generalize (powerOn config seed).acts history = stopped at hfault ⊢
  rcases step_cases stopped with ⟨cause, -, hs⟩ | ⟨r, -, -, hs⟩ | ⟨o, after, -, -, -, hs⟩ |
      ⟨cause, after, hf, hw, hn, hs⟩ <;> rw [hs] at hfault <;> cases hfault
  exact step_of_next (m := stopped.withSettings c) hf hw (Execution.next_ignore hn hignore)

/-- Passes over unknown words, and has room for four more calls. -/
def goingOn : Config := { unknownOpcodes := .ignore, stackDepth := 20 }

theorem goingOn_relaxes : goingOn.Relaxes {} := ⟨rfl, .inl rfl, by decide⟩

/-- A program that calls a subroutine of which the first word is unknown. -/
def strayWord : List HostAction :=
  [.loadRom [0x22, 0x04, 0x00, 0xE0, 0xFF, 0xFF], .setKey 3 true, .step, .tick]

/-- The strict machine stops in the subroutine, the lenient one goes on. -/
theorem lenient_keeps_up_strayWord :
    goingOn.Relaxes {} ∧ Along Spared (powerOn {} 0) strayWord ∧
      (powerOn goingOn 0).acts strayWord = ((powerOn {} 0).acts strayWord).withSettings goingOn ∧
      ((powerOn {} 0).acts strayWord).step.result =
        .error (.fault (.unknownOpcode 0xFFFF)) ∧
      ((powerOn goingOn 0).acts strayWord).step.result = .ok .advanced := by
  have hstrict : Machine.build {} 0 = .ok (powerOn {} 0) := rfl
  have hlenient : Machine.build goingOn 0 = .ok (powerOn goingOn 0) := rfl
  have hspared : Along Spared (powerOn {} 0) strayWord := by
    have hstep : (((powerOn {} 0).act (.loadRom [0x22, 0x04, 0x00, 0xE0, 0xFF, 0xFF])).act
        (.setKey 3 true)).step.result = .ok .advanced := by decide +kernel
    exact ⟨nofun, nofun, spared_of_ok hstep, nofun, trivial⟩
  have hfault : ((powerOn {} 0).acts strayWord).step.result =
      .error (.fault (.unknownOpcode 0xFFFF)) := by decide +kernel
  obtain ⟨-, hacts, hgoesOn⟩ := lenient_keeps_up goingOn_relaxes (fun _ => rfl) hstrict hlenient
    hspared
  refine ⟨goingOn_relaxes, hspared, hacts, hfault, ?_⟩
  rw [hgoesOn rfl _ hfault]

/-- V0 is set to a random byte. -/
def randomRegister : List HostAction := [.loadRom [0xC0, 0xFF], .step]

/-- Settings without a seed leave each machine to a seed of its own, and then the random bytes set
apart two machines that nothing stops. -/
theorem not_keeps_up_unseeded : ¬∀ (config c : Config) (seed seed' : UInt64)
    (strict lenient : Machine) (history : List HostAction), c.Relaxes config →
    Machine.build config seed = .ok strict → Machine.build c seed' = .ok lenient →
    Along Spared strict history → (lenient.acts history).v = (strict.acts history).v := by
  intro hkeeps
  have hstrict : Machine.build {} 1 = .ok (powerOn {} 1) := rfl
  have hlenient : Machine.build goingOn 0 = .ok (powerOn goingOn 0) := rfl
  have hspared : Along Spared (powerOn {} 1) randomRegister := by
    have hstep : ((powerOn {} 1).act (.loadRom [0xC0, 0xFF])).step.result = .ok .advanced := by
      decide +kernel
    exact ⟨nofun, spared_of_ok hstep, trivial⟩
  have hsame := hkeeps {} goingOn 1 0 _ _ randomRegister goingOn_relaxes hstrict hlenient hspared
  have hfirst : ((powerOn {} 1).acts randomRegister).v.get 0 = 0x61 := by decide +kernel
  have hsecond : ((powerOn goingOn 0).acts randomRegister).v.get 0 = 0x7F := by decide +kernel
  rw [← hsame] at hfirst
  exact absurd (hsecond.symm.trans hfirst) (by decide)

end Machine

end Chip8

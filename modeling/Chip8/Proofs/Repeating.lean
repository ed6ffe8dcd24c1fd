import Chip8.Proofs.Modes

/-!
The command that an empty line repeats. It is what the last line submitted with something in it came
to; a line that does not parse leaves none. To repeat it is to type it again.
-/

namespace Chip8

namespace Command

open CommandLine

/-- Nothing but blanks. -/
abbrev IsBlank (line : String) : Prop := line.toList.all isBlank = true

theorem parse_of_blank {line : String} (h : IsBlank line) :
    ∃ refusal, parse line = .error refusal := by
  rw [parse, words_of_blank h]
  exact ⟨_, rfl⟩

theorem parse_append_of_blank {before : String} (h : IsBlank before) (line : String) :
    parse (before ++ line) = parse line := by
  rw [parse, String.toList_append, words_append_of_blank h, parse]

end Command

/-- The Enter key goes down. -/
abbrev KeyEvent.Enters (e : KeyEvent) : Prop := e.code = .enter ∧ e.kind = .press

namespace Terminal

open Command (IsBlank)

/-- The line that an event submits. A blank one is none. -/
def submits? (t : Terminal) (e : KeyEvent) : Option String :=
  if t.debugger.running = false ∧ e.Enters ∧ ¬IsBlank t.input then some t.input else none

/-- What becomes of a terminal on a machine `m` while keys are typed, time passes and quiet keys are
swept up. The list has the lines that were submitted, the first one first. -/
inductive Submitted (m : Machine) : List String → Terminal → Prop
  | start : Submitted m [] (.start m)
  | key {lines : List String} {t : Terminal} (s : Submitted m lines t) (e : KeyEvent) (now : Nat) :
      Submitted m (lines ++ (t.submits? e).toList) (t.onKey e now)
  | tick {lines : List String} {t after : Terminal} (s : Submitted m lines t) {fuel : Nat}
      {dt : Float32} (h : t.tick fuel dt = some after) : Submitted m lines after
  | sweep {lines : List String} {t : Terminal} (s : Submitted m lines t) (now : Nat) :
      Submitted m lines (t.releaseExpired now)

/-- Types some characters, each at its time. -/
def type (t : Terminal) (keys : List (Char × Nat)) : Terminal :=
  keys.foldl (fun t key => t.onKey { code := .char key.1 } key.2) t

variable {m : Machine} {lines : List String} {t after : Terminal} {e : KeyEvent} {c : Command}
  {refusal : CommandLine.Refusal}

theorem runCommand_fields (t : Terminal) (c : Command) :
    (t.runCommand c).debugger = (t.debugger.perform c).2 ∧ (t.runCommand c).input = t.input ∧
      (t.runCommand c).last = some c := by
  rw [runCommand]
  rcases t.debugger.perform c with ⟨_ | reply, debugger⟩ <;> exact ⟨rfl, rfl, rfl⟩

theorem submit_of_blank (h : IsBlank t.input) (hlast : t.last = some c) :
    t.submit = { t with input := "" }.runCommand c := by
  simp only [submit, if_pos h, hlast]

theorem submit_of_nothing (h : IsBlank t.input) (hlast : t.last = none) :
    t.submit = { t with input := "" } := by
  simp only [submit, if_pos h, hlast]

/-- A line that parses is not blank. -/
theorem submit_of_parse (h : Command.parse t.input = .ok c) :
    t.submit = { t with input := "" }.runCommand c := by
  have hline : ¬IsBlank t.input := fun hblank => by
    obtain ⟨refusal, hrefused⟩ := Command.parse_of_blank hblank
    cases h.symm.trans hrefused
  simp only [submit, if_neg hline, h]

theorem submit_of_refused (hline : ¬IsBlank t.input) (h : Command.parse t.input = .error refusal) :
    t.submit = { t with input := "", output := refusal.text, last := none } := by
  simp only [submit, if_neg hline, h]

theorem last_submit (t : Terminal) : t.submit.last =
    if IsBlank t.input then t.last else (Command.parse t.input).toOption := by
  by_cases hline : IsBlank t.input
  · rw [if_pos hline]
    cases hlast : t.last with
    | none => rw [submit_of_nothing hline hlast, hlast]
    | some c => rw [submit_of_blank hline hlast, (runCommand_fields _ c).2.2]
  · rw [if_neg hline]
    cases h : Command.parse t.input with
    | ok c => rw [submit_of_parse h, (runCommand_fields _ c).2.2]; rfl
    | error refusal => rw [submit_of_refused hline h]; rfl

theorem onKey_enter (hr : t.debugger.running = false) (he : e.Enters) (now : Nat) :
    t.onKey e now = t.submit := by
  have hi : ¬e.Interrupts := fun hi => by cases he.1.symm.trans hi.1
  rw [onKey_paused hi he.2 hr, he.1, onPromptKey]

theorem last_onKey_of_running (hr : t.debugger.running = true) (e : KeyEvent) (now : Nat) :
    (t.onKey e now).last = t.last := by
  have hsteers := steers_onKey hr e now
  generalize t.onKey e now = after at hsteers
  cases hsteers <;> rfl

/-- Enter on a line is the one event that bears on the command to repeat. -/
theorem last_onKey (t : Terminal) (e : KeyEvent) (now : Nat) : (t.onKey e now).last =
    (t.submits? e).elim t.last fun line => (Command.parse line).toOption := by
  cases hr : t.debugger.running with
  | true =>
    rw [last_onKey_of_running hr, submits?, if_neg fun h => by cases hr.symm.trans h.1]
    rfl
  | false =>
    by_cases he : e.Enters
    · rw [onKey_enter hr he, last_submit, submits?]
      by_cases hline : IsBlank t.input
      · rw [if_pos hline, if_neg fun h => h.2.2 hline]
        rfl
      · rw [if_neg hline, if_pos ⟨hr, he, hline⟩]
        rfl
    · rw [submits?, if_neg fun h => he h.2.1]
      by_cases hi : e.Interrupts
      · rw [onKey_interrupt hi]
        rfl
      by_cases hp : e.kind = .press
      · rw [onKey_paused hi hp hr]
        cases hc : e.code with
        | enter => exact absurd ⟨hc, hp⟩ he
        | char | escape | backspace | other => rfl
      · rw [onKey_not_press hi hp]
        rfl

theorem last_tick {fuel : Nat} {dt : Float32} (h : t.tick fuel dt = some after) :
    after.last = t.last := by
  obtain ⟨⟨result, debugger⟩, -, rfl⟩ := Option.map_eq_some_iff.mp h
  rfl

theorem Submitted.last_eq (s : Submitted m lines t) :
    t.last = lines.getLast?.bind fun line => (Command.parse line).toOption := by
  induction s with
  | start => rfl
  | @key lines t _ e now ih =>
    rw [last_onKey]
    cases hsubmits : t.submits? e with
    | none =>
      rw [Option.toList_none, List.append_nil]
      exact ih
    | some line =>
      rw [Option.toList_some, List.getLast?_concat]
      rfl
  | tick _ h ih => exact (last_tick h).trans ih
  | sweep _ _ ih => exact ih

theorem type_paused (hr : t.debugger.running = false) (keys : List (Char × Nat)) :
    t.type keys = { t with input := t.input ++ String.ofList (keys.map Prod.fst) } := by
  induction keys generalizing t with
  | nil => simp [type]
  | cons key keys ih =>
    have hi : ¬KeyEvent.Interrupts { code := .char key.1 } := by simp
    have hkey : t.onKey { code := .char key.1 } key.2 = { t with input := t.input.push key.1 } :=
      onKey_paused hi rfl hr key.2
    have hinput : t.input.push key.1 ++ String.ofList (keys.map Prod.fst) =
        t.input ++ String.ofList ((key :: keys).map Prod.fst) := by
      simp [← String.toList_inj]
    rw [type, List.foldl_cons, hkey, ← hinput]
    exact ih (t := { t with input := t.input.push key.1 }) hr

/-- What is typed goes on the line that is there. -/
theorem enter_typed (hr : t.debugger.running = false) (he : e.Enters) {keys : List (Char × Nat)}
    (h : Command.parse (t.input ++ String.ofList (keys.map Prod.fst)) = .ok c) (now : Nat) :
    (t.type keys).onKey e now = { t with input := "" }.runCommand c := by
  have htyped := type_paused hr keys
  have hpaused : (t.type keys).debugger.running = false := by
    rw [htyped]
    exact hr
  have hparse : Command.parse (t.type keys).input = .ok c := by
    rw [htyped]
    exact h
  rw [onKey_enter hpaused he, submit_of_parse hparse, htyped]

/-- A terminal remembers the command that the last line submitted came to, if it came to one, and
nothing but a submitted line bears on it. On a blank prompt Enter carries that command out and comes
to the same terminal as typing any line for it and Enter; without one it clears the prompt. A line
that does not parse changes what is shown and leaves nothing to repeat. -/
theorem enter_repeats_last (t : Terminal) :
    (∀ m lines, Submitted m lines t →
      ∀ c, t.last = some c ↔ ∃ line, lines.getLast? = some line ∧ Command.parse line = .ok c) ∧
    (t.debugger.running = false → ∀ e now, e.Enters → IsBlank t.input →
      (t.last = none → t.onKey e now = { t with input := "" }) ∧
      ∀ c, t.last = some c →
        t.onKey e now = { t with input := "" }.runCommand c ∧
        ∀ prompt line keys, IsBlank prompt → Command.parse line = .ok c →
          keys.map Prod.fst = line.toList → ∀ e' later, e'.Enters →
            ({ t with input := prompt }.type keys).onKey e' later = t.onKey e now) ∧
    (t.debugger.running = false → ∀ e now refusal, e.Enters → ¬IsBlank t.input →
      Command.parse t.input = .error refusal →
        t.onKey e now = { t with input := "", output := refusal.text, last := none }) ∧
    (t.debugger.running = true → ∀ e now, (t.onKey e now).last = t.last) ∧
    (∀ fuel dt after, t.tick fuel dt = some after → after.last = t.last) := by
  refine ⟨?remembers, ?repeats, ?refused, fun hr => last_onKey_of_running hr,
    fun _ _ _ h => last_tick h⟩
  case remembers =>
    intro m lines s c
    simp only [s.last_eq, Option.bind_eq_some_iff, Command.toOption_parse]
  case repeats =>
    intro hr e now he hblank
    rw [onKey_enter hr he]
    refine ⟨submit_of_nothing hblank, fun c hlast => ?_⟩
    have hrun := submit_of_blank hblank hlast
    refine ⟨hrun, fun prompt line keys hprompt hparse hkeys e' later he' => ?_⟩
    have hline : Command.parse (prompt ++ String.ofList (keys.map Prod.fst)) = .ok c := by
      rw [Command.parse_append_of_blank hprompt, hkeys, String.ofList_toList, hparse]
    exact (enter_typed (t := { t with input := prompt }) hr he' hline later).trans hrun.symm
  case refused =>
    intro hr e now refusal he hline h
    rw [onKey_enter hr he, submit_of_refused hline h]

/-- A machine whose program adds up ones. -/
def counter : Machine := { Machine.powerOn {} 0 with
  memory := ⟨overlay Memory.zero.bytes 0x200 [0x70, 0x01, 0x70, 0x01, 0x70, 0x01, 0x70, 0x01]⟩ }

/-- Two steps of it have been asked for. -/
def counting : Terminal :=
  ((start counter).type [('s', 1), (' ', 2), ('2', 3)]).onKey { code := .enter } 4

/-- Two more steps by Enter are those by another spelling of the command. A line that is no command
leaves the machine alone, and nothing to repeat. -/
theorem enter_repeats_last_counting :
    let enter : KeyEvent := { code := .enter }
    let again := counting.onKey enter 5
    let spelt := { counting with input := " " }.type
      [('s', 5), ('t', 6), ('e', 7), ('p', 8), (' ', 9), ('0', 10), ('x', 11), ('2', 12)]
    let lost := { counting with input := "two more" }.onKey enter 5
    Submitted counter ["s 2"] counting ∧ counting.last = some (.step 2) ∧
      again = { counting with input := "" }.runCommand (.step 2) ∧ spelt.onKey enter 13 = again ∧
      again.machine.v.get 0 = 4 ∧ lost.last = none ∧ lost.debugger = counting.debugger := by
  intro enter again spelt lost
  have hsubmitted : Submitted counter ["s 2"] counting :=
    (((Submitted.start.key { code := .char 's' } 1).key { code := .char ' ' } 2).key
      { code := .char '2' } 3).key enter 4
  have htwo : Command.parse "s 2" = .ok (.step 2) :=
    Command.toOption_parse.mp (by decide +kernel)
  have hlast : counting.last = some (.step 2) :=
    ((enter_repeats_last counting).1 _ _ hsubmitted (.step 2)).mpr ⟨"s 2", rfl, htwo⟩
  obtain ⟨hpaused, hblank, hcounted⟩ : counting.debugger.running = false ∧
      IsBlank counting.input ∧ again.machine.v.get 0 = 4 := by decide +kernel
  have hspelling : Command.parse "step 0x2" = .ok (.step 2) :=
    Command.toOption_parse.mp (by decide +kernel)
  obtain ⟨refusal, hrefused⟩ : ∃ refusal, Command.parse "two more" = .error refusal := by
    have hnone : (Command.parse "two more").toOption = none := by decide +kernel
    cases hparse : Command.parse "two more" with
    | ok c =>
      rw [hparse] at hnone
      cases hnone
    | error refusal => exact ⟨refusal, rfl⟩
  -- The theorem is applied to a terminal about which no more is known than this.
  have hrepeats (t : Terminal) (hr : t.debugger.running = false) (hblank : IsBlank t.input)
      (hlast : t.last = some (.step 2)) :
      t.onKey enter 5 = { t with input := "" }.runCommand (.step 2) ∧
        ({ t with input := " " }.type [('s', 5), ('t', 6), ('e', 7), ('p', 8), (' ', 9),
          ('0', 10), ('x', 11), ('2', 12)]).onKey enter 13 = t.onKey enter 5 := by
    obtain ⟨hrun, hspelt⟩ :=
      ((enter_repeats_last t).2.1 hr enter 5 ⟨rfl, rfl⟩ hblank).2 _ hlast
    exact ⟨hrun, hspelt " " _ _ (by decide) hspelling rfl enter 13 ⟨rfl, rfl⟩⟩
  have hloses (t : Terminal) (hr : t.debugger.running = false) :
      ({ t with input := "two more" }.onKey enter 5).last = none ∧
        ({ t with input := "two more" }.onKey enter 5).debugger = t.debugger := by
    have hword : ¬IsBlank "two more" := by decide
    rw [(enter_repeats_last { t with input := "two more" }).2.2.1 hr enter 5 refusal ⟨rfl, rfl⟩
      hword hrefused]
    exact ⟨rfl, rfl⟩
  obtain ⟨hrun, hsame⟩ := hrepeats counting hpaused hblank hlast
  exact ⟨hsubmitted, hlast, hrun, hsame, hcounted, hloses counting hpaused⟩

end Terminal

end Chip8

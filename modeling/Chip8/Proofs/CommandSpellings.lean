import Chip8.Proofs.Numerals
import Chip8.Proofs.Verbs

/-!
What is typed for each command: a name, in full or in short, and a word for each of its values, with
those at the end left out if they are the defaults. Every command but one kind can be typed, each
way to type it is understood as that command, and a line with a word too many, too few or out of
range is refused.
-/

namespace Chip8

open CommandLine

namespace Command

/-- A word that is typed for a value. Targets are typed in any case. -/
def Value.Spelt : Value → String → Prop
  | number n, w => Spells n.toNat w.toList
  | target t, w => SetTarget.Named (w.toList.map Char.toLower) t

/-- A line that is typed for a command. -/
def Spelt (c : Command) (line : String) : Prop :=
  ∃ verb name values args, Verb.Named verb name ∧ verb.command? values = some c ∧
    List.Forall₂ Value.Spelt values args ∧
    Spaced ((name ++ args).map String.toList) line.toList

variable {verb : Verb} {name args : List String} {values : List Value} {v : Value} {c : Command}
  {w line : String}

def Value.kind : Value → Kind
  | number _ => .number
  | target _ => .target

theorem Value.Spelt.read? (h : v.Spelt w) : v.kind.read? w = some v := by
  cases v with
  | number n =>
    have hfits : n.toNat ≤ 0xFFFF := Nat.le_of_lt_succ n.toNat_lt
    rw [Value.kind, Kind.read?, readWord_of_spells h, if_pos hfits, UInt16.ofNat_toNat]
    rfl
  | target t =>
    rw [Value.kind, Kind.read?, SetTarget.read_eq_ok.mpr (.inl h)]
    rfl

theorem Value.Spelt.classify (h : v.Spelt w) : Word.classify w = .plain := by
  refine classify_of_head fun hhead => ?_
  obtain ⟨cs, hcs⟩ := List.head?_eq_some_iff.mp hhead
  cases v with
  | number n =>
    have hmem := Spells.toLower_mem h (c := '-') (by rw [hcs]; exact .head _)
    exact absurd hmem (by decide)
  | target t =>
    have hnamed : SetTarget.Named ('-' :: cs.map Char.toLower) t := by
      rw [Value.Spelt, hcs] at h
      exact h
    cases hnamed with
    | word hword =>
      have hall : ∀ p ∈ SetTarget.words, p.1.head? ≠ some '-' := by decide
      exact hall _ hword rfl

theorem readAll?_of_spelt (h : List.Forall₂ Value.Spelt values args) (kinds : List Kind) :
    readAll? (values.map Value.kind ++ kinds) args = some values := by
  induction h with
  | nil => simp only [readAll?]
  | cons hv _ ih =>
    rw [List.map_cons, List.cons_append, readAll?, hv.read?]
    simp only [Option.bind_some, ih, Option.map_some]

/-- The values of a command go to the places from the left and fill all that must be filled. A
listing without an address has the default length. -/
theorem command?_eq_some (h : verb.command? values = some c) :
    (∃ kinds, verb.places = values.map Value.kind ++ kinds) ∧
      verb.required.length ≤ values.length ∧ ∀ len, c = .listing none len → len = 16 := by
  cases verb
  all_goals
    simp only [Verb.command?, Verb.bare, Verb.onAddress] at h
    split at h <;> cases h
    all_goals exact ⟨⟨_, rfl⟩, by simp [Verb.required], by simp⟩

theorem parse_of_spelt {line : String} (h : c.Spelt line) : parse line = .ok c := by
  obtain ⟨verb, name, values, args, hname, hc, hargs, hline⟩ := h
  obtain ⟨⟨kinds, hkinds⟩, -, -⟩ := command?_eq_some hc
  have hplain : ∀ w ∈ args, Word.classify w = .plain := by
    intro w hw
    obtain ⟨v, -, hv⟩ := exists_mem_of_forall₂ hargs.flip hw
    exact Value.Spelt.classify hv
  have hread : verb.read? args = some c := by
    rw [Verb.read?, hkinds, readAll?_of_spelt hargs]
    exact hc
  have hparse := toOption_parse_named hname hline
  rw [values?_of_plain hplain] at hparse
  exact toOption_parse.mp (hparse.trans hread)

/-- Every value can be typed as a word. -/
theorem exists_spelt (v : Value) : ∃ w, v.Spelt w ∧ w.toList ≠ [] ∧
    ∀ c ∈ w.toList, isBlank c = false := by
  have hblank (w : String) (h : w.toList.all fun c => isBlank c = false) :
      ∀ c ∈ w.toList, isBlank c = false :=
    fun c hc => of_decide_eq_true (List.all_eq_true.mp h c hc)
  cases v with
  | number n =>
    refine ⟨String.ofList (Nat.toDigits 10 n.toNat), ?_, ?_, fun c hc => ?_⟩
    · rw [Value.Spelt, String.toList_ofList]
      exact .decimal 0
    · rw [String.toList_ofList]
      exact Nat.toDigits_ne_nil
    · have hdigits : ∀ d < 10, isBlank (Nat.digitChar d) = false := by decide
      rw [String.toList_ofList] at hc
      obtain ⟨d, hd, rfl⟩ := mem_toDigits (by decide) hc
      exact hdigits d hd
  | target t =>
    cases t with
    | register x =>
      have hdigit : Hex.value? (Hex.digit x).toLower = some x ∧ isBlank (Hex.digit x) = false := by
        decide +revert
      refine ⟨String.ofList ['v', Hex.digit x], ?_, ?_, ?_⟩
      · rw [Value.Spelt, String.toList_ofList]
        exact .register hdigit.1
      · simp
      · rw [String.toList_ofList]
        exact List.forall_mem_cons.mpr ⟨by decide, List.forall_mem_singleton.mpr hdigit.2⟩
    | index => exact ⟨"i", .word (by decide), by decide, hblank _ (by decide)⟩
    | pc => exact ⟨"pc", .word (by decide), by decide, hblank _ (by decide)⟩
    | delayTimer => exact ⟨"dt", .word (by decide), by decide, hblank _ (by decide)⟩
    | soundTimer => exact ⟨"st", .word (by decide), by decide, hblank _ (by decide)⟩

theorem exists_named (verb : Verb) : ∃ name, verb.Named name := by
  refine ⟨verb.names.map (·.headD ""), ?_⟩
  cases verb
  all_goals simp [Verb.Named, Verb.names]

/-- A verb and values for each command but one kind. -/
theorem exists_command? : (∃ verb values, Verb.command? verb values = some c) ↔
    ∀ len, c = .listing none len → len = 16 := by
  constructor
  · rintro ⟨verb, values, h⟩
    exact (command?_eq_some h).2.2
  · intro h
    cases c with
    | run => exact ⟨.run, [], rfl⟩
    | pause => exact ⟨.pause, [], rfl⟩
    | step n => exact ⟨.step, [.number n], rfl⟩
    | breakpoint action =>
      cases action with
      | set a => exact ⟨.setBreakpoint, [.number a], rfl⟩
      | clear a => exact ⟨.clearBreakpoint, [.number a], rfl⟩
      | list => exact ⟨.listBreakpoints, [], rfl⟩
      | clearAll => exact ⟨.clearBreakpoints, [], rfl⟩
    | set t n => exact ⟨.set, [.target t, .number n], rfl⟩
    | dump a n => exact ⟨.dump, [.number a, .number n], rfl⟩
    | listing start len =>
      cases start with
      | none =>
        obtain rfl := h len rfl
        exact ⟨.listing, [], rfl⟩
      | some a => exact ⟨.listing, [.number a, .number len], rfl⟩
    | reset => exact ⟨.reset, [], rfl⟩
    | quit => exact ⟨.quit, [], rfl⟩

theorem exists_spelt_all (values : List Value) : ∃ args, List.Forall₂ Value.Spelt values args ∧
    ∀ w ∈ args, w.toList ≠ [] ∧ ∀ c ∈ w.toList, isBlank c = false := by
  induction values with
  | nil => exact ⟨[], .nil, nofun⟩
  | cons v values ih =>
    obtain ⟨w, hw, hword⟩ := exists_spelt v
    obtain ⟨args, hargs, hproper⟩ := ih
    exact ⟨w :: args, .cons hw hargs, List.forall_mem_cons.mpr ⟨hword, hproper⟩⟩

theorem exists_line (h : verb.command? values = some c) : ∃ line, c.Spelt line := by
  obtain ⟨name, hname⟩ := exists_named verb
  obtain ⟨args, hargs, hproper⟩ := exists_spelt_all values
  have hwords : ∀ w ∈ (name ++ args).map String.toList,
      w ≠ [] ∧ ∀ c ∈ w, isBlank c = false := by
    intro w hw
    obtain ⟨word, hmem, rfl⟩ := List.mem_map.mp hw
    rcases List.mem_append.mp hmem with hmem | hmem
    · obtain ⟨hne, hplain⟩ := proper_of_named hname hmem
      exact ⟨hne, fun c hc => (hplain c hc).1⟩
    · exact hproper word hmem
  obtain ⟨cs, hcs, -⟩ := exists_spaced hwords
  refine ⟨String.ofList cs, verb, name, values, args, hname, h, hargs, ?_⟩
  rwa [String.toList_ofList]

/-- The words after a name are too few, too many or out of range. -/
inductive Verb.Misfit (verb : Verb) (args : List String) : Prop
  | missing (h : args.length < verb.required.length)
  | extra (h : verb.places.length < args.length)
  | tooLarge {i n : Nat} {w : String} (hplace : verb.places[i]? = some .number)
      (hw : args[i]? = some w) (hn : Spells n w.toList) (h : 0xFFFF < n)

theorem readAll?_cons {kinds : List Kind} (h : readAll? kinds (w :: args) = some values) :
    ∃ kind rest v vs, kinds = kind :: rest ∧ kind.read? w = some v ∧
      readAll? rest args = some vs ∧ values = v :: vs := by
  cases kinds with
  | nil => cases h
  | cons kind rest =>
    obtain ⟨v, hv, hmap⟩ := Option.bind_eq_some_iff.mp h
    obtain ⟨vs, hvs, hcons⟩ := Option.map_eq_some_iff.mp hmap
    exact ⟨kind, rest, v, vs, rfl, hv, hvs, hcons.symm⟩

theorem length_of_readAll? {kinds : List Kind} (h : readAll? kinds args = some values) :
    values.length = args.length ∧ args.length ≤ kinds.length := by
  induction args generalizing kinds values with
  | nil =>
    rw [readAll?] at h
    cases h
    exact ⟨rfl, Nat.zero_le _⟩
  | cons w args ih =>
    obtain ⟨kind, rest, v, vs, rfl, -, hvs, rfl⟩ := readAll?_cons h
    obtain ⟨hlength, hle⟩ := ih hvs
    exact ⟨congrArg (· + 1) hlength, Nat.succ_le_succ hle⟩

theorem read?_of_readAll? {kinds : List Kind} (h : readAll? kinds args = some values) {i : Nat}
    {kind : Kind} (hkind : kinds[i]? = some kind) (hw : args[i]? = some w) :
    ∃ v, kind.read? w = some v := by
  induction args generalizing kinds values i with
  | nil => cases hw
  | cons word args ih =>
    obtain ⟨first, rest, v, vs, rfl, hv, hvs, -⟩ := readAll?_cons h
    cases i with
    | zero =>
      cases hkind
      cases hw
      exact ⟨v, hv⟩
    | succ i => exact ih hvs hkind hw

theorem Verb.Misfit.read? (h : verb.Misfit args) : verb.read? args = none := by
  refine Option.eq_none_iff_forall_ne_some.mpr fun c hc => ?_
  obtain ⟨values, hvalues, hcommand⟩ := Option.bind_eq_some_iff.mp hc
  obtain ⟨hlength, hle⟩ := length_of_readAll? hvalues
  cases h with
  | missing h =>
    have hrequired := (command?_eq_some hcommand).2.1
    omega
  | extra h => omega
  | tooLarge hplace hw hn h =>
    obtain ⟨v, hv⟩ := read?_of_readAll? hvalues hplace hw
    rw [Kind.read?, readWord_of_spells hn, if_neg (by omega)] at hv
    cases hv

theorem exists_error_of_misfit {line : String} (hname : verb.Named name)
    (hline : Spaced ((name ++ args).map String.toList) line.toList)
    (h : verb.Misfit (args.erase "--")) : ∃ refusal, parse line = .error refusal := by
  have hnone : (parse line).toOption = none := by
    rw [toOption_parse_named hname hline]
    refine Option.bind_eq_none_iff.mpr fun vs hvs => ?_
    rw [eq_erase_of_values? hvs]
    exact h.read?
  cases hparse : parse line with
  | error refusal => exact ⟨refusal, rfl⟩
  | ok c =>
    rw [hparse] at hnone
    cases hnone

/-- A line of nothing, or of no more than the name of a group, lacks the name of a command. -/
theorem exists_error_of_group {ws : List String} (hws : ws ∈ [[], ["breakpoint"], ["b"]])
    (hline : Spaced (ws.map String.toList) line.toList) :
    ∃ refusal, parse line = .error refusal := by
  rw [parse, words_of_spaced hline]
  simp only [List.mem_cons, List.not_mem_nil, or_false] at hws
  rcases hws with rfl | rfl | rfl
  all_goals exact ⟨_, rfl⟩

/-- What is typed for a command is understood as that command. All commands can be typed but
listings that begin at the program counter and are not of sixteen instructions. A line is refused
if a required word is missing, if a word comes after the last place, or if a number has more than
sixteen bits. Two dashes alone only separate, and are not counted. -/
theorem spelt_parses :
    (∀ c, (∃ line, Spelt c line) ↔ ∀ len, c = .listing none len → len = 16) ∧
    (∀ c line, Spelt c line → parse line = .ok c) ∧
    (∀ verb name args line, Verb.Named verb name →
      Spaced ((name ++ args).map String.toList) line.toList → verb.Misfit (args.erase "--") →
      ∃ refusal, parse line = .error refusal) ∧
    ∀ ws ∈ [[], ["breakpoint"], ["b"]], ∀ line, Spaced (ws.map String.toList) line.toList →
      ∃ refusal, parse line = .error refusal := by
  refine ⟨fun c => ?typed, fun c line => parse_of_spelt, fun _ _ _ _ => exists_error_of_misfit,
    fun ws hws line => exists_error_of_group hws⟩
  case typed =>
    rw [← exists_command?]
    constructor
    · rintro ⟨line, verb, name, values, args, -, h, -⟩
      exact ⟨verb, values, h⟩
    · rintro ⟨verb, values, h⟩
      exact exists_line h

/-- The letter that is short for two names, before and after the name of a group. -/
theorem spelt_parses_sharedLetter :
    parse " b\ts 0X2aF" = .ok (.breakpoint (.set 0x2AF)) ∧ parse "s " = .ok (.step 1) ∧
      (∃ refusal, parse "s 65536" = .error refusal) ∧ (∃ refusal, parse "b s" = .error refusal) ∧
      (∃ refusal, parse "s 1 1" = .error refusal) ∧ ∃ refusal, parse "b" = .error refusal := by
  obtain ⟨-, hspelt, hmisfit, hgroup⟩ := spelt_parses
  refine ⟨hspelt _ _ ?_, hspelt _ _ ?_, ?_, ?_, ?_, ?_⟩
  · refine ⟨.setBreakpoint, ["b", "s"], [.number 0x2AF], ["0X2aF"], ?_, rfl, ?_, ?_⟩
    · exact .cons (by decide) (.cons (by decide) .nil)
    · exact .cons (.hexadecimal 0 (.inr rfl) (by decide)) .nil
    · exact spaced_iff.mpr (by decide)
  · exact ⟨.step, ["s"], [], [], .cons (by decide) .nil, rfl, .nil, spaced_iff.mpr (by decide)⟩
  · refine hmisfit .step ["s"] ["65536"] _ (.cons (by decide) .nil) ?_ ?_
    · exact spaced_iff.mpr (by decide)
    · exact .tooLarge (i := 0) (n := 65536) rfl rfl (.decimal 0) (by decide)
  · refine hmisfit .setBreakpoint ["b", "s"] [] _ (.cons (by decide) (.cons (by decide) .nil)) ?_ ?_
    · exact spaced_iff.mpr (by decide)
    · exact .missing (by decide)
  · refine hmisfit .step ["s"] ["1", "1"] _ (.cons (by decide) .nil) ?_ (.extra (by decide))
    exact spaced_iff.mpr (by decide)
  · exact hgroup ["b"] (by decide) _ (spaced_iff.mpr (by decide))

end Command

end Chip8

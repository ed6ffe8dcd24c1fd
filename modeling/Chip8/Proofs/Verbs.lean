import Mathlib.Data.List.Forall2
import Mathlib.Data.List.TakeDrop
import Mathlib.Data.List.TakeWhile
import Chip8.Debugger.CommandLine
import Chip8.Proofs.Positionals

/-!
The commands by their names and by what their places take. A line that begins with a name is read
by the places, whichever form the command has: no name is given twice in a menu, so that each leads
to its own.
-/

namespace Chip8

open CommandLine

namespace Command

/-- What a place takes. -/
inductive Kind where
  | number
  | target
  deriving DecidableEq, Repr

inductive Value where
  | number (n : UInt16)
  | target (t : SetTarget)
  deriving DecidableEq, Repr

/-- The commands by their names. -/
inductive Verb where
  | run
  | pause
  | step
  | setBreakpoint
  | clearBreakpoint
  | listBreakpoints
  | clearBreakpoints
  | set
  | dump
  | listing
  | reset
  | quit
  deriving DecidableEq, Repr

namespace Verb

/-- The words of a name, each in full and in short. -/
def names : Verb → List (List String)
  | run => [["run", "r"]]
  | pause => [["pause", "p"]]
  | step => [["step", "s"]]
  | setBreakpoint => [["breakpoint", "b"], ["set", "s"]]
  | clearBreakpoint => [["breakpoint", "b"], ["clear", "c"]]
  | listBreakpoints => [["breakpoint", "b"], ["list", "l"]]
  | clearBreakpoints => [["breakpoint", "b"], ["clear-all", "ca"]]
  | set => [["set"]]
  | dump => [["mem", "m"]]
  | listing => [["disasm", "d"]]
  | reset => [["reset"]]
  | quit => [["quit", "q"]]

def Named (verb : Verb) (name : List String) : Prop := List.Forall₂ (· ∈ ·) name verb.names

def required : Verb → List Kind
  | setBreakpoint | clearBreakpoint => [.number]
  | set => [.target, .number]
  | _ => []

def optional : Verb → List Kind
  | step => [.number]
  | dump | listing => [.number, .number]
  | _ => []

def places (verb : Verb) : List Kind := verb.required ++ verb.optional

/-- A command without values. -/
def bare (c : Command) : List Value → Option Command
  | [] => some c
  | _ => none

def onAddress (act : UInt16 → BreakpointAction) : List Value → Option Command
  | [.number a] => some (.breakpoint (act a))
  | _ => none

/-- The command with values in its places, and the defaults in those that stay empty. -/
def command? : Verb → List Value → Option Command
  | run => bare .run
  | pause => bare .pause
  | step => fun
    | [] => some (.step 1)
    | [.number n] => some (.step n)
    | _ => none
  | setBreakpoint => onAddress .set
  | clearBreakpoint => onAddress .clear
  | listBreakpoints => bare (.breakpoint .list)
  | clearBreakpoints => bare (.breakpoint .clearAll)
  | set => fun
    | [.target t, .number n] => some (.set t n)
    | _ => none
  | dump => fun
    | [] => some (.dump 0x200 64)
    | [.number a] => some (.dump a 64)
    | [.number a, .number n] => some (.dump a n)
    | _ => none
  | listing => fun
    | [] => some (.listing none 16)
    | [.number a] => some (.listing (some a) 16)
    | [.number a, .number n] => some (.listing (some a) n)
    | _ => none
  | reset => bare .reset
  | quit => bare .quit

end Verb

def Kind.read? : Kind → String → Option Value
  | number, w => (readWord w.toList).toOption.map .number
  | target, w => (SetTarget.read w.toList).toOption.map .target

/-- Reads one word for each place from the left. -/
def readAll? : List Kind → List String → Option (List Value)
  | _, [] => some []
  | [], _ :: _ => none
  | kind :: kinds, w :: ws => (kind.read? w).bind fun v => (readAll? kinds ws).map (v :: ·)

def Verb.read? (verb : Verb) (ws : List String) : Option Command :=
  (readAll? verb.places ws).bind verb.command?

theorem toOption_reading {σ α : Type} (read : List Char → Except String α) (set : α → σ → σ)
    (text : String) (s : σ) :
    (reading read set text s).toOption = (read text.toList).toOption.map (set · s) := by
  rw [reading]
  cases read text.toList <;> rfl

theorem toOption_readNumber (cs : List Char) :
    (readNumber cs).toOption = (readWord cs).toOption := toOption_mapError _ _

theorem readAll?_number (kinds : List Kind) (w : String) (ws : List String) :
    readAll? (.number :: kinds) (w :: ws) =
      (readWord w.toList).toOption.bind fun n => (readAll? kinds ws).map (.number n :: ·) := by
  rw [readAll?, Kind.read?]
  cases (readWord w.toList).toOption <;> rfl

theorem storeAll_reading {σ α : Type} {p : Positional σ} {read : List Char → Except String α}
    {set : α → σ → σ} (h : p.slot.store = reading read set) (places : List (Positional σ))
    (w : String) (ws : List String) (s : σ) :
    storeAll (p :: places) (w :: ws) s =
      (read w.toList).toOption.bind fun a => storeAll places ws (set a s) := by
  rw [storeAll, h, toOption_reading]
  cases (read w.toList).toOption <;> rfl

/-- A form reads what the places of a verb take. -/
structure Verb.Fits {σ : Type} (verb : Verb) (form : Form σ) (blank : σ)
    (finish : σ → Option Command) : Prop where
  plain : form.Plain
  reads : ∀ ws, (storeAll form.positionals ws blank).bind finish = verb.read? ws

theorem Verb.Fits.toOption_parse {σ : Type} {verb : Verb} {form : Form σ} {blank : σ}
    {finish : σ → Option Command} (h : verb.Fits form blank finish) (path : String)
    (ws : List String) :
    (form.parse blank finish path ws).toOption = (values? ws).bind verb.read? := by
  rw [h.plain.toOption_parse]
  simp only [h.reads]

theorem fits_plain {verb : Verb} {c : Command} {about : String} (hplaces : verb.places = [])
    (hc : verb.command? [] = some c) : verb.Fits ⟨about, [], [], []⟩ () fun () => some c where
  plain := ⟨rfl, rfl⟩
  reads ws := by
    rw [Verb.read?, hplaces]
    cases ws with
    | nil => exact hc.symm
    | cons => rfl

section

variable {σ : Type} {verb : Verb} {form : Form σ} {blank : σ} {finish : σ → Option Command}
  {p q : Positional σ} {set₁ set₂ : UInt16 → σ → σ}

/-- A form with one place, for a number. -/
theorem fits_number (hplain : form.Plain) (hform : form.positionals = [p])
    (hp : p.slot.store = reading readNumber set₁) (hplaces : verb.places = [.number])
    (hnone : finish blank = verb.command? [])
    (hone : ∀ n, finish (set₁ n blank) = verb.command? [.number n]) :
    verb.Fits form blank finish where
  plain := hplain
  reads ws := by
    rw [Verb.read?, hplaces, hform]
    cases ws with
    | nil => exact hnone
    | cons w ws =>
      rw [storeAll_reading hp, toOption_readNumber, readAll?_number]
      cases (readWord w.toList).toOption with
      | none => rfl
      | some n =>
        cases ws with
        | nil => exact hone n
        | cons => rfl

/-- A form with two places for numbers, of which the last or both may stay empty. -/
theorem fits_numbers (hplain : form.Plain) (hform : form.positionals = [p, q])
    (hp : p.slot.store = reading readNumber set₁) (hq : q.slot.store = reading readNumber set₂)
    (hplaces : verb.places = [.number, .number]) (hnone : finish blank = verb.command? [])
    (hone : ∀ n, finish (set₁ n blank) = verb.command? [.number n])
    (htwo : ∀ n m, finish (set₂ m (set₁ n blank)) = verb.command? [.number n, .number m]) :
    verb.Fits form blank finish where
  plain := hplain
  reads ws := by
    rw [Verb.read?, hplaces, hform]
    match ws with
    | [] => exact hnone
    | [w] =>
      rw [storeAll_reading hp, toOption_readNumber, readAll?_number]
      cases (readWord w.toList).toOption with
      | none => rfl
      | some n => exact hone n
    | w :: v :: ws =>
      rw [storeAll_reading hp, toOption_readNumber, readAll?_number, readAll?_number]
      cases (readWord w.toList).toOption with
      | none => rfl
      | some n =>
        show Option.bind (storeAll [q] (v :: ws) (set₁ n blank)) finish = _
        rw [storeAll_reading hq, toOption_readNumber]
        cases (readWord v.toList).toOption with
        | none => rfl
        | some m =>
          cases ws with
          | nil => exact htwo n m
          | cons => rfl

end

theorem fits_step : Verb.step.Fits stepForm {} fun a => some (.step a.count) :=
  fits_number ⟨rfl, rfl⟩ rfl rfl rfl rfl fun _ => rfl

theorem fits_setBreakpoint : Verb.setBreakpoint.Fits addressForm {} fun a =>
    a.address.map fun n => .breakpoint (.set n) :=
  fits_number ⟨rfl, rfl⟩ rfl rfl rfl rfl fun _ => rfl

theorem fits_clearBreakpoint : Verb.clearBreakpoint.Fits addressForm {} fun a =>
    a.address.map fun n => .breakpoint (.clear n) :=
  fits_number ⟨rfl, rfl⟩ rfl rfl rfl rfl fun _ => rfl

theorem fits_dump : Verb.dump.Fits dumpForm {} fun a => some (.dump a.start a.len) :=
  fits_numbers ⟨rfl, rfl⟩ rfl rfl rfl rfl rfl (fun _ => rfl) fun _ _ => rfl

theorem fits_listing : Verb.listing.Fits listingForm {} fun a => some (.listing a.start a.len) :=
  fits_numbers ⟨rfl, rfl⟩ rfl rfl rfl rfl rfl (fun _ => rfl) fun _ _ => rfl

theorem fits_set : Verb.set.Fits setForm {} fun a =>
    match a.target, a.value with
    | some t, some n => some (.set t n)
    | _, _ => none where
  plain := ⟨rfl, rfl⟩
  reads ws := by
    show _ = (readAll? [.target, .number] ws).bind _
    match ws with
    | [] => rfl
    | [w] =>
      rw [setForm, storeAll_reading rfl, readAll?, Kind.read?]
      cases (SetTarget.read w.toList).toOption <;> rfl
    | w :: v :: ws =>
      rw [setForm, storeAll_reading rfl, readAll?, Kind.read?, readAll?_number]
      cases (SetTarget.read w.toList).toOption with
      | none => rfl
      | some t =>
        show Option.bind (storeAll _ (v :: ws) _) _ = _
        rw [storeAll_reading rfl, toOption_readNumber]
        cases (readWord v.toList).toOption <;> cases ws <;> rfl

variable {verb : Verb} {name : List String}

theorem menu_nodup : (menu.flatMap Menu.names).Nodup := by decide

/-- A command at the outermost level goes by each of its names. -/
theorem reaches_of_entry {names : List String} {action : Action Command} (i : Nat)
    (hentry : menu[i]? = some (.command names action)) (hnames : verb.names = [names])
    (h : verb.Named name) : Menu.Reaches menu name action := by
  rw [Verb.Named, hnames] at h
  obtain ⟨w, rest, hw, hrest, rfl⟩ := List.forall₂_cons_right_iff.mp h
  rw [List.forall₂_nil_right_iff.mp hrest]
  exact .command (Menu.find?_of_mem menu_nodup (List.mem_of_getElem? hentry) hw)

/-- A command in a group goes by each name of the group with each of its own, which may also be
names at the outermost level. -/
theorem reaches_of_group {group names : List String} {actions : List (Menu Command)}
    {action : Action Command} (i j : Nat) (hgroup : menu[i]? = some (.group group actions))
    (hnodup : (actions.flatMap Menu.names).Nodup)
    (hentry : actions[j]? = some (.command names action)) (hnames : verb.names = [group, names])
    (h : verb.Named name) : Menu.Reaches menu name action := by
  rw [Verb.Named, hnames] at h
  obtain ⟨w, rest, hw, hrest, rfl⟩ := List.forall₂_cons_right_iff.mp h
  obtain ⟨v, last, hv, hlast, rfl⟩ := List.forall₂_cons_right_iff.mp hrest
  rw [List.forall₂_nil_right_iff.mp hlast]
  exact .group (Menu.find?_of_mem menu_nodup (List.mem_of_getElem? hgroup) hw)
    (.command (Menu.find?_of_mem hnodup (List.mem_of_getElem? hentry) hv))

/-- The name of a verb leads to what reads its places. -/
theorem exists_action (h : verb.Named name) : ∃ action, Menu.Reaches menu name action ∧
    ∀ path ws, (action.parse path ws).toOption = (values? ws).bind verb.read? := by
  -- The numbers tell where the entry stands in the menu and, for an action, in its group.
  cases verb with
  | run => exact ⟨_, reaches_of_entry 0 rfl rfl h, (fits_plain rfl rfl).toOption_parse⟩
  | pause => exact ⟨_, reaches_of_entry 1 rfl rfl h, (fits_plain rfl rfl).toOption_parse⟩
  | step => exact ⟨_, reaches_of_entry 2 rfl rfl h, fits_step.toOption_parse⟩
  | setBreakpoint =>
    exact ⟨_, reaches_of_group 3 0 rfl (by decide) rfl rfl h, fits_setBreakpoint.toOption_parse⟩
  | clearBreakpoint =>
    exact ⟨_, reaches_of_group 3 1 rfl (by decide) rfl rfl h, fits_clearBreakpoint.toOption_parse⟩
  | listBreakpoints =>
    exact ⟨_, reaches_of_group 3 2 rfl (by decide) rfl rfl h, (fits_plain rfl rfl).toOption_parse⟩
  | clearBreakpoints =>
    exact ⟨_, reaches_of_group 3 3 rfl (by decide) rfl rfl h, (fits_plain rfl rfl).toOption_parse⟩
  | set => exact ⟨_, reaches_of_entry 4 rfl rfl h, fits_set.toOption_parse⟩
  | dump => exact ⟨_, reaches_of_entry 5 rfl rfl h, fits_dump.toOption_parse⟩
  | listing => exact ⟨_, reaches_of_entry 6 rfl rfl h, fits_listing.toOption_parse⟩
  | reset => exact ⟨_, reaches_of_entry 7 rfl rfl h, (fits_plain rfl rfl).toOption_parse⟩
  | quit => exact ⟨_, reaches_of_entry 8 rfl rfl h, (fits_plain rfl rfl).toOption_parse⟩

theorem fileName?_of_plain {w : List Char} (hne : w ≠ []) (h : ∀ c ∈ w, c ≠ '/' ∧ c ≠ '.') :
    fileName? w = some w := by
  have hcut : w.splitOn '/' = [w] := List.splitOn_eq_singleton fun hc => (h '/' hc).1 rfl
  have hdot : w ≠ ['.'] := by
    rintro rfl
    exact (h '.' (.head _)).2 rfl
  have hdots : w ≠ ['.', '.'] := by
    rintro rfl
    exact (h '.' (.head _)).2 rfl
  have hparts : pathParts w = [w] := by
    rw [pathParts, hcut]
    simp [hne, hdot]
  rw [fileName?, hparts, List.getLast?_singleton]
  split
  · cases ‹some w = none›
  · cases ‹some w = some _›
    exact absurd rfl hdots
  · exact (‹some w = some _›).symm

theorem stem_of_plain {w : List Char} (h : ∀ c ∈ w, c ≠ '/' ∧ c ≠ '.') : stem w = w := by
  have hspan : w.reverse.span (· ≠ '.') = (w.reverse, []) := by
    have hall : ∀ c ∈ w.reverse, decide (c ≠ '.') = true :=
      fun c hc => decide_eq_true (h c (List.mem_reverse.mp hc)).2
    rw [List.span_eq_takeWhile_dropWhile, List.takeWhile_eq_self_iff.mpr hall,
      List.dropWhile_eq_nil_iff.mpr hall]
  rw [stem, hspan]

/-- A word that is no path is the name of a command as it stands. -/
theorem parseWords_of_plain {w : List Char} (hne : w ≠ []) (h : ∀ c ∈ w, c ≠ '/' ∧ c ≠ '.')
    (ws : List (List Char)) :
    parseWords (w :: ws) = Menu.parse menu "" ((w :: ws).map String.ofList) := by
  rw [parseWords, fileName?_of_plain hne h]
  show Menu.parse menu "" ((stem w :: ws).map String.ofList) = _
  rw [stem_of_plain h]

theorem exists_mem_of_forall₂ {α β : Type} {R : α → β → Prop} {l : List α} {u : List β}
    (h : List.Forall₂ R l u) {a : α} (ha : a ∈ l) : ∃ b ∈ u, R a b := by
  induction h with
  | nil => cases ha
  | cons hab _ ih =>
    rcases List.mem_cons.mp ha with rfl | ha
    · exact ⟨_, .head _, hab⟩
    · obtain ⟨b, hb, hR⟩ := ih ha
      exact ⟨b, .tail _ hb, hR⟩

/-- A word of a name is neither empty nor cut by blanks, and it is no path. -/
theorem proper_of_named (h : verb.Named name) {w : String} (hw : w ∈ name) :
    w.toList ≠ [] ∧ ∀ c ∈ w.toList, isBlank c = false ∧ c ≠ '/' ∧ c ≠ '.' := by
  have hnames : ∀ names ∈ verb.names, ∀ w ∈ names, w.toList ≠ [] ∧
      w.toList.all fun c => isBlank c = false ∧ c ≠ '/' ∧ c ≠ '.' := by
    cases verb <;> decide
  obtain ⟨names, hmem, hword⟩ := exists_mem_of_forall₂ h hw
  obtain ⟨hne, hall⟩ := hnames names hmem w hword
  exact ⟨hne, fun c hc => of_decide_eq_true (List.all_eq_true.mp hall c hc)⟩

theorem Verb.Named.ne_nil (h : verb.Named name) : name ≠ [] := by
  rintro rfl
  have hnil := List.forall₂_nil_left_iff.mp h
  cases verb <;> cases hnil

/-- A line that begins with the name of a verb is read by its places. -/
theorem toOption_parse_named {args : List String} {line : String} (h : verb.Named name)
    (hline : Spaced ((name ++ args).map String.toList) line.toList) :
    (parse line).toOption = (values? args).bind verb.read? := by
  obtain ⟨w, rest, rfl⟩ := List.exists_cons_of_ne_nil h.ne_nil
  obtain ⟨hne, hplain⟩ := proper_of_named h (.head _)
  obtain ⟨action, hreach, haction⟩ := exists_action h
  obtain ⟨path, hparse⟩ := hreach.parseAt "" true args
  rw [parse, words_of_spaced hline, List.cons_append, List.map_cons,
    parseWords_of_plain hne fun c hc => (hplain c hc).2]
  have hback : (w.toList :: (rest ++ args).map String.toList).map String.ofList =
      w :: rest ++ args := by
    simp
  rw [hback, Menu.parse, hparse, haction]

end Command

end Chip8

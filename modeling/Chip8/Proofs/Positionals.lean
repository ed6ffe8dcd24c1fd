import Chip8.CommandLine.Menu

/-!
Forms whose arguments are all positional, and the way to a form through its names in a menu. Such a
form stores the values of a line in its places from left to right, and makes something of the line
if each of them can be stored.
-/

namespace Chip8.CommandLine

variable {ε ε' σ α β : Type}

theorem toOption_mapError (e : ε → ε') (x : Except ε α) : (x.mapError e).toOption = x.toOption := by
  cases x <;> rfl

theorem toOption_bind (x : Except ε α) (f : α → Except ε β) :
    (x.bind f).toOption = x.toOption.bind fun a => (f a).toOption := by
  cases x <;> rfl

/-- The values in the words of a line. Two dashes alone are no value the first time, and whatever
comes after them is one. An option leaves no values. -/
def values? : List String → Option (List String)
  | [] => some []
  | w :: ws =>
    match Word.classify w with
    | .separator => some ws
    | .long _ _ | .short _ => none
    | .plain => (values? ws).map (w :: ·)

/-- Stores each value in its place. -/
def storeAll : List (Positional σ) → List String → σ → Option σ
  | _, [], s => some s
  | [], _ :: _, _ => none
  | place :: places, w :: ws, s => (place.slot.store w s).toOption.bind (storeAll places ws)

theorem classify_of_head {w : String} (h : w.toList.head? ≠ some '-') :
    Word.classify w = .plain := by
  unfold Word.classify
  split <;> simp_all

theorem eq_of_classify_separator {w : String} (h : Word.classify w = .separator) : w = "--" := by
  unfold Word.classify at h
  split at h
  · apply String.toList_injective
    assumption
  · split at h <;> cases h
  · cases h
  · cases h

theorem values?_of_plain {ws : List String} (h : ∀ w ∈ ws, Word.classify w = .plain) :
    values? ws = some ws := by
  induction ws with
  | nil => rfl
  | cons w ws ih =>
    obtain ⟨hw, hws⟩ := List.forall_mem_cons.mp h
    rw [values?, hw]
    show (values? ws).map (w :: ·) = some (w :: ws)
    rw [ih hws]
    rfl

theorem eq_erase_of_values? {ws vs : List String} (h : values? ws = some vs) :
    vs = ws.erase "--" := by
  induction ws generalizing vs with
  | nil =>
    cases h
    rfl
  | cons w ws ih =>
    rw [values?] at h
    split at h
    case h_1 hw =>
      cases h
      rw [eq_of_classify_separator hw, List.erase_cons_head]
    case h_2 => cases h
    case h_3 => cases h
    case h_4 hw =>
      obtain ⟨rest, hrest, rfl⟩ := Option.map_eq_some_iff.mp h
      have hne : (w == "--") = false := by
        refine beq_false_of_ne ?_
        rintro rfl
        cases hw
      rw [List.erase_cons_tail (by simp [hne]), ih hrest]

namespace Filling

variable {f : Filling σ} {text : String}

/-- The record when the value taken last is stored in it. -/
def stored? (f : Filling σ) : Option σ := f.settle.toOption.map record

theorem stored?_positional (place : Positional σ) (free : List (Positional σ)) :
    stored? { f with free, pending := .positional place text } =
      (place.slot.store text f.record).toOption := by
  rw [stored?, settle]
  dsimp only
  rw [store]
  dsimp only
  rcases place.slot.store text f.record with (_ | _) | _ <;> rfl

/-- A value that is taken is stored in the first free place, and those after it go on from there. -/
theorem takePositional_bind {k : Filling σ → Option σ} (rest : Option (List String))
    (hk : ∀ g : Filling σ, (∀ o, g.pending ≠ .option o none) →
      k g = rest.bind fun vs => g.stored?.bind (storeAll g.free vs)) :
    (f.takePositional text).toOption.bind k =
      (rest.map (text :: ·)).bind fun vs => f.stored?.bind (storeAll f.free vs) := by
  rw [takePositional, stored?]
  rcases f.free with _ | ⟨place, free⟩
  · cases rest <;> cases f.settle <;> rfl
  · cases f.settle with
    | error e => cases rest <;> rfl
    | ok g =>
      show k { g with free, pending := .positional place text } = _
      have hwaits : ∀ o, Pending.positional place text ≠ .option o none := by simp
      rw [hk _ hwaits, stored?_positional]
      cases rest <;> rfl

end Filling

namespace Form

variable {form : Form σ} {path : String}

theorem record_fillValues (f : Filling σ) (ws : List String) :
    (fillValues f ws).toOption.map Filling.record = f.stored?.bind (storeAll f.free ws) := by
  induction ws generalizing f with
  | nil =>
    have hstore : storeAll f.free [] = some := by
      funext s
      rw [storeAll]
    rw [hstore]
    exact (Option.bind_fun_some _).symm
  | cons w ws ih =>
    rw [fillValues, toOption_bind, Option.map_bind]
    exact Filling.takePositional_bind (some ws) fun g _ => ih g

/-- All arguments are positional. -/
structure Plain (form : Form σ) : Prop where
  options : form.options = []
  switches : form.switches = []

theorem Plain.toOption_takeLong (h : form.Plain) (f : Filling σ) (name : String)
    (attached : Option String) : (form.takeLong path f name attached).toOption = none := by
  rw [takeLong, h.options, h.switches]
  cases attached with
  | none =>
    by_cases hname : name = "help"
    · simp only [List.find?_nil, if_pos hname]
      cases f.settle <;> rfl
    · simp only [List.find?_nil, if_neg hname]
      rfl
  | some value =>
    by_cases hname : name = "help" <;> simp [hname] <;> rfl

/-- A line is refused, or its words leave values each of which has its place. -/
theorem Plain.record_fill (h : form.Plain) (path : String) {f : Filling σ}
    (hf : ∀ o, f.pending ≠ .option o none) (ws : List String) :
    (form.fill path f ws).toOption.map Filling.record =
      (values? ws).bind fun vs => f.stored?.bind (storeAll f.free vs) := by
  induction ws generalizing f with
  | nil =>
    rw [fill, toOption_mapError]
    exact record_fillValues f []
  | cons w ws ih =>
    rw [fill, takeWord, values?]
    cases hw : Word.classify w with
    | separator =>
      rw [if_pos rfl, toOption_mapError]
      exact record_fillValues f ws
    | long name attached =>
      rw [if_neg (by simp), toOption_bind]
      simp [h.toOption_takeLong]
    | short letter =>
      rw [if_neg (by simp), toOption_bind]
      dsimp only
      split
      · simp [h.toOption_takeLong]
      · rfl
    | plain =>
      -- No option waits for a value, so the word goes to the next place.
      have htake : f.takePlain w = f.takePositional w := by
        unfold Filling.takePlain
        split
        · exact absurd ‹_› (hf _)
        · rfl
      rw [if_neg (by simp), toOption_bind, Option.map_bind]
      dsimp only
      rw [htake, toOption_mapError]
      exact Filling.takePositional_bind (values? ws) fun g hg => ih hg

/-- What a plain form makes of the words after its name. -/
theorem Plain.toOption_parse (h : form.Plain) (blank : σ) (finish : σ → Option α)
    (ws : List String) :
    (form.parse blank finish path ws).toOption = (values? ws).bind fun vs =>
      (storeAll form.positionals vs blank).bind finish := by
  have hfill := h.record_fill path (f := ⟨blank, .nothing, form.positionals, []⟩) (by simp) ws
  have hfinish : (form.parse blank finish path ws).toOption =
      ((form.fill path ⟨blank, .nothing, form.positionals, []⟩ ws).toOption.map
        Filling.record).bind finish := by
    rw [parse]
    rcases form.fill path ⟨blank, .nothing, form.positionals, []⟩ ws with e | f
    · rfl
    · show _ = finish f.record
      dsimp only
      cases finish f.record <;> rfl
  rw [hfinish, hfill, Option.bind_assoc]
  rfl

end Form

namespace Menu

variable {entries : List (Menu α)} {name : List String} {action : Action α}

/-- In a menu that gives no name twice, each name is that of its entry. -/
theorem find?_of_mem {entry : Menu α} {w : String} (hnodup : (entries.flatMap names).Nodup)
    (hentry : entry ∈ entries) (hw : w ∈ entry.names) : find? entries w = some entry := by
  induction entries with
  | nil => cases hentry
  | cons first entries ih =>
    rw [List.flatMap_cons, List.nodup_append] at hnodup
    obtain ⟨-, hrest, hdisjoint⟩ := hnodup
    rw [find?, List.find?_cons]
    rcases List.mem_cons.mp hentry with rfl | hentry
    · rw [List.contains_iff_mem.mpr hw]
    · have hfirst : w ∉ first.names := fun hmem =>
        hdisjoint w hmem w (List.mem_flatMap_of_mem hentry hw) rfl
      have hfalse : first.names.contains w = false := by simpa using hfirst
      rw [hfalse]
      exact ih hrest hentry

/-- The command that a name leads to, with a word for each group on the way to it. -/
inductive Reaches : List (Menu α) → List String → Action α → Prop
  | command {entries : List (Menu α)} {w : String} {names : List String} {action : Action α}
      (h : find? entries w = some (.command names action)) : Reaches entries [w] action
  | group {entries inner : List (Menu α)} {w : String} {names name : List String}
      {action : Action α} (h : find? entries w = some (.group names inner))
      (hrest : Reaches inner name action) : Reaches entries (w :: name) action

theorem Reaches.parseAt (h : Reaches entries name action) (path : String) (outermost : Bool)
    (args : List String) : ∃ path',
      Menu.parseAt ⟨path, outermost, entries⟩ (name ++ args) = action.parse path' args := by
  induction h generalizing path outermost with
  | @command entries w names action h =>
    refine ⟨pathTo path (names.headD ""), ?_⟩
    rw [List.singleton_append, Menu.parseAt]
    simp only [h]
  | group h _ ih =>
    rw [List.cons_append, Menu.parseAt]
    simp only [h]
    exact ih _ _

end Menu

end Chip8.CommandLine

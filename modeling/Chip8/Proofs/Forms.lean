import Chip8.CommandLine.Form

/-!
What holds of the record that a form fills. If it holds at the start and no value or switch ends it,
it holds of every record that is made of a line of words, whatever the words and their order.
-/

namespace Chip8.CommandLine

variable {σ α : Type} {P : σ → Prop}

/-- Storing a value keeps what holds of the record. -/
def Slot.Keeps (P : σ → Prop) (slot : Slot σ) : Prop :=
  ∀ text s s', slot.store text s = .ok s' → P s → P s'

structure Form.Keeps (P : σ → Prop) (form : Form σ) : Prop where
  positional : ∀ p ∈ form.positionals, p.slot.Keeps P
  option : ∀ o ∈ form.options, o.slot.Keeps P
  switch : ∀ s ∈ form.switches, ∀ r, P r → P (s.turnOn r)

def Pending.Keeps (P : σ → Prop) : Pending σ → Prop
  | .nothing => True
  | .positional place _ => place.slot.Keeps P
  | .option named _ => named.slot.Keeps P

/-- The record is sound, and so is every argument that can still be stored in it. -/
structure Filling.Keeps (P : σ → Prop) (f : Filling σ) : Prop where
  record : P f.record
  pending : f.pending.Keeps P
  free : ∀ p ∈ f.free, p.slot.Keeps P

namespace Filling

variable {f g : Filling σ} {label text : String} {slot : Slot σ} {o : NamedOption σ}

theorem Keeps.store (h : f.Keeps P) (hslot : slot.Keeps P) (hg : f.store label slot text = .ok g) :
    g.Keeps P := by
  unfold Filling.store at hg
  split at hg
  · rename_i record hrecord
    cases hg
    exact ⟨hslot text f.record record hrecord h.record, trivial, h.free⟩
  · cases hg
  · cases hg

theorem Keeps.storeNamed (h : f.Keeps P) (ho : o.slot.Keeps P)
    (hg : f.storeNamed o text = .ok g) : g.Keeps P := by
  unfold Filling.storeNamed at hg
  split at hg
  · cases hg
  · exact Keeps.store (f := { f with used := o.label :: f.used }) ⟨h.record, h.pending, h.free⟩ ho hg

theorem Keeps.settle (h : f.Keeps P) (hg : f.settle = .ok g) : g.Keeps P := by
  have hpending := h.pending
  unfold Filling.settle at hg
  split at hg <;> rename_i hf <;> rw [hf] at hpending
  · cases hg
    exact h
  · exact h.store hpending hg
  · cases hg
  · exact h.storeNamed hpending hg

theorem Keeps.takePositional (h : f.Keeps P) (hg : f.takePositional text = .ok g) : g.Keeps P := by
  unfold Filling.takePositional at hg
  split at hg
  · cases hg
  · rename_i place free hfree
    have hplaces := h.free
    rw [hfree, List.forall_mem_cons] at hplaces
    rcases hs : f.settle with e | s <;> rw [hs] at hg <;> cases hg
    exact ⟨(h.settle hs).record, hplaces.1, hplaces.2⟩

theorem Keeps.takePlain (h : f.Keeps P) (hg : f.takePlain text = .ok g) : g.Keeps P := by
  unfold Filling.takePlain at hg
  split at hg
  · rename_i o ho
    have hpending := h.pending
    rw [ho] at hpending
    cases hg
    exact ⟨h.record, hpending, h.free⟩
  · exact h.takePositional hg

theorem Keeps.takeOption (h : f.Keeps P) (ho : o.slot.Keeps P) {attached : Option String}
    (hg : f.takeOption o attached = .ok g) : g.Keeps P := by
  unfold Filling.takeOption at hg
  rcases hs : f.settle with e | s <;> rw [hs] at hg
  · cases hg
  · have hsettled := h.settle hs
    cases attached with
    | some text => exact hsettled.storeNamed ho hg
    | none =>
      cases hg
      exact ⟨hsettled.record, ho, hsettled.free⟩

theorem Keeps.takeSwitch (h : f.Keeps P) {s : Switch σ} (hs : ∀ r, P r → P (s.turnOn r))
    (hg : f.takeSwitch s = .ok g) : g.Keeps P := by
  unfold Filling.takeSwitch at hg
  rcases hf : f.settle with e | settled <;> rw [hf] at hg
  · cases hg
  · have hsettled := h.settle hf
    dsimp only [Except.bind] at hg
    split at hg <;> cases hg
    exact ⟨hs _ hsettled.record, hsettled.pending, hsettled.free⟩

end Filling

namespace Form

variable {form : Form σ} {f g : Filling σ} {path w : String}

theorem ok_of_mapError {ε ε' : Type} {x : Except ε α} {e : ε → ε'} {a : α}
    (h : x.mapError e = .ok a) : x = .ok a := by
  cases x <;> cases h
  rfl

theorem Keeps.takeLong (hform : form.Keeps P) (h : f.Keeps P) {name : String}
    {attached : Option String} (hg : form.takeLong path f name attached = .ok g) : g.Keeps P := by
  unfold Form.takeLong at hg
  split at hg
  · rename_i o ho
    exact h.takeOption (hform.option o (List.mem_of_find?_eq_some ho)) (ok_of_mapError hg)
  · dsimp only at hg
    split at hg
    · rename_i s hs
      exact h.takeSwitch (hform.switch s (List.mem_of_find?_eq_some hs)) (ok_of_mapError hg)
    · split at hg
      · split at hg <;> cases hg
      · cases hg
    · split at hg <;> cases hg

theorem Keeps.takeWord (hform : form.Keeps P) (h : f.Keeps P)
    (hg : form.takeWord path f w = .ok g) : g.Keeps P := by
  unfold Form.takeWord at hg
  split at hg
  · cases hg
    exact h
  · exact hform.takeLong h hg
  · split at hg
    · exact hform.takeLong h hg
    · cases hg
  · exact h.takePlain (ok_of_mapError hg)

theorem keeps_of_fillValues {ws : List String} (h : f.Keeps P) (hg : fillValues f ws = .ok g) :
    g.Keeps P := by
  induction ws generalizing f with
  | nil => exact h.settle hg
  | cons w ws ih =>
    rw [fillValues] at hg
    rcases hw : f.takePositional w with e | taken <;> rw [hw] at hg
    · cases hg
    · exact ih (h.takePositional hw) hg

theorem Keeps.fill (hform : form.Keeps P) {ws : List String} (h : f.Keeps P)
    (hg : form.fill path f ws = .ok g) : g.Keeps P := by
  induction ws generalizing f with
  | nil => exact h.settle (ok_of_mapError hg)
  | cons w ws ih =>
    rw [Form.fill] at hg
    split at hg
    · exact keeps_of_fillValues h (ok_of_mapError hg)
    · rcases hw : form.takeWord path f w with e | taken <;> rw [hw] at hg
      · cases hg
      · exact ih (hform.takeWord h hw) hg

/-- What holds of the blank record, and is kept by all that can be stored, holds of the record that
a line comes to. -/
theorem Keeps.parse (hform : form.Keeps P) {blank : σ} (hblank : P blank) {finish : σ → Option α}
    {ws : List String} {a : α} (h : form.parse blank finish path ws = .ok a) :
    ∃ record, P record ∧ finish record = some a := by
  unfold Form.parse at h
  split at h
  · cases h
  · rename_i f hf
    have hstart : Filling.Keeps P ⟨blank, .nothing, form.positionals, []⟩ :=
      ⟨hblank, trivial, hform.positional⟩
    have hfilled := hform.fill hstart hf
    split at h <;> cases h
    rename_i hfinish
    exact ⟨f.record, hfilled.record, hfinish⟩

end Form

end Chip8.CommandLine

import Mathlib.Data.List.Induction
import Chip8.HeldKeys

/-!
How long keys are held, over any history of presses and sweeps. The times may come in any order. A
key is remembered from a press until a sweep returns it, with the time of its last press; a sweep
returns the keys whose time is too long ago, and forgets those.
-/

namespace Chip8.HeldKeys

/-- A press of a key, or a sweep with the keys that it returned. -/
inductive Event where
  | pressed (k : Nibble) (time : Nat)
  | swept (time : Nat) (keys : List Nibble)

/-- The event is about the key: it is pressed, or returned. -/
def Event.Concerns (k : Nibble) : Event → Prop
  | pressed j _ => j = k
  | swept _ keys => k ∈ keys

/-- What becomes of keys of which none is held at first. The first event comes first. -/
inductive History : List Event → HeldKeys → Prop
  | start : History [] .none
  | press {events : List Event} {held : HeldKeys} (h : History events held) (k : Nibble)
      (time : Nat) : History (events ++ [.pressed k time]) (held.press k time)
  | sweep {events : List Event} {held : HeldKeys} (h : History events held) (time : Nat) :
      History (events ++ [.swept time (held.expire time).1]) (held.expire time).2

/-- The last event about the key is its press at that time. So it has not been returned since. -/
def LastPress (events : List Event) (k : Nibble) (time : Nat) : Prop :=
  ∃ before after, events = before ++ .pressed k time :: after ∧ ∀ e ∈ after, ¬e.Concerns k

variable {events before after : List Event} {held : HeldKeys} {e : Event} {k : Nibble}
  {time now : Nat}

theorem lastPress_concat : LastPress (events ++ [e]) k time ↔
    e = .pressed k time ∨ ¬e.Concerns k ∧ LastPress events k time := by
  constructor
  · rintro ⟨before, after, heq, hafter⟩
    induction after using List.reverseRecOn with
    | nil => exact .inl (List.cons.inj (List.append_inj' heq rfl).2).1
    | append_singleton after last =>
      rw [← List.cons_append, ← List.append_assoc] at heq
      obtain ⟨hevents, hlast⟩ := List.append_inj' heq rfl
      obtain rfl := (List.cons.inj hlast).1
      obtain ⟨hafter, hlast⟩ := List.forall_mem_append.mp hafter
      exact .inr ⟨hlast e List.mem_cons_self, before, after, hevents, hafter⟩
  · rintro (rfl | ⟨he, before, after, rfl, hafter⟩)
    · exact ⟨events, [], rfl, nofun⟩
    · refine ⟨before, after ++ [e], ?_, ?_⟩
      · rw [List.append_assoc, List.cons_append]
      · exact List.forall_mem_append.mpr ⟨hafter, List.forall_mem_singleton.mpr he⟩

/-- The last press stands in the later part of a history, or no event of that part is about the
key. -/
theorem lastPress_append : LastPress (before ++ after) k time ↔
    LastPress after k time ∨ (∀ e ∈ after, ¬e.Concerns k) ∧ LastPress before k time := by
  induction after using List.reverseRecOn with
  | nil => simp [LastPress]
  | append_singleton after e ih =>
    rw [← List.append_assoc, lastPress_concat, lastPress_concat, ih, List.forall_mem_append,
      List.forall_mem_singleton]
    tauto

theorem LastPress.mem (h : LastPress events k time) : .pressed k time ∈ events := by
  obtain ⟨before, after, rfl, -⟩ := h
  simp

/-- What the table has is the last press, for every key. -/
theorem History.pressedAt (h : History events held) (k : Nibble) (time : Nat) :
    held.pressedAt.get k = some time ↔ LastPress events k time := by
  induction h with
  | start =>
    have hnone : none.pressedAt.get k = .none := Vector.getElem_replicate ..
    simp [hnone, LastPress]
  | press _ j now ih =>
    rw [pressedAt_press, lastPress_concat, ← ih]
    by_cases hj : j = k
    · simp [hj, Event.Concerns]
    · simp [hj, Event.Concerns]
  | @sweep _ held _ now ih =>
    rw [pressedAt_expire, lastPress_concat, ← ih, Event.Concerns, mem_expire]
    cases held.isExpired now k <;> simp

theorem History.mem_expire (h : History events held) :
    k ∈ (held.expire now).1 ↔ ∃ time, LastPress events k time ∧ 50000000 < now - time := by
  simp only [← h.pressedAt, HeldKeys.mem_expire, isExpired]
  cases held.pressedAt.get k with
  | none => simp
  | some last =>
    rw [decide_eq_true_iff]
    simp [hold]

theorem ascending_expire (held : HeldKeys) (now : Nat) : (held.expire now).1.Pairwise (· < ·) :=
  (List.pairwise_lt_finRange 16).filter _

/-- What a sweep returns is forgotten with it, so another one at the same time finds nothing. -/
theorem expire_expire (held : HeldKeys) (now : Nat) : ((held.expire now).2.expire now).1 = [] := by
  rw [List.eq_nil_iff_forall_not_mem]
  intro k hk
  rw [HeldKeys.mem_expire, isExpired, pressedAt_expire] at hk
  cases hexpired : held.isExpired now k with
  | true => simp [hexpired] at hk
  | false =>
    rw [hexpired] at hk
    exact absurd hk (Bool.eq_false_iff.mp hexpired)

/-- Every event came about from the history before it. -/
theorem History.of_append {rest : List Event} (h : History (before ++ rest) held) :
    ∃ earlier, History before earlier := by
  induction rest using List.reverseRecOn generalizing held with
  | nil => exact ⟨held, by simpa using h⟩
  | append_singleton rest e ih =>
    rw [← List.append_assoc] at h
    generalize hevents : before ++ rest ++ [e] = events at h
    cases h with
    | start => simp at hevents
    | press h => exact ih ((List.append_inj' hevents rfl).1 ▸ h)
    | sweep h => exact ih ((List.append_inj' hevents rfl).1 ▸ h)

theorem History.of_swept {keys : List Nibble}
    (h : History (before ++ .swept now keys :: after) held) :
    ∃ earlier, History before earlier ∧ (earlier.expire now).1 = keys := by
  rw [← List.singleton_append, ← List.append_assoc] at h
  obtain ⟨later, h⟩ := h.of_append
  generalize hevents : before ++ [.swept now keys] = events at h
  cases h with
  | start => simp at hevents
  | press _ _ _ => cases (List.append_inj' hevents rfl).2
  | @sweep _ earlier hearlier =>
    obtain ⟨rfl, hlast⟩ := List.append_inj' hevents rfl
    cases hlast
    exact ⟨earlier, hearlier, rfl⟩

/-- Whatever the presses and sweeps before, and whatever their times: the table has the last press
of each key that was not returned since. A sweep returns, in ascending order, the keys whose last
press is more than the time of a hold ago, where a press in the future is none ago. It forgets
these, keeps the times of the others, and leaves nothing to another sweep at its time. So a key is
returned again only if it was pressed in between, and a press keeps its key for the time of a hold.
-/
theorem returned_once_quiet (h : History events held) :
    (∀ k time, held.pressedAt.get k = some time ↔ LastPress events k time) ∧
    (∀ now,
      let keys := (held.expire now).1
      let rest := (held.expire now).2
      keys.Pairwise (· < ·) ∧
      (∀ k, k ∈ keys ↔ ∃ time, LastPress events k time ∧ 50000000 < now - time) ∧
      (∀ k ∈ keys, rest.pressedAt.get k = .none) ∧
      (∀ k, k ∉ keys → rest.pressedAt.get k = held.pressedAt.get k) ∧
      (rest.expire now).1 = []) ∧
    (∀ before now keys after, events = before ++ .swept now keys :: after →
      keys.Pairwise (· < ·) ∧
      ∀ k, k ∈ keys ↔ ∃ time, LastPress before k time ∧ 50000000 < now - time) ∧
    (∀ k before first keys between second keys' after,
      events = before ++ .swept first keys :: between ++ .swept second keys' :: after →
        k ∈ keys → k ∈ keys' → ∃ time, .pressed k time ∈ between) ∧
    ∀ k before time between now keys after,
      events = before ++ .pressed k time :: between ++ .swept now keys :: after →
        (∀ t, .pressed k t ∉ between) → now ≤ time + 50000000 → k ∉ keys := by
  refine ⟨h.pressedAt, ?sweep, ?earlier, ?burst, ?restart⟩
  case sweep =>
    intro now keys rest
    refine ⟨held.ascending_expire now, fun k => h.mem_expire, fun k hk => ?_, fun k hk => ?_,
      held.expire_expire now⟩
    · have hexpired : held.isExpired now k = true := HeldKeys.mem_expire.mp hk
      simp only [rest, pressedAt_expire, if_pos hexpired]
    · have hkept : ¬held.isExpired now k = true := mt HeldKeys.mem_expire.mpr hk
      simp only [rest, pressedAt_expire, if_neg hkept]
  case earlier =>
    rintro before now keys after rfl
    obtain ⟨earlier, hearlier, rfl⟩ := h.of_swept
    exact ⟨earlier.ascending_expire now, fun k => hearlier.mem_expire⟩
  case burst =>
    rintro k before first keys between second keys' after rfl hfirst hsecond
    obtain ⟨earlier, hearlier, rfl⟩ := h.of_swept
    obtain ⟨time, hlast, -⟩ := hearlier.mem_expire.mp hsecond
    rw [← List.singleton_append, ← List.append_assoc] at hlast
    rcases lastPress_append.mp hlast with hbetween | ⟨-, hbefore⟩
    · exact ⟨time, hbetween.mem⟩
    · rcases lastPress_concat.mp hbefore with heq | ⟨hnot, -⟩
      · cases heq
      · exact absurd hfirst hnot
  case restart =>
    rintro k before time between now keys after rfl hquiet hnow hk
    obtain ⟨earlier, hearlier, rfl⟩ := h.of_swept
    obtain ⟨last, hlast, hlong⟩ := hearlier.mem_expire.mp hk
    rw [← List.singleton_append, ← List.append_assoc] at hlast
    rcases lastPress_append.mp hlast with hbetween | ⟨-, hbefore⟩
    · exact hquiet last hbetween.mem
    · rcases lastPress_concat.mp hbefore with heq | ⟨hnot, -⟩
      · cases heq
        omega
      · exact hnot rfl

/-- Two keys are pressed, a sweep returns the first one, the second is pressed again, and then the
clock is set back. -/
def clockSetBack : List Event :=
  [.pressed 4 10, .pressed 5 20, .swept 50000011 [4], .pressed 5 60000000, .swept 300 []]

/-- The second key is held for the whole time after its second press, and is then returned once. -/
theorem returned_once_quiet_clockSetBack :
    ∃ held, History clockSetBack held ∧ held.pressedAt.get 5 = some 60000000 ∧
      5 ∉ (held.expire 110000000).1 ∧ 5 ∈ (held.expire 110000001).1 ∧
      (held.expire 110000001).2.pressedAt.get 5 = .none ∧
      ((held.expire 110000001).2.expire 110000001).1 = [] := by
  have h : History clockSetBack _ :=
    ((((History.start.press 4 10).press 5 20).sweep 50000011).press 5 60000000).sweep 300
  have hlast : LastPress clockSetBack 5 60000000 :=
    ⟨[.pressed 4 10, .pressed 5 20, .swept 50000011 [4]], [.swept 300 []], rfl,
      by simp [Event.Concerns]⟩
  obtain ⟨hpressed, hsweep, -⟩ := returned_once_quiet h
  obtain ⟨-, hreturned, hforgotten, -, hagain⟩ := hsweep 110000001
  have hmem := (hreturned 5).mpr ⟨60000000, hlast, by decide⟩
  have hkept := (returned_once_quiet (h.sweep 110000000)).2.2.2.2 5
    [.pressed 4 10, .pressed 5 20, .swept 50000011 [4]] 60000000 [.swept 300 []] 110000000 _ [] rfl
    (by simp) (by decide)
  exact ⟨_, h, (hpressed 5 60000000).mpr hlast, hkept, hmem, hforgotten 5 hmem, hagain⟩

end Chip8.HeldKeys

import Chip8.Proofs.TargetNames

/-!
The texts that spell a number, in decimal or in hexadecimal with either case of its letters, and
what is read from them. However long the text is, it is read as the number that it spells or
refused because that number is too large.
-/

namespace Chip8.CommandLine

variable {radix limit acc n : Nat} {overflow : NumberError} {c : Char} {cs ds : List Char}

/-- The shortest digits of `n`, with any number of zeros before them. Hexadecimal ones stand after
a mark, and every letter may have either case. -/
inductive Spells (n : Nat) : List Char → Prop
  | decimal (zeros : Nat) : Spells n (List.replicate zeros '0' ++ Nat.toDigits 10 n)
  | hexadecimal (zeros : Nat) {mark : Char} {digits : List Char} (hmark : mark = 'x' ∨ mark = 'X')
      (hdigits : digits.map Char.toLower = Nat.toDigits 16 n) :
      Spells n ('0' :: mark :: (List.replicate zeros '0' ++ digits))

theorem readDigits_append (cs ds : List Char) :
    readDigits radix limit overflow acc (cs ++ ds) =
      (readDigits radix limit overflow acc cs).bind fun n =>
        readDigits radix limit overflow n ds := by
  induction cs generalizing acc with
  | nil => rfl
  | cons c cs ih =>
    rw [List.cons_append, readDigits, readDigits]
    cases digit? radix c with
    | none => rfl
    | some d =>
      dsimp only
      split
      · exact ih
      · rfl

/-- What is read depends on the values of the digits alone. -/
theorem readDigits_congr (h : cs.map (digit? radix) = ds.map (digit? radix)) :
    readDigits radix limit overflow acc cs = readDigits radix limit overflow acc ds := by
  induction cs generalizing acc ds with
  | nil =>
    rw [List.map_eq_nil_iff.mp h.symm]
  | cons c cs ih =>
    obtain ⟨d, ds, rfl⟩ := List.exists_cons_of_ne_nil fun hnil : ds = [] => by simp [hnil] at h
    obtain ⟨hhead, htail⟩ := List.cons.inj h
    rw [readDigits, readDigits, hhead]
    cases digit? radix d with
    | none => rfl
    | some x => simp only [ih htail]

theorem readDigits_zeros (hradix : 0 < radix) (zeros : Nat) :
    readDigits radix limit overflow 0 (List.replicate zeros '0') = .ok 0 := by
  have hzero : digit? radix '0' = some 0 := if_pos hradix
  induction zeros with
  | zero => rfl
  | succ zeros ih =>
    rw [List.replicate_succ, readDigits, hzero]
    simpa using ih

theorem digit?_digitChar (hradix : radix ≤ 16) (h : n < radix) :
    digit? radix (Nat.digitChar n) = some n := by
  have hvalue : ∀ d : Nibble, Hex.value? (Nat.digitChar d.val) = some d := by decide
  rw [digit?, hvalue ⟨n, by omega⟩]
  exact if_pos h

/-- By the last digit: the digits before it are those of the quotient, which is too large only if
the number is. -/
theorem readDigits_toDigits (hbase : 1 < radix) (hradix : radix ≤ 16) (n : Nat) :
    readDigits radix limit overflow 0 (Nat.toDigits radix n) =
      if n ≤ limit then .ok n else .error overflow := by
  induction n using Nat.strongRecOn with
  | ind n ih =>
    rcases Nat.lt_or_ge n radix with hn | hn
    · rw [Nat.toDigits_of_lt_base hn, readDigits, digit?_digitChar hradix hn]
      simp only [Nat.zero_mul, Nat.zero_add, readDigits]
    · have hless : n / radix < n := Nat.div_lt_self (by omega) hbase
      have hdigit := digit?_digitChar hradix (Nat.mod_lt n (by omega))
      have hvalue : n / radix * radix + n % radix = n := by
        rw [Nat.mul_comm]
        exact Nat.div_add_mod n radix
      rw [Nat.toDigits_of_base_le hbase hn, readDigits_append, ih _ hless]
      by_cases hquotient : n / radix ≤ limit
      · rw [if_pos hquotient]
        show readDigits radix limit overflow (n / radix) [Nat.digitChar (n % radix)] = _
        rw [readDigits, hdigit]
        simp only [hvalue, readDigits]
      · have hlarge : ¬n ≤ limit := by omega
        rw [if_neg hquotient, if_neg hlarge]
        rfl

theorem value?_toLower (c : Char) : Hex.value? c.toLower = Hex.value? c := by
  rcases Nat.lt_or_ge c.toNat 128 with h | h
  · have hall : ∀ n < 128,
        Hex.value? (Char.ofNat n).toLower = Hex.value? (Char.ofNat n) := by decide
    have hc := hall c.toNat h
    rwa [Char.ofNat_toNat] at hc
  · rw [toLower_of_le h]

/-- Zeros before the digits and the case of letters make no difference. -/
theorem readDigits_of_digits (hbase : 1 < radix) (hradix : radix ≤ 16) (zeros : Nat)
    (hdigits : cs.map Char.toLower = Nat.toDigits radix n) :
    readDigits radix limit overflow 0 (List.replicate zeros '0' ++ cs) =
      if n ≤ limit then .ok n else .error overflow := by
  have hvalues : cs.map (digit? radix) = (Nat.toDigits radix n).map (digit? radix) := by
    rw [← hdigits, List.map_map]
    exact List.map_congr_left fun c _ => by simp [digit?, value?_toLower]
  rw [readDigits_append, readDigits_zeros (by omega)]
  show readDigits radix limit overflow 0 cs = _
  rw [readDigits_congr hvalues, readDigits_toDigits hbase hradix]

theorem mem_toDigits (hbase : 1 < radix) (hc : c ∈ Nat.toDigits radix n) :
    ∃ d < radix, c = Nat.digitChar d := by
  induction n using Nat.strongRecOn with
  | ind n ih =>
    rcases Nat.lt_or_ge n radix with hn | hn
    · rw [Nat.toDigits_of_lt_base hn, List.mem_singleton] at hc
      exact ⟨n, hn, hc⟩
    · rw [Nat.toDigits_of_base_le hbase hn, List.mem_append, List.mem_singleton] at hc
      rcases hc with hc | hc
      · exact ih (n / radix) (Nat.div_lt_self (by omega) hbase) hc
      · exact ⟨n % radix, Nat.mod_lt n (by omega), hc⟩

theorem toLower_toDigits (hbase : 1 < radix) (hradix : radix ≤ 16) (n : Nat) :
    (Nat.toDigits radix n).map Char.toLower = Nat.toDigits radix n := by
  have hall : ∀ d < 16, (Nat.digitChar d).toLower = Nat.digitChar d := by decide
  refine (List.map_congr_left fun c hc => ?_).trans (List.map_id _)
  obtain ⟨d, hd, rfl⟩ := mem_toDigits hbase hc
  exact hall d (by omega)

/-- Each digit is one in lower case too. -/
theorem toLower_mem_digits {zeros : Nat} (hbase : 1 < radix) (hradix : radix ≤ 16)
    (hdigits : cs.map Char.toLower = Nat.toDigits radix n)
    (hc : c ∈ List.replicate zeros '0' ++ cs) : c.toLower ∈ "0123456789abcdef".toList := by
  rcases List.mem_append.mp hc with hc | hc
  · rw [List.eq_of_mem_replicate hc]
    decide
  · have hall : ∀ d < 16, Nat.digitChar d ∈ "0123456789abcdef".toList := by decide
    have hlower : c.toLower ∈ Nat.toDigits radix n := hdigits ▸ List.mem_map_of_mem hc
    obtain ⟨d, hd, hchar⟩ := mem_toDigits hbase hlower
    rw [hchar]
    exact hall d (by omega)

/-- Every character is a digit or, in one place, the mark. -/
theorem Spells.toLower_mem (h : Spells n cs) (hc : c ∈ cs) :
    c.toLower ∈ 'x' :: "0123456789abcdef".toList := by
  cases h with
  | decimal zeros =>
    have hlower := toLower_toDigits (by decide : 1 < 10) (by decide) n
    exact .tail _ (toLower_mem_digits (by decide) (by decide) hlower hc)
  | hexadecimal zeros hmark hdigits =>
    rcases List.mem_cons.mp hc with rfl | hc
    · decide
    rcases List.mem_cons.mp hc with rfl | hc
    · rcases hmark with rfl | rfl <;> decide
    · exact .tail _ (toLower_mem_digits (by decide) (by decide) hdigits hc)

theorem readNat_of_digits (hne : cs ≠ []) (h : ∀ c ∈ cs, c ≠ '+') :
    readNat radix limit cs = readDigits radix limit .tooLarge 0 cs := by
  unfold readNat
  split
  · exact absurd rfl hne
  · exact absurd rfl (h '+' (.head _))
  · exact absurd rfl (h '+' (.head _))
  · rfl

theorem readNat_of_spelt {zeros : Nat} (hbase : 1 < radix) (hradix : radix ≤ 16)
    (hdigits : cs.map Char.toLower = Nat.toDigits radix n) :
    readNat radix limit (List.replicate zeros '0' ++ cs) =
      if n ≤ limit then .ok n else .error .tooLarge := by
  have hne : cs ≠ [] := by
    rintro rfl
    exact Nat.toDigits_ne_nil hdigits.symm
  have hplus : ∀ c ∈ List.replicate zeros '0' ++ cs, c ≠ '+' := by
    rintro c hc rfl
    exact absurd (toLower_mem_digits hbase hradix hdigits hc) (by decide)
  rw [readNat_of_digits (List.append_ne_nil_of_right_ne_nil _ hne) hplus,
    readDigits_of_digits hbase hradix zeros hdigits]

theorem readWord_of_unmarked (h : ∀ c ∈ cs, c.toLower ≠ 'x') :
    readWord cs = (readNat 10 0xFFFF cs).map UInt16.ofNat := by
  unfold readWord
  split
  · exact absurd rfl (h 'x' (.tail _ (.head _)))
  · exact absurd rfl (h 'X' (.tail _ (.head _)))
  · rfl

/-- A number is read from each of its spellings if it has sixteen bits. -/
theorem readWord_of_spells (h : Spells n cs) :
    readWord cs = if n ≤ 0xFFFF then .ok (UInt16.ofNat n) else .error .tooLarge := by
  have hmap : (if n ≤ 0xFFFF then .ok n else .error .tooLarge : Except NumberError Nat).map
      UInt16.ofNat = if n ≤ 0xFFFF then .ok (UInt16.ofNat n) else .error .tooLarge := by
    split <;> rfl
  cases h with
  | decimal zeros =>
    have hlower := toLower_toDigits (by decide : 1 < 10) (by decide) n
    have hunmarked : ∀ c ∈ List.replicate zeros '0' ++ Nat.toDigits 10 n, c.toLower ≠ 'x' := by
      intro c hc hx
      have hdigit := toLower_mem_digits (by decide) (by decide) hlower hc
      rw [hx] at hdigit
      exact absurd hdigit (by decide)
    rw [readWord_of_unmarked hunmarked, readNat_of_spelt (by decide) (by decide) hlower, hmap]
  | hexadecimal zeros hmark hdigits =>
    rw [← hmap, ← readNat_of_spelt (by decide) (by decide) hdigits]
    rcases hmark with rfl | rfl <;> rfl

end Chip8.CommandLine

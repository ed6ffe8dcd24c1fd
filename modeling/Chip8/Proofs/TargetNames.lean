import Chip8.Debugger.CommandLine
import Chip8.Proofs.HexText

/-!
What is read as a target of an assignment. A name is one of a few words in any case. The number of a
register is read as any number is, so that a plus sign and zeros are let pass before its digit.
-/

namespace Chip8

namespace CommandLine

/-- A hexadecimal digit, with any number of zeros before it. -/
inductive ZeroPadded (x : Nibble) : List Char → Prop
  | digit {c : Char} (h : Hex.value? c = some x) : ZeroPadded x [c]
  | zero {cs : List Char} (h : ZeroPadded x cs) : ZeroPadded x ('0' :: cs)

/-- One plus sign may stand before the digits. -/
def Numeral (x : Nibble) (cs : List Char) : Prop :=
  ZeroPadded x cs ∨ ∃ digits, cs = '+' :: digits ∧ ZeroPadded x digits

variable {c : Char} {cs text lowered : List Char} {acc n : Nat} {x : Nibble}
  {overflow : NumberError}

theorem readDigits_of_none (h : Hex.value? c = none) :
    readDigits 16 15 overflow acc (c :: cs) = .error .badDigit := by
  rw [readDigits, digit?, h]

theorem readDigits_of_some (h : Hex.value? c = some x) :
    readDigits 16 15 overflow 0 (c :: cs) = readDigits 16 15 overflow x.val cs := by
  have hdigit : digit? 16 c = some x.val := by
    rw [digit?, h]
    exact if_pos x.isLt
  have hroom : 0 * 16 + x.val ≤ 15 := by omega
  rw [readDigits, hdigit]
  dsimp only
  rw [if_pos hroom, Nat.zero_mul, Nat.zero_add]

/-- A number below sixteen that is not zero has room for no digit more. -/
theorem readDigits_of_pos (h : 0 < acc) :
    readDigits 16 15 overflow acc cs = .ok n ↔ cs = [] ∧ acc = n := by
  cases cs with
  | nil => simp [readDigits]
  | cons c cs =>
    rw [readDigits]
    cases digit? 16 c with
    | none => simp
    | some d =>
      have hroom : ¬acc * 16 + d ≤ 15 := by omega
      simp [hroom]

theorem ZeroPadded.head (h : ZeroPadded x (c :: cs)) : (cs = [] ∧ Hex.value? c = some x) ∨
    (c = '0' ∧ ZeroPadded x cs) := by
  cases h with
  | digit h => exact .inl ⟨rfl, h⟩
  | zero h => exact .inr ⟨rfl, h⟩

theorem readDigits_eq_ok : readDigits 16 15 overflow 0 cs = .ok n ↔
    (cs = [] ∧ n = 0) ∨ ∃ x, ZeroPadded x cs ∧ x.val = n := by
  induction cs with
  | nil =>
    rw [readDigits]
    constructor
    · rintro ⟨⟩
      exact .inl ⟨rfl, rfl⟩
    · rintro (⟨-, rfl⟩ | ⟨x, ⟨⟩, -⟩)
      rfl
  | cons c cs ih =>
    rcases hc : Hex.value? c with _ | y
    · rw [readDigits_of_none hc]
      refine ⟨nofun, ?_⟩
      rintro (⟨⟨⟩, -⟩ | ⟨x, hx, -⟩)
      rcases hx.head with ⟨-, hdigit⟩ | ⟨rfl, -⟩
      · cases hc.symm.trans hdigit
      · cases hc
    rw [readDigits_of_some hc]
    rcases Nat.eq_zero_or_pos y.val with hy | hy
    · obtain rfl : y = 0 := Fin.ext hy
      obtain rfl := Hex.value?_eq_zero.mp hc
      rw [hy, ih]
      constructor
      · rintro (⟨rfl, rfl⟩ | ⟨x, hx, hn⟩)
        · exact .inr ⟨0, .digit hc, rfl⟩
        · exact .inr ⟨x, .zero hx, hn⟩
      · rintro (⟨⟨⟩, -⟩ | ⟨x, hx, rfl⟩)
        rcases hx.head with ⟨rfl, hdigit⟩ | ⟨-, hx⟩
        · obtain rfl := Option.some.inj (hc.symm.trans hdigit)
          exact .inl ⟨rfl, rfl⟩
        · exact .inr ⟨x, hx, rfl⟩
    · rw [readDigits_of_pos hy]
      constructor
      · rintro ⟨rfl, hn⟩
        exact .inr ⟨y, .digit hc, hn⟩
      · rintro (⟨⟨⟩, -⟩ | ⟨x, hx, hn⟩)
        rcases hx.head with ⟨rfl, hdigit⟩ | ⟨rfl, -⟩
        · obtain rfl := Option.some.inj (hc.symm.trans hdigit)
          exact ⟨rfl, hn⟩
        · obtain rfl := Option.some.inj hc
          cases hy

theorem readDigits_of_ne_nil (h : cs ≠ []) :
    readDigits 16 15 overflow 0 cs = .ok n ↔ ∃ x, ZeroPadded x cs ∧ x.val = n := by
  rw [readDigits_eq_ok]
  exact or_iff_right fun hnil => h hnil.1

theorem ZeroPadded.ne_nil (h : ZeroPadded x cs) : cs ≠ [] := by
  cases h with
  | digit => exact List.cons_ne_nil _ _
  | zero => exact List.cons_ne_nil _ _

theorem not_zeroPadded_plus : ¬ZeroPadded x ('+' :: cs) := by
  intro h
  rcases h.head with ⟨-, hdigit⟩ | ⟨hzero, -⟩
  · cases hdigit
  · exact absurd hzero (by decide)

theorem numeral_plus : Numeral x ('+' :: cs) ↔ ZeroPadded x cs := by
  constructor
  · rintro (h | ⟨digits, heq, h⟩)
    · exact absurd h not_zeroPadded_plus
    · cases heq
      exact h
  · exact fun h => .inr ⟨cs, rfl, h⟩

theorem numeral_of_not_plus (hcs : ∀ digits, cs ≠ '+' :: digits) :
    Numeral x cs ↔ ZeroPadded x cs :=
  or_iff_left fun ⟨digits, heq, _⟩ => hcs digits heq

theorem readNat_eq_ok : readNat 16 15 cs = .ok n ↔ ∃ x, Numeral x cs ∧ x.val = n := by
  unfold readNat
  split
  case h_1 =>
    refine ⟨nofun, ?_⟩
    rintro ⟨x, h, -⟩
    have hplus : ∀ digits, [] ≠ '+' :: digits := fun _ => (List.cons_ne_nil _ _).symm
    exact absurd rfl ((numeral_of_not_plus hplus).mp h).ne_nil
  case h_2 =>
    refine ⟨nofun, ?_⟩
    rintro ⟨x, h, -⟩
    exact absurd rfl (numeral_plus.mp h).ne_nil
  case h_3 digits hne =>
    rw [readDigits_of_ne_nil hne]
    simp only [numeral_plus]
  case h_4 hne _ hplus =>
    rw [readDigits_of_ne_nil hne]
    simp only [numeral_of_not_plus hplus]

/-- What a text becomes in lower case, character by character. Beyond ASCII two characters have
ASCII letters in lower case, the Kelvin sign and the capital `I` with a dot; what the others become
is left open. -/
inductive LowerCase : List Char → List Char → Prop
  | nil : LowerCase [] []
  | ascii {c : Char} {cs lowered : List Char} (h : c.toNat < 128) (rest : LowerCase cs lowered) :
      LowerCase (c :: cs) (c.toLower :: lowered)
  | kelvin {cs lowered : List Char} (rest : LowerCase cs lowered) :
      LowerCase ('\u212a' :: cs) ('k' :: lowered)
  | dotted {cs lowered : List Char} (rest : LowerCase cs lowered) :
      LowerCase ('\u0130' :: cs) ('i' :: '\u0307' :: lowered)
  | beyond {c l : Char} {cs piece lowered : List Char} (h : 128 ≤ c.toNat)
      (hpiece : ∀ x ∈ l :: piece, 128 ≤ x.toNat) (rest : LowerCase cs lowered) :
      LowerCase (c :: cs) (l :: piece ++ lowered)

/-- ASCII text without a `k`. -/
def Plain (cs : List Char) : Prop := ∀ c ∈ cs, c.toNat < 128 ∧ c ≠ 'k'

theorem toLower_of_le (h : 128 ≤ c.toNat) : c.toLower = c := by
  have hupper : ¬(c.val ≥ 'A'.val ∧ c.val ≤ 'Z'.val) := by
    rintro ⟨-, hle⟩
    have hlt : c.toNat ≤ 90 := hle
    omega
  exact dif_neg hupper

/-- The characters beyond ASCII give nothing plain. -/
theorem LowerCase.eq_of_plain (h : LowerCase text lowered)
    (hplain : Plain lowered ∨ Plain (text.map Char.toLower)) :
    lowered = text.map Char.toLower := by
  induction h with
  | nil => rfl
  | ascii _ _ ih =>
    rw [List.map_cons]
    refine congrArg _ (ih ?_)
    exact hplain.imp (fun h x hx => h x (.tail _ hx)) fun h x hx => h x (.tail _ hx)
  | kelvin _ _ =>
    rcases hplain with hplain | hplain
    · exact absurd rfl (hplain 'k' (.head _)).2
    · exact absurd (hplain _ (.head _)).1 (by decide)
  | dotted _ _ =>
    rcases hplain with hplain | hplain
    · exact absurd (hplain '\u0307' (.tail _ (.head _))).1 (by decide)
    · exact absurd (hplain _ (.head _)).1 (by decide)
  | @beyond c l _ _ _ h hpiece _ _ =>
    rcases hplain with hplain | hplain
    · exact absurd (hplain l (.head _)).1 (Nat.not_lt.mpr (hpiece l (.head _)))
    · have hc := (hplain _ (.head _)).1
      rw [toLower_of_le h] at hc
      exact absurd hc (Nat.not_lt.mpr h)

theorem LowerCase.head_eq (h : LowerCase text lowered) :
    lowered.head? = some 'v' ↔ (text.map Char.toLower).head? = some 'v' := by
  have hbeyond : ∀ c : Char, 128 ≤ c.toNat → c ≠ 'v' := by
    rintro c hc rfl
    revert hc
    decide
  cases h with
  | nil => rfl
  | ascii => rfl
  | kelvin =>
    change some 'k' = some 'v' ↔ some '\u212a'.toLower = some 'v'
    decide
  | dotted =>
    change some 'i' = some 'v' ↔ some '\u0130'.toLower = some 'v'
    decide
  | @beyond c l _ _ _ h hpiece =>
    have hl := hbeyond l (hpiece l (.head _))
    have hc := hbeyond c h
    rw [List.map_cons, toLower_of_le h]
    simp [hl, hc]

theorem ZeroPadded.plain (h : ZeroPadded x cs) : Plain cs := by
  have hdigit : ∀ {c : Char} {y : Nibble}, Hex.value? c = some y → c.toNat < 128 ∧ c ≠ 'k' := by
    intro c y hc
    refine ⟨Nat.lt_of_le_of_lt (Hex.toNat_le_of_value? hc) (by decide), ?_⟩
    rintro rfl
    cases hc
  induction h with
  | digit h => exact List.forall_mem_singleton.mpr (hdigit h)
  | zero _ ih => exact List.forall_mem_cons.mpr ⟨by decide, ih⟩

end CommandLine

namespace SetTarget

open CommandLine

variable {text lowered : List Char} {target : SetTarget} {message : String}

/-- The words for what is no register. -/
def words : List (List Char × SetTarget) :=
  [ (['i'], .index), (['i', 'n', 'd', 'e', 'x'], .index), (['p', 'c'], .pc),
    (['d', 't'], .delayTimer), (['d', 'e', 'l', 'a', 'y'], .delayTimer),
    (['s', 't'], .soundTimer), (['s', 'o', 'u', 'n', 'd'], .soundTimer) ]

/-- A word, or `v` with one hexadecimal digit. -/
inductive Named : List Char → SetTarget → Prop
  | word {text : List Char} {target : SetTarget} (h : (text, target) ∈ words) : Named text target
  | register {c : Char} {x : Nibble} (h : Hex.value? c = some x) : Named ['v', c] (.register x)

/-- A register whose digit has a plus sign or zeros before it. -/
inductive Loose : List Char → SetTarget → Prop
  | plus {digits : List Char} {x : Nibble} (h : ZeroPadded x digits) :
      Loose ('v' :: '+' :: digits) (.register x)
  | zero {digits : List Char} {x : Nibble} (h : ZeroPadded x digits) :
      Loose ('v' :: '0' :: digits) (.register x)

/-- Why a text is no target. -/
def refusal (text lowered : List Char) : String :=
  (if lowered.head? = some 'v' then "Invalid register: '" else "Unknown set target: '") ++
    String.ofList text ++ "'"

theorem eq_of_mem_words {other : SetTarget} (h : (text, target) ∈ words)
    (hother : (text, other) ∈ words) : target = other := by
  have hall : ∀ p ∈ words, ∀ q ∈ words, p.1 = q.1 → p.2 = q.2 := by decide
  exact hall _ h _ hother rfl

theorem head_ne_of_mem_words (h : (text, target) ∈ words) : text.head? ≠ some 'v' := by
  have hall : ∀ p ∈ words, p.1.head? ≠ some 'v' := by decide
  exact hall _ h

theorem word_or_head (h : Named text target ∨ Loose text target) :
    (text, target) ∈ words ∨ text.head? = some 'v' := by
  rcases h with hnamed | hloose
  · cases hnamed with
    | word h => exact .inl h
    | register => exact .inr rfl
  · cases hloose <;> exact .inr rfl

theorem named_or_loose_word {other : SetTarget} (h : (text, target) ∈ words) :
    Named text other ∨ Loose text other ↔ target = other := by
  constructor
  · intro hother
    rcases word_or_head hother with hother | hv
    · exact eq_of_mem_words h hother
    · exact absurd hv (head_ne_of_mem_words h)
  · rintro rfl
    exact .inl (.word h)

theorem named_or_loose_register {digits : List Char} :
    Named ('v' :: digits) target ∨ Loose ('v' :: digits) target ↔
      ∃ x, Numeral x digits ∧ .register x = target := by
  constructor
  · rintro (hnamed | hloose)
    · cases hnamed with
      | word h => exact absurd rfl (head_ne_of_mem_words h)
      | register h => exact ⟨_, .inl (.digit h), rfl⟩
    · cases hloose with
      | plus h => exact ⟨_, .inr ⟨_, rfl, h⟩, rfl⟩
      | zero h => exact ⟨_, .inl (.zero h), rfl⟩
  · rintro ⟨x, h | ⟨rest, rfl, h⟩, rfl⟩
    · cases h with
      | digit h => exact .inl (.register h)
      | zero h => exact .inr (.zero h)
    · exact .inr (.plus h)

theorem read_of_word (h : (text.map Char.toLower, target) ∈ words) : read text = .ok target := by
  unfold read
  generalize text.map Char.toLower = lowered at h ⊢
  simp only [words, List.mem_cons, List.not_mem_nil, or_false, Prod.mk.injEq] at h
  rcases h with h | h | h | h | h | h | h <;> obtain ⟨rfl, rfl⟩ := h <;> rfl

theorem read_of_register {digits : List Char} (h : text.map Char.toLower = 'v' :: digits) :
    read text = match readNat 16 15 digits with
      | .ok n => .ok (.register (.low n))
      | .error _ => .error (refusal text ('v' :: digits)) := by
  rw [read, h]
  rfl

theorem read_of_neither (hword : ∀ target, (text.map Char.toLower, target) ∉ words)
    (hv : (text.map Char.toLower).head? ≠ some 'v') :
    read text = .error (refusal text (text.map Char.toLower)) := by
  unfold read
  generalize text.map Char.toLower = lowered at hword hv ⊢
  split
  case h_8 => exact absurd rfl hv
  case h_9 =>
    rw [refusal, if_neg hv]
  all_goals simp [words] at hword

/-- A text is a word, begins as a register does or does neither. -/
theorem word_or_register (text : List Char) : (∃ target, (text, target) ∈ words) ∨
    (∃ digits, text = 'v' :: digits) ∨
    (∀ target, (text, target) ∉ words) ∧ text.head? ≠ some 'v' := by
  by_cases hword : ∃ target, (text, target) ∈ words
  · exact .inl hword
  by_cases hv : text.head? = some 'v'
  · exact .inr (.inl (List.head?_eq_some_iff.mp hv))
  · exact .inr (.inr ⟨not_exists.mp hword, hv⟩)

theorem read_eq_ok_of_register {digits : List Char} (h : text.map Char.toLower = 'v' :: digits) :
    read text = .ok target ↔ ∃ x, Numeral x digits ∧ .register x = target := by
  rw [read_of_register h]
  constructor
  · intro hread
    split at hread
    · rename_i n hn
      obtain ⟨x, hx, rfl⟩ := readNat_eq_ok.mp hn
      rw [Nibble.low, Fin.ofNat_val_eq_self, Except.ok.injEq] at hread
      exact ⟨x, hx, hread⟩
    · cases hread
  · rintro ⟨x, hx, rfl⟩
    rw [readNat_eq_ok.mpr ⟨x, hx, rfl⟩]
    change Except.ok (SetTarget.register (.low x.val)) = _
    rw [Nibble.low, Fin.ofNat_val_eq_self]

theorem read_eq_ok : read text = .ok target ↔
    Named (text.map Char.toLower) target ∨ Loose (text.map Char.toLower) target := by
  rcases word_or_register (text.map Char.toLower) with ⟨other, h⟩ | ⟨digits, h⟩ | ⟨hword, hv⟩
  · rw [read_of_word h, named_or_loose_word h, Except.ok.injEq]
  · rw [read_eq_ok_of_register h, h, named_or_loose_register]
  · rw [read_of_neither hword hv]
    constructor
    · intro h
      cases h
    · intro h
      rcases word_or_head h with h | h
      · exact absurd h (hword target)
      · exact absurd h hv

theorem eq_refusal (h : read text = .error message) :
    message = refusal text (text.map Char.toLower) := by
  rcases word_or_register (text.map Char.toLower) with ⟨other, hword⟩ | ⟨digits, hv⟩ | ⟨hword, hv⟩
  · cases (read_of_word hword).symm.trans h
  · rw [read_of_register hv] at h
    rw [hv]
    split at h <;> cases h
    rfl
  · cases (read_of_neither hword hv).symm.trans h
    rfl

theorem Named.plain (h : Named text target) : Plain text := by
  cases h with
  | word h =>
    have hall : ∀ p ∈ words, p.1.all fun c => c.toNat < 128 ∧ c ≠ 'k' := by decide
    exact fun c hc => of_decide_eq_true (List.all_eq_true.mp (hall _ h) c hc)
  | register h => exact List.forall_mem_cons.mpr ⟨by decide, (ZeroPadded.digit h).plain⟩

theorem Loose.plain (h : Loose text target) : Plain text := by
  have hv : 'v'.toNat < 128 ∧ 'v' ≠ 'k' := by decide
  cases h with
  | plus h => exact List.forall_mem_cons.mpr ⟨hv, List.forall_mem_cons.mpr ⟨by decide, h.plain⟩⟩
  | zero h => exact List.forall_mem_cons.mpr ⟨hv, List.forall_mem_cons.mpr ⟨by decide, h.plain⟩⟩

theorem named_or_loose_lowered (h : LowerCase text lowered) :
    Named (text.map Char.toLower) target ∨ Loose (text.map Char.toLower) target ↔
      Named lowered target ∨ Loose lowered target := by
  constructor
  · intro hread
    rw [h.eq_of_plain (.inr (hread.elim Named.plain Loose.plain))]
    exact hread
  · intro hread
    rw [← h.eq_of_plain (.inl (hread.elim Named.plain Loose.plain))]
    exact hread

theorem refusal_lowered (h : LowerCase text lowered) :
    refusal text (text.map Char.toLower) = refusal text lowered := by
  simp only [refusal, h.head_eq]

/-- In any case, a target is read from its words and, for a register, from `v` and its digit, with a
plus sign or zeros let pass before the digit. Nothing else is read, and the refusal quotes it. -/
theorem read_spellings (h : LowerCase text lowered) :
    (∀ target, read text = .ok target ↔ Named lowered target ∨ Loose lowered target) ∧
      ((∀ target, ¬Named lowered target ∧ ¬Loose lowered target) →
        read text = .error (refusal text lowered)) := by
  have hread : ∀ target, read text = .ok target ↔ Named lowered target ∨ Loose lowered target :=
    fun target => read_eq_ok.trans (named_or_loose_lowered h)
  refine ⟨hread, fun hnot => ?_⟩
  cases hresult : read text with
  | ok target =>
    rcases (hread target).mp hresult with hnamed | hloose
    · exact absurd hnamed (hnot target).1
    · exact absurd hloose (hnot target).2
  | error message => rw [eq_refusal hresult, refusal_lowered h]

theorem read_spellings_signedDigit :
    LowerCase ['V', '+', '5'] ['v', '+', '5'] ∧ read ['V', '+', '5'] = .ok (.register 5) ∧
      (∀ target, ¬Named ['v', '1', '0'] target ∧ ¬Loose ['v', '1', '0'] target) ∧
      read ['v', '1', '0'] = .error "Invalid register: 'v10'" := by
  have hsigned : LowerCase ['V', '+', '5'] ['v', '+', '5'] :=
    .ascii (by decide) (.ascii (by decide) (.ascii (by decide) .nil))
  have htwo : LowerCase ['v', '1', '0'] ['v', '1', '0'] :=
    .ascii (by decide) (.ascii (by decide) (.ascii (by decide) .nil))
  have hnot : ∀ target, ¬Named ['v', '1', '0'] target ∧ ¬Loose ['v', '1', '0'] target := by
    refine fun target => ⟨?_, nofun⟩
    rintro ⟨h⟩
    exact head_ne_of_mem_words h rfl
  exact ⟨hsigned, ((read_spellings hsigned).1 _).mpr (.inr (.plus (.digit rfl))), hnot,
    (read_spellings htwo).2 hnot⟩

/-- Not only names are read: a plus sign before the digit is let pass. -/
theorem not_read_iff_named : ¬∀ text lowered, LowerCase text lowered →
    ∀ target, read text = .ok target ↔ Named lowered target := by
  intro hall
  have hsigned : LowerCase ['v', '+', '5'] ['v', '+', '5'] :=
    .ascii (by decide) (.ascii (by decide) (.ascii (by decide) .nil))
  have hread : read ['v', '+', '5'] = .ok (.register 5) := rfl
  rcases (hall _ _ hsigned _).mp hread with ⟨h⟩
  exact head_ne_of_mem_words h rfl

end SetTarget

end Chip8

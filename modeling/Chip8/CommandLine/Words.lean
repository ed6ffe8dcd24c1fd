/-!
Cutting a line into words at blank characters.
-/

namespace Chip8.CommandLine

/-- The characters with the Unicode property White_Space. -/
def isBlank (c : Char) : Bool :=
  let n := c.toNat
  (0x9 ≤ n && n ≤ 0xD) || n = 0x20 || n = 0x85 || n = 0xA0 || n = 0x1680
    || (0x2000 ≤ n && n ≤ 0x200A) || n = 0x2028 || n = 0x2029 || n = 0x202F || n = 0x205F
    || n = 0x3000

/-- Puts one more character before words of which the first may go on. -/
private def wordsFrom : List Char → List Char × List (List Char)
  | [] => ([], [])
  | c :: cs =>
    let (first, rest) := wordsFrom cs
    if isBlank c then ([], if first.isEmpty then rest else first :: rest)
    else (c :: first, rest)

/-- The longest pieces without a blank, none of them empty. -/
def words (cs : List Char) : List (List Char) :=
  let (first, rest) := wordsFrom cs
  if first.isEmpty then rest else first :: rest

theorem words_cons_of_blank {c : Char} (h : isBlank c = true) (cs : List Char) :
    words (c :: cs) = words cs := by
  simp only [words, wordsFrom, h, if_true]
  rfl

/-- Blanks on the left do not count. -/
theorem words_append_of_blank {before : List Char} (h : before.all isBlank = true)
    (cs : List Char) : words (before ++ cs) = words cs := by
  induction before with
  | nil => rfl
  | cons c before ih =>
    obtain ⟨hc, hbefore⟩ := Bool.and_eq_true_iff.mp (List.all_cons ▸ h)
    rw [List.cons_append, words_cons_of_blank hc, ih hbefore]

theorem words_of_blank {cs : List Char} (h : cs.all isBlank = true) : words cs = [] := by
  rw [← List.append_nil cs, words_append_of_blank h]
  rfl

private theorem wordsFrom_append {w : List Char} (hw : ∀ c ∈ w, isBlank c = false)
    (rest : List Char) :
    wordsFrom (w ++ rest) = (w ++ (wordsFrom rest).1, (wordsFrom rest).2) := by
  induction w with
  | nil => rfl
  | cons c w ih =>
    have hc : isBlank c = false := hw c (.head _)
    rw [List.cons_append, wordsFrom, ih fun d hd => hw d (.tail _ hd), hc]
    simp

/-- A word ends at a blank or with the line. -/
theorem words_append_of_word {w rest : List Char} (hne : w ≠ [])
    (hw : ∀ c ∈ w, isBlank c = false) (hend : rest.head?.all isBlank = true) :
    words (w ++ rest) = w :: words rest := by
  have hfirst : (wordsFrom rest).1 = [] := by
    cases rest with
    | nil => rfl
    | cons c rest =>
      have hc : isBlank c = true := hend
      simp [wordsFrom, hc]
  simp [words, wordsFrom_append hw, hfirst, hne]

/-- Words in a line, with any blanks before, between and after them. -/
inductive Spaced : List (List Char) → List Char → Prop
  | nil (gap : List Char) (hgap : gap.all isBlank = true) : Spaced [] gap
  | cons (gap w rest : List Char) {ws : List (List Char)} (hgap : gap.all isBlank = true)
      (hne : w ≠ []) (hw : ∀ c ∈ w, isBlank c = false) (hend : rest.head?.all isBlank = true)
      (hrest : Spaced ws rest) : Spaced (w :: ws) (gap ++ (w ++ rest))

theorem words_of_spaced {ws : List (List Char)} {cs : List Char} (h : Spaced ws cs) :
    words cs = ws := by
  induction h with
  | nil _ hgap => exact words_of_blank hgap
  | cons _ _ _ hgap hne hw hend _ ih =>
    rw [words_append_of_blank hgap, words_append_of_word hne hw hend, ih]

theorem Spaced.blank {ws : List (List Char)} {c : Char} {cs : List Char} (hc : isBlank c = true)
    (h : Spaced ws cs) : Spaced ws (c :: cs) := by
  cases h with
  | nil _ hgap => exact .nil (c :: cs) (by rw [List.all_cons, hc, hgap, Bool.and_self])
  | cons gap w rest hgap hne hw hend hrest =>
    refine .cons (c :: gap) w rest ?_ hne hw hend hrest
    rw [List.all_cons, hc, hgap, Bool.and_self]

/-- A character before a line goes to its first word unless a blank is between them. -/
theorem Spaced.letter {ws : List (List Char)} {c : Char} {cs : List Char}
    (hc : isBlank c = false) (h : Spaced ws cs) : Spaced (words (c :: cs)) (c :: cs) := by
  have hletter : ∀ d ∈ [c], isBlank d = false := List.forall_mem_singleton.mpr hc
  by_cases hend : cs.head?.all isBlank = true
  · have hwords := words_append_of_word (List.cons_ne_nil c []) hletter hend
    rw [List.singleton_append, words_of_spaced h] at hwords
    rw [hwords]
    exact .cons [] [c] cs rfl (List.cons_ne_nil c []) hletter hend h
  cases h with
  | nil _ hgap =>
    refine absurd ?_ hend
    cases cs with
    | nil => rfl
    | cons d cs => exact (Bool.and_eq_true_iff.mp (List.all_cons ▸ hgap)).1
  | cons gap w rest hgap hne hw hrest hspaced =>
    cases gap with
    | nil =>
      have hword : ∀ d ∈ c :: w, isBlank d = false := List.forall_mem_cons.mpr ⟨hc, hw⟩
      rw [List.nil_append, ← List.cons_append,
        words_append_of_word (List.cons_ne_nil c w) hword hrest, words_of_spaced hspaced]
      exact .cons [] (c :: w) rest rfl (List.cons_ne_nil c w) hword hrest hspaced
    | cons d gap => exact absurd (Bool.and_eq_true_iff.mp (List.all_cons ▸ hgap)).1 hend

/-- The words of a line are the only ones that it spaces. -/
theorem spaced_iff {ws : List (List Char)} {cs : List Char} : Spaced ws cs ↔ words cs = ws := by
  refine ⟨words_of_spaced, ?_⟩
  rintro rfl
  induction cs with
  | nil => exact .nil [] rfl
  | cons c cs ih =>
    cases hc : isBlank c with
    | true =>
      rw [words_cons_of_blank hc]
      exact ih.blank hc
    | false => exact ih.letter hc

/-- Any proper words make a line. -/
theorem exists_spaced {ws : List (List Char)}
    (h : ∀ w ∈ ws, w ≠ [] ∧ ∀ c ∈ w, isBlank c = false) :
    ∃ cs, Spaced ws cs ∧ cs.head?.all isBlank = true := by
  induction ws with
  | nil => exact ⟨[], .nil [] rfl, rfl⟩
  | cons w ws ih =>
    obtain ⟨hword, hrest⟩ := List.forall_mem_cons.mp h
    obtain ⟨rest, hspaced, hend⟩ := ih hrest
    exact ⟨' ' :: (w ++ rest), .cons [' '] w rest rfl hword.1 hword.2 hend hspaced, rfl⟩

end Chip8.CommandLine

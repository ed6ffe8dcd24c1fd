import Chip8.Debugger.View
import Chip8.Proofs.State

/-!
Listings of code. A listing has the words at its start and every two bytes on, as many as are asked
for and lie wholly in memory, and no address wraps round. The code panel shows the listing from the
program counter, with its breakpoints marked.
-/

namespace Chip8

namespace Debugger

/-- The words at `a`, `a + 2` and so on, with their instructions: `n` of them, or as many as lie
wholly in memory. -/
structure Lists (m : Memory) (a n : Nat) (lines : List ListedWord) : Prop where
  length_eq : lines.length = min n ((4096 - a) / 2)
  address : ∀ i, (h : i < lines.length) → lines[i].address.toNat = a + 2 * i
  word : ∀ i, (h : i < lines.length) →
    lines[i].word.toNat = 256 * m.numberAt (a + 2 * i) + m.numberAt (a + 2 * i + 1)
  instruction : ∀ l ∈ lines, l.instruction = Instruction.decode l.word
  text : ∀ l ∈ lines, l.text = Hex.text 3 l.address.toNat ++ "  " ++ Hex.text 4 l.word.toNat ++ "  "
    ++ (Instruction.decode l.word).text

/-- A line of the code panel and the word that it is about. -/
structure Shows (d : Debugger) (line : StyledLine) (l : ListedWord) : Prop where
  text : line.text = (if d.breakpoints.contains l.address then "*" else " ")
    ++ Hex.text 3 l.address.toNat ++ " " ++ (Instruction.decode l.word).text
  style : line.style =
    if l.address = d.machine.pc then { foreground := some .black, background := some .yellow }
    else {}
  spans : ∀ span ∈ line.spans, span.style = {}

variable {m : Memory} {a : UInt16} {n : Nat}

/-- A word is listed and its address can be counted on from, or the listing ends. -/
theorem listWords_cases (m : Memory) (n : Nat) (a : UInt16) :
    (a.toNat + 1 < 4096 ∧ (a + 2).toNat = a.toNat + 2 ∧ ∃ word, m.readWord a.toNat = .ok word ∧
      listWords m (n + 1) a = ⟨a, word, .decode word⟩ :: listWords m n (a + 2)) ∨
    (4096 ≤ a.toNat + 1 ∧ (∃ cause, m.readWord a.toNat = .error cause) ∧
      listWords m (n + 1) a = []) := by
  rcases Nat.lt_or_ge (a.toNat + 1) 4096 with hin | hout
  · obtain ⟨word, hword⟩ := m.readWord_of_lt hin
    exact .inl ⟨hin, Machine.toNat_add_two (by omega), word, hword, by rw [listWords, hword]⟩
  · have hword := m.readWord_of_le hout
    exact .inr ⟨hout, ⟨_, hword⟩, by rw [listWords, hword]⟩

theorem length_listWords (m : Memory) (n : Nat) (a : UInt16) :
    (listWords m n a).length = min n ((4096 - a.toNat) / 2) := by
  induction n generalizing a with
  | zero => rw [Nat.zero_min]; rfl
  | succ n ih =>
    rcases listWords_cases m n a with ⟨hin, hnext, word, -, hlist⟩ | ⟨hout, -, hlist⟩ <;> rw [hlist]
    · rw [List.length_cons, ih, hnext]
      omega
    · rw [List.length_nil]
      omega

theorem getElem_listWords {i : Nat} (h : i < (listWords m n a).length) :
    (listWords m n a)[i].address.toNat = a.toNat + 2 * i ∧
      m.readWord (a.toNat + 2 * i) = .ok (listWords m n a)[i].word := by
  induction n generalizing a i with
  | zero => cases h
  | succ n ih =>
    rcases listWords_cases m n a with ⟨-, hnext, word, hword, hlist⟩ | ⟨-, -, hlist⟩
    · cases i with
      | zero =>
        simp only [hlist, List.getElem_cons_zero]
        exact ⟨rfl, hword⟩
      | succ i =>
        simp only [hlist, List.length_cons, Nat.add_lt_add_iff_right] at h
        obtain ⟨haddress, hread⟩ := ih h
        have hsum : a.toNat + 2 * (i + 1) = a.toNat + 2 + 2 * i := by omega
        simp only [hlist, List.getElem_cons_succ, hsum]
        rw [hnext] at haddress hread
        exact ⟨haddress, hread⟩
    · simp only [hlist] at h
      cases h

theorem instruction_of_mem_listWords {l : ListedWord} (h : l ∈ listWords m n a) :
    l.instruction = Instruction.decode l.word := by
  induction n generalizing a with
  | zero => cases h
  | succ n ih =>
    rcases listWords_cases m n a with ⟨-, -, word, -, hlist⟩ | ⟨-, -, hlist⟩ <;> rw [hlist] at h
    · rcases List.mem_cons.mp h with rfl | hlater
      · rfl
      · exact ih hlater
    · cases h

theorem lists_listWords (m : Memory) (n : Nat) (a : UInt16) :
    Lists m a.toNat n (listWords m n a) where
  length_eq := length_listWords m n a
  address _ h := (getElem_listWords h).1
  word _ h := Memory.toNat_of_readWord (getElem_listWords h).2
  instruction _ hl := instruction_of_mem_listWords hl
  text l hl := by rw [ListedWord.text, instruction_of_mem_listWords hl]

/-- The panel counts its addresses without wrapping round, and finds the same words. -/
theorem codeWords_eq (m : Memory) (n : Nat) (a : UInt16) :
    View.codeWords m n a.toNat = (listWords m n a).map fun l => (l.address, l.word) := by
  induction n generalizing a with
  | zero => rfl
  | succ n ih =>
    rcases listWords_cases m n a with ⟨-, hnext, word, hword, hlist⟩ | ⟨-, ⟨cause, hword⟩, hlist⟩
    · rw [View.codeWords, if_pos a.toNat_lt_size, hword, hlist, List.map_cons, ← ih, hnext,
        UInt16.ofNat_toNat]
    · rw [View.codeWords, if_pos a.toNat_lt_size, hword, hlist]
      rfl

theorem listWords_eq_nil_iff :
    listWords m n a = [] ↔ n = 0 ∨ 4095 ≤ a.toNat := by
  rw [← List.length_eq_zero_iff, length_listWords]
  omega

/-- A listing is refused if words are asked for and there are none. -/
theorem perform_listing (d : Debugger) (start : Option UInt16) (len : UInt16) :
    let a := start.getD d.machine.pc
    d.perform (.listing start len) =
      if 0 < len.toNat ∧ 4095 ≤ a.toNat then (.error .valueOutOfRange, d)
      else (.ok (.listing (listWords d.machine.memory len.toNat a)), d) := by
  intro a
  have hlen : len = 0 ↔ len.toNat = 0 := UInt16.toNat_inj.symm
  have hnil : listWords d.machine.memory len.toNat a = [] ↔ len.toNat = 0 ∨ 4095 ≤ a.toNat :=
    listWords_eq_nil_iff
  rw [perform]
  split
  · rename_i hlist
    rw [hlist]
    simp only [hlen]
    rcases hnil.mp hlist with hzero | hout
    · rw [if_pos hzero, if_neg (by omega)]
    · by_cases hzero : len.toNat = 0
      · rw [if_pos hzero, if_neg (by omega)]
      · rw [if_neg hzero, if_pos ⟨Nat.pos_of_ne_zero hzero, hout⟩]
  · rename_i hlist
    have hsome := mt hnil.mpr hlist
    rw [if_neg (by omega)]

theorem shows_code (d : Debugger) (n : Nat) :
    List.Forall₂ d.Shows (View.code d.machine d.breakpoints n)
      (listWords d.machine.memory n d.machine.pc) := by
  rw [View.code, codeWords_eq, List.map_map, List.forall₂_map_left_iff]
  refine List.forall₂_same.mpr fun l _ => ?_
  dsimp only [Function.comp]
  split
  · rename_i hpc
    exact ⟨StyledLine.text_styled .., (if_pos hpc).symm, by simp [StyledLine.styled]⟩
  · rename_i hpc
    exact ⟨StyledLine.text_plain _, (if_neg hpc).symm, by simp [StyledLine.plain]⟩

/-- A listing is refused just if words are asked for and none lies in memory. Else it has as many as
are asked for and lie in memory, and the debugger is as before. The code panel shows the listing
from the program counter line by line: a star stands where there is a breakpoint, and the line of
the program counter is the one that is highlighted. -/
theorem listings_agree (d : Debugger) :
    (∀ start len,
      let a := (start.getD d.machine.pc).toNat
      ((d.perform (.listing start len)).1 = .error .valueOutOfRange ↔
        0 < len.toNat ∧ 4095 ≤ a) ∧
      ((d.perform (.listing start len)).1 ≠ .error .valueOutOfRange →
        ∃ lines, d.perform (.listing start len) = (.ok (.listing lines), d) ∧
          Lists d.machine.memory a len.toNat lines)) ∧
    ∀ count : UInt16,
      let shown := View.code d.machine d.breakpoints count.toNat
      let answer := (d.perform (.listing none count)).1
      (shown = [] ↔ count = 0 ∨ answer = .error .valueOutOfRange) ∧
      ∀ lines, answer = .ok (.listing lines) → List.Forall₂ d.Shows shown lines := by
  constructor
  · intro start len
    rw [perform_listing]
    split
    · rename_i hout
      exact ⟨iff_of_true rfl hout, fun h => absurd rfl h⟩
    · rename_i hin
      exact ⟨iff_of_false nofun hin, fun _ => ⟨_, rfl, lists_listWords ..⟩⟩
  · intro count shown answer
    have hshown : List.Forall₂ d.Shows shown _ := shows_code d count.toNat
    have hempty : shown = [] ↔ count.toNat = 0 ∨ 4095 ≤ d.machine.pc.toNat := by
      rw [← listWords_eq_nil_iff (m := d.machine.memory), ← List.length_eq_zero_iff,
        hshown.length_eq, List.length_eq_zero_iff]
    have hzero : count = 0 ↔ count.toNat = 0 := UInt16.toNat_inj.symm
    have hanswer : answer = _ := congrArg Prod.fst (perform_listing d none count)
    rw [hempty, hzero, hanswer]
    rw [Option.getD_none]
    split
    · rename_i hout
      exact ⟨iff_of_true (.inr hout.2) (.inr rfl), nofun⟩
    · rename_i hin
      refine ⟨?_, ?_⟩
      · constructor
        · intro h
          exact .inl (by omega)
        · rintro (h | h)
          · exact .inl h
          · cases h
      · rintro lines ⟨⟩
        exact hshown

/-- A debugger that stands at an odd address close to the end of memory. -/
def nearEnd : Debugger where
  runner := .start { Machine.powerOn {} 0 with pc := 0xFFB }
  running := false
  breakpoints := Breakpoints.none.insert 0xFFD

/-- Of five words two are listed and shown. The last byte of memory is none. -/
theorem listings_agree_nearEnd :
    ∃ first second, nearEnd.perform (.listing none 5) = (.ok (.listing [first, second]), nearEnd) ∧
      first.address = 0xFFB ∧ second.address = 0xFFD ∧
      List.Forall₂ nearEnd.Shows (View.code nearEnd.machine nearEnd.breakpoints 5)
        [first, second] ∧
      (nearEnd.perform (.listing (some 0xFFF) 5)).1 = .error .valueOutOfRange := by
  obtain ⟨hlistings, hpanel⟩ := listings_agree nearEnd
  have hgoes : (nearEnd.perform (.listing none 5)).1 ≠ .error .valueOutOfRange :=
    mt (hlistings none 5).1.mp (by decide)
  obtain ⟨lines, hanswer, hlines⟩ := (hlistings none 5).2 hgoes
  match lines, hlines.length_eq with
  | [first, second], _ =>
    refine ⟨first, second, hanswer, ?_, ?_, ?_, ?_⟩
    · exact UInt16.toNat_inj.mp (hlines.address 0 Nat.two_pos)
    · exact UInt16.toNat_inj.mp (hlines.address 1 Nat.one_lt_two)
    · exact (hpanel 5).2 _ (congrArg Prod.fst hanswer)
    · exact (hlistings (some 0xFFF) 5).1.mpr (by decide)

end Debugger

end Chip8

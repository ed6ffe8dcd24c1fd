import Chip8.Instruction.Assembler
import Chip8.Proofs.HexText

/-!
Nothing is lost in a listing. An operand is read back from its text, a line from its operands, an
instruction from its line and a word from its instruction; so the text of a word is the text of no
other.
-/

namespace Chip8

theorem Place.blank_comma_notMem_text (p : Place) : ' ' ∉ p.text.toList ∧ ',' ∉ p.text.toList := by
  cases p <;> decide

namespace Operand

/-- A row count stands only where a sprite is drawn, and a place only elsewhere. -/
def Fits (drawing : Bool) : Operand → Prop
  | rowCount _ => drawing = true
  | place _ => drawing = false
  | _ => True

theorem toList_text_register (x : Nibble) : (register x).text.toList = ['V', Hex.digit x] := by
  rw [text, String.toList_append, Nibble.toList_text]
  rfl

theorem ofText?_marked (drawing : Bool) {width n : Nat} (hwidth : 0 < width) (h : n < 16 ^ width) :
    ofText? drawing (Hex.marked width n).toList = ofNumber? width n := by
  rw [Hex.toList_marked, ofText?, Hex.number?_padded, Hex.length_padded hwidth h]
  rfl

theorem ofText?_text {drawing : Bool} {o : Operand} (h : o.Fits drawing) :
    ofText? drawing o.text.toList = some o := by
  cases o with
  | register x =>
    rw [toList_text_register, ofText?, Hex.value?_digit]
    rfl
  | byte nn =>
    refine (ofText?_marked drawing (by decide) nn.toNat_lt).trans ?_
    rw [ofNumber?, UInt8.ofNat_toNat]
  | address nnn =>
    refine (ofText?_marked drawing (by decide) nnn.isLt).trans ?_
    exact dif_pos nnn.isLt
  | word w =>
    refine (ofText?_marked drawing (by decide) w.toNat_lt).trans ?_
    rw [ofNumber?, UInt16.ofNat_toNat]
  -- The letters F and B are row counts here and places below: only the flag tells them apart.
  | rowCount n =>
    obtain rfl : drawing = true := h
    rw [text, Nibble.toList_text]
    revert n
    decide
  | place p =>
    obtain rfl : drawing = false := h
    cases p <;> decide

/-- No text of an operand has a blank or a comma, so the text of a line can be cut up at them. -/
theorem blank_comma_notMem_text (o : Operand) : ' ' ∉ o.text.toList ∧ ',' ∉ o.text.toList := by
  have hdigit : ∀ d : Nibble, ' ' ≠ Hex.digit d ∧ ',' ≠ Hex.digit d := by decide
  have hpadded (width n : Nat) : ' ' ∉ Hex.padded width n ∧ ',' ∉ Hex.padded width n := by
    constructor <;> intro h <;> obtain ⟨d, hd⟩ := Hex.mem_padded h
    · exact (hdigit d).1 hd
    · exact (hdigit d).2 hd
  have hmarked (width n : Nat) :
      ' ' ∉ (Hex.marked width n).toList ∧ ',' ∉ (Hex.marked width n).toList := by
    simpa [Hex.toList_marked] using hpadded width n
  cases o with
  | register x => simpa [toList_text_register] using hdigit x
  | rowCount n => simpa [text, Nibble.toList_text] using hdigit n
  | byte nn => exact hmarked 2 nn.toNat
  | address nnn => exact hmarked 3 nnn.val
  | word w => exact hmarked 4 w.toNat
  | place p => exact p.blank_comma_notMem_text

end Operand

namespace AssemblyLine

/-- A line whose mnemonic is one word and whose operands can stand after it. -/
structure Legible (line : AssemblyLine) : Prop where
  mnemonic : ' ' ∉ line.mnemonic.toList
  fits : ∀ o ∈ line.operands, o.Fits (line.mnemonic = "DRW")

/-- A blank goes before every operand, also the first, and only commas stand between them. -/
theorem cons_intercalate {pieces : List (List Char)} (h : pieces ≠ []) :
    ' ' :: [',', ' '].intercalate pieces = [','].intercalate (pieces.map (' ' :: ·)) := by
  induction pieces with
  | nil => exact absurd rfl h
  | cons piece pieces ih =>
    cases pieces with
    | nil => simp
    | cons next pieces =>
      have hrest := ih (List.cons_ne_nil next pieces)
      rw [List.map_cons] at hrest
      rw [List.intercalate_cons_cons, List.map_cons, List.map_cons, List.intercalate_cons_cons,
        ← hrest]
      simp

theorem dropWhile_blank {cs : List Char} (h : ' ' ∉ cs) :
    (' ' :: cs).dropWhile (· == ' ') = cs := by
  change cs.dropWhile (· == ' ') = cs
  cases cs with
  | nil => rfl
  | cons c cs =>
    refine List.dropWhile_cons_of_neg ?_
    rw [beq_iff_eq]
    rintro rfl
    exact h List.mem_cons_self

/-- A word that a blank follows, or nothing, is the first of its text. -/
theorem ofText?_eq_ofParts? {text : String} {word rest : List Char}
    (htext : text.toList = word ++ rest) (hword : ' ' ∉ word) (hrest : ∀ c ∈ rest.head?, c = ' ') :
    ofText? text = ofParts? (String.ofList word) rest := by
  have hne : ∀ c ∈ word, (c != ' ') = true := fun c hc => bne_iff_ne.mpr fun he => hword (he ▸ hc)
  have hcut : rest.takeWhile (· != ' ') = [] ∧ rest.dropWhile (· != ' ') = rest := by
    cases rest with
    | nil => exact ⟨rfl, rfl⟩
    | cons c rest =>
      obtain rfl := hrest c rfl
      exact ⟨rfl, rfl⟩
  rw [ofText?, htext, List.takeWhile_append_of_pos hne, List.dropWhile_append_of_pos hne, hcut.1,
    hcut.2, List.append_nil]

theorem toList_text {line : AssemblyLine} (h : line.operands ≠ []) :
    line.text.toList = line.mnemonic.toList ++
      ' ' :: [',', ' '].intercalate (line.operands.map fun o => o.text.toList) := by
  obtain ⟨mnemonic, operands⟩ := line
  cases operands with
  | nil => exact absurd rfl h
  | cons o operands =>
    rw [text]
    simp [String.toList_intercalate, Function.comp_def]

theorem splitOn_operands {operands : List Operand} (h : operands ≠ []) :
    (' ' :: [',', ' '].intercalate (operands.map fun o => o.text.toList)).splitOn ',' =
      operands.map fun o => ' ' :: o.text.toList := by
  have hpieces : operands.map (fun o => o.text.toList) ≠ [] := by simpa using h
  rw [cons_intercalate hpieces, List.map_map]
  refine List.splitOn_intercalate ',' ?_ (by simpa using h)
  intro piece hpiece
  obtain ⟨o, -, rfl⟩ := List.mem_map.mp hpiece
  exact List.not_mem_cons_of_ne_of_not_mem (by decide) o.blank_comma_notMem_text.2

/-- Every operand is read back from its piece, without the blank. -/
theorem mapM_operands {drawing : Bool} {operands : List Operand}
    (h : ∀ o ∈ operands, o.Fits drawing) :
    (operands.map fun o => ' ' :: o.text.toList).mapM
      (fun piece => Operand.ofText? drawing (piece.dropWhile (· == ' '))) = some operands := by
  induction operands with
  | nil => rfl
  | cons o operands ih =>
    obtain ⟨ho, hoperands⟩ := List.forall_mem_cons.mp h
    rw [List.map_cons, List.mapM_cons, ih hoperands, dropWhile_blank o.blank_comma_notMem_text.1,
      Operand.ofText?_text ho]
    rfl

variable {line : AssemblyLine}

/-- The text of a line falls apart into what it was made of. -/
theorem ofText?_text (h : line.Legible) : ofText? line.text = some line := by
  by_cases hoperands : line.operands = []
  · have htext : line.text.toList = line.mnemonic.toList ++ [] := by
      rw [text, hoperands, List.append_nil]
    rw [ofText?_eq_ofParts? htext h.mnemonic (by simp), String.ofList_toList, ofParts?, ← hoperands]
  · rw [ofText?_eq_ofParts? (toList_text hoperands) h.mnemonic (by simp), String.ofList_toList,
      ofParts?, splitOn_operands hoperands, mapM_operands h.fits]
    · rfl
    · exact List.cons_ne_nil _ _

end AssemblyLine

namespace Instruction

theorem legible_assembly (i : Instruction) : i.assembly.Legible := by
  cases i with
  | alu x y op =>
    have hword : ' ' ∉ op.mnemonic.toList := by cases op <;> decide
    exact ⟨hword, by simp [assembly, Operand.Fits]⟩
  | _ => exact ⟨by simp [assembly], by simp [assembly, Operand.Fits]⟩

theorem ofAssembly?_assembly (i : Instruction) : ofAssembly? i.assembly = some i := by
  cases i with
  | alu x y op => cases op <;> rfl
  | _ => rfl

theorem ofText?_text (i : Instruction) : ofText? i.text = some i := by
  rw [ofText?, text, AssemblyLine.ofText?_text i.legible_assembly]
  exact i.ofAssembly?_assembly

/-- The words that no instruction has are kept as they are, and only those. -/
theorem decode_encode_iff (i : Instruction) :
    decode i.encode = i ↔ ∀ w, i = unknown w → ∀ j : Instruction, j.encode = w → j = unknown w := by
  constructor
  · rintro h w rfl
    exact decode_eq_unknown_iff.mp h
  · intro h
    cases i with
    | unknown w => exact decode_eq_unknown_iff.mpr (h w rfl)
    | _ => exact decode_encode fun _ => Instruction.noConfusion

theorem assemble?_text (w : UInt16) : assemble? (decode w).text = some w := by
  rw [assemble?, ofText?_text]
  exact congrArg some (encode_decode w)

/-- A word is found again from what it decodes to, and from the text of that; an instruction is
found again from its word, unless it is a word kept as it is that some instruction has. So two
programs with the same listing are the same. -/
theorem listing_lossless :
    (∀ w, (decode w).encode = w) ∧
    (∀ i : Instruction, decode i.encode = i ↔
      ∀ w, i = unknown w → ∀ j : Instruction, j.encode = w → j = unknown w) ∧
    (∀ w, assemble? (decode w).text = some w) ∧
    ∀ ws ws' : List UInt16, ws.map (fun w => (decode w).text) = ws'.map (fun w => (decode w).text) →
      ws = ws' := by
  refine ⟨encode_decode, decode_encode_iff, assemble?_text, ?_⟩
  intro ws ws' h
  have hread : ∀ w w', (decode w).text = (decode w').text → w = w' := by
    intro w w' hw
    have hsame := congrArg assemble? hw
    rw [assemble?_text, assemble?_text] at hsame
    exact Option.some.inj hsame
  exact (List.map_inj_right hread).mp h

example : assemble? "DRW V0, V1, F" = some 0xD01F ∧ assemble? "LD F, V1" = some 0xF129 ∧
    assemble? "LD V1" = none := by
  decide

end Instruction

end Chip8

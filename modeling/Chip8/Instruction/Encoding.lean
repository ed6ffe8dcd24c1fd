import Chip8.Instruction

/-!
The word of an instruction.
-/

namespace Chip8

def AluOp.toNibble : AluOp → Nibble
  | mov => 0x0
  | or => 0x1
  | and => 0x2
  | xor => 0x3
  | add => 0x4
  | sub => 0x5
  | shr => 0x6
  | subn => 0x7
  | shl => 0xE

namespace Instruction

private def withAddress (op : Nibble) (nnn : Address) : UInt16 :=
  UInt16.ofNat (0x1000 * op.val + nnn.val)

private def withByte (op x : Nibble) (nn : UInt8) : UInt16 :=
  UInt16.ofNat (0x1000 * op.val + 0x100 * x.val + nn.toNat)

def encode : Instruction → UInt16
  | clearScreen => 0x00E0
  | ret => 0x00EE
  | jump nnn => withAddress 0x1 nnn
  | call nnn => withAddress 0x2 nnn
  | skipEqByte x nn => withByte 0x3 x nn
  | skipNeByte x nn => withByte 0x4 x nn
  | skipEqRegister x y => Fields.toWord ⟨0x5, x, y, 0⟩
  | loadByte x nn => withByte 0x6 x nn
  | addByte x nn => withByte 0x7 x nn
  | alu x y op => Fields.toWord ⟨0x8, x, y, op.toNibble⟩
  | skipNeRegister x y => Fields.toWord ⟨0x9, x, y, 0⟩
  | loadIndex nnn => withAddress 0xA nnn
  | jumpOffset nnn => withAddress 0xB nnn
  | random x nn => withByte 0xC x nn
  | draw x y n => Fields.toWord ⟨0xD, x, y, n⟩
  | skipKeyDown x => withByte 0xE x 0x9E
  | skipKeyUp x => withByte 0xE x 0xA1
  | readDelay x => withByte 0xF x 0x07
  | awaitKey x => withByte 0xF x 0x0A
  | setDelay x => withByte 0xF x 0x15
  | setSound x => withByte 0xF x 0x18
  | addIndex x => withByte 0xF x 0x1E
  | loadGlyph x => withByte 0xF x 0x29
  | storeDecimal x => withByte 0xF x 0x33
  | saveRegisters x => withByte 0xF x 0x55
  | restoreRegisters x => withByte 0xF x 0x65
  | unknown word => word

private theorem ofWord_withAddress (op : Nibble) (nnn : Address) :
    ∃ f : Fields, .ofWord (withAddress op nnn) = f ∧ f.op = op ∧ f.nnn = nnn := by
  refine ⟨_, rfl, ?_, ?_⟩ <;>
    simp only [Fields.ofWord, Fields.nnn, withAddress, Nibble.low, Fin.ofNat, Fin.ext_iff,
      UInt16.toNat_ofNat'] <;>
    omega

private theorem ofWord_withByte (op x : Nibble) (nn : UInt8) :
    ∃ f : Fields, .ofWord (withByte op x nn) = f ∧ f.op = op ∧ f.x = x ∧ f.nn = nn := by
  have hnn := nn.toNat_lt
  refine ⟨_, rfl, ?_, ?_, UInt8.toNat_inj.mp ?_⟩ <;>
    simp only [Fields.ofWord, Fields.nn, withByte, Nibble.low, Fin.ofNat, Fin.ext_iff,
      UInt16.toNat_ofNat', UInt8.toNat_ofNat'] <;>
    omega

private theorem decode_withAddress {op : Nibble} {nnn : Address} {i : Instruction}
    (h : ∀ f : Fields, f.op = op → f.nnn = nnn → ofFields? f = some i) :
    decode (withAddress op nnn) = i := by
  obtain ⟨f, hf, hop, hnnn⟩ := ofWord_withAddress op nnn
  rw [decode, hf, h f hop hnnn, Option.getD_some]

private theorem decode_withByte {op x : Nibble} {nn : UInt8} {i : Instruction}
    (h : ∀ f : Fields, f.op = op → f.x = x → f.nn = nn → ofFields? f = some i) :
    decode (withByte op x nn) = i := by
  obtain ⟨f, hf, hop, hx, hnn⟩ := ofWord_withByte op x nn
  rw [decode, hf, h f hop hx hnn, Option.getD_some]

private theorem decode_toWord {f : Fields} {i : Instruction} (h : ofFields? f = some i) :
    decode f.toWord = i := by
  rw [decode, Fields.ofWord_toWord, h, Option.getD_some]

/-- Decoding finds the instruction that was encoded. -/
theorem decode_encode {i : Instruction} (h : ∀ word, i ≠ unknown word) : decode i.encode = i := by
  cases i with
  | unknown word => exact absurd rfl (h word)
  | clearScreen | ret => rfl
  | jump nnn | call nnn | loadIndex nnn | jumpOffset nnn =>
    refine decode_withAddress fun f hop hnnn => ?_
    rw [ofFields?, hop, ← hnnn]
    rfl
  | skipEqByte x nn | skipNeByte x nn | loadByte x nn | addByte x nn | random x nn =>
    refine decode_withByte fun f hop hx hnn => ?_
    rw [ofFields?, hop, ← hx, ← hnn]
    rfl
  | skipEqRegister x y | skipNeRegister x y | draw x y n => exact decode_toWord rfl
  | alu x y op => cases op <;> exact decode_toWord rfl
  | _ =>
    refine decode_withByte fun f hop hx hnn => ?_
    rw [ofFields?, hop, ← hx, hnn]
    rfl

private theorem ofMisc?_ne_unknown (x : Nibble) (nn : UInt8) (word : UInt16) :
    ofMisc? x nn ≠ some (unknown word) := by
  unfold ofMisc?
  split <;> intro h <;> cases h

private theorem ofFields?_ne_unknown (f : Fields) (word : UInt16) :
    ofFields? f ≠ some (unknown word) := by
  intro h
  unfold ofFields? at h
  split at h
  case h_9 =>
    obtain ⟨op, -, hop⟩ := Option.map_eq_some_iff.mp h
    cases hop
  case h_16 => exact ofMisc?_ne_unknown _ _ _ h
  all_goals (try split at h) <;> (try split at h) <;> cases h

/-- A word that decodes to none of the instructions is kept as it is. -/
theorem eq_of_decode_unknown {w word : UInt16} (h : decode w = unknown word) : w = word := by
  rw [decode] at h
  rcases hf : ofFields? (.ofWord w) with _ | i
  · rw [hf] at h
    exact unknown.inj h
  · rw [hf, Option.getD_some] at h
    exact absurd (hf.trans (congrArg some h)) (ofFields?_ne_unknown _ _)

private theorem withAddress_nnn {f : Fields} {op : Nibble} (h : f.op.val = op.val) :
    withAddress op f.nnn = f.toWord := by
  unfold withAddress Fields.toWord Fields.nnn
  rw [h]
  congr 1
  simp only [Fin.ofNat]
  omega

private theorem withByte_nn {f : Fields} {op : Nibble} {nn : UInt8} (h : f.op.val = op.val)
    (hnn : f.nn.toNat = nn.toNat) : withByte op f.x nn = f.toWord := by
  unfold withByte Fields.toWord
  rw [h, ← hnn, Fields.nn, UInt8.toNat_ofNat']
  congr 1
  omega

private theorem toWord_digits {f : Fields} {op n : Nibble} (h : f.op.val = op.val)
    (hn : f.n.val = n.val) : Fields.toWord ⟨op, f.x, f.y, n⟩ = f.toWord := by
  unfold Fields.toWord
  rw [h, hn]

private theorem toNibble_of_ofNibble? {n : Nibble} {op : AluOp} (h : AluOp.ofNibble? n = some op) :
    n.val = op.toNibble.val := by
  unfold AluOp.ofNibble? at h
  split at h <;> cases h <;> assumption

private theorem encode_of_ofMisc? {f : Fields} {i : Instruction} (hop : f.op.val = 0xF)
    (h : ofMisc? f.x f.nn = some i) : i.encode = f.toWord := by
  unfold ofMisc? at h
  split at h <;> cases h <;> rename_i hnn <;> exact withByte_nn hop hnn

private theorem encode_of_ofFields? {f : Fields} {i : Instruction} (h : ofFields? f = some i) :
    i.encode = f.toWord := by
  unfold ofFields? at h
  split at h
  case h_1 hop =>
    unfold Fields.toWord
    split at h
    · rename_i hcls
      cases h
      rw [hop, hcls.1, hcls.2.1, hcls.2.2]
      rfl
    · split at h <;> cases h
      rename_i hret
      rw [hop, hret.1, hret.2.1, hret.2.2]
      rfl
  case h_2 hop | h_3 hop | h_11 hop | h_12 hop =>
    cases h
    exact withAddress_nnn hop
  case h_4 hop | h_5 hop | h_7 hop | h_8 hop | h_13 hop =>
    cases h
    exact withByte_nn hop rfl
  case h_6 hop | h_10 hop =>
    split at h <;> cases h
    rename_i hn
    exact toWord_digits hop (congrArg Fin.val hn)
  case h_9 hop =>
    obtain ⟨op, hn, rfl⟩ := Option.map_eq_some_iff.mp h
    exact toWord_digits hop (toNibble_of_ofNibble? hn)
  case h_14 hop =>
    cases h
    exact toWord_digits hop rfl
  case h_15 hop =>
    split at h
    · rename_i hnn
      cases h
      exact withByte_nn hop (congrArg UInt8.toNat hnn)
    · split at h <;> cases h
      rename_i hnn
      exact withByte_nn hop (congrArg UInt8.toNat hnn)
  case h_16 =>
    have hop : f.op.val = 0xF := by
      have hlt := f.op.isLt
      simp only [imp_false] at *
      omega
    exact encode_of_ofMisc? hop h

/-- An instruction has the word that it was decoded from. -/
theorem encode_decode (w : UInt16) : (decode w).encode = w := by
  rw [decode]
  rcases hf : ofFields? (.ofWord w) with _ | i
  · rfl
  · rw [Option.getD_some, encode_of_ofFields? hf, Fields.toWord_ofWord]

/-- The words that decode to no instruction are those that no instruction has. -/
theorem decode_eq_unknown_iff {w : UInt16} :
    decode w = unknown w ↔ ∀ i : Instruction, i.encode = w → i = unknown w := by
  constructor
  · rintro hw i rfl
    cases i with
    | unknown word => rfl
    | _ => exact (decode_encode fun _ => Instruction.noConfusion).symm.trans hw
  · intro h
    exact h (decode w) (encode_decode w)

end Instruction

end Chip8

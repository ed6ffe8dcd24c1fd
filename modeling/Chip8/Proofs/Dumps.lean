import Mathlib.Data.List.Forall2
import Chip8.HexDump
import Chip8.Proofs.HexText

/-!
Nothing is lost in a hex dump. A line is read back into its address and its bytes, and a dump from
its lines into all of its bytes and the address of the first.
-/

namespace Chip8.HexDump

def readByte? (cs : List Char) : Option UInt8 :=
  if cs.length = 2 then (Hex.number? cs).map UInt8.ofNat else none

def readLine? (line : List Char) : Option (Nat × List UInt8) :=
  match line.splitOn ':' with
  | [address, ' ' :: bytes] =>
    (Hex.number? address).bind fun a => ((bytes.splitOn ' ').mapM readByte?).map (a, ·)
  | _ => none

/-- The address of the first byte, if there is one, and all the bytes. -/
def read? (text : String) : Option (Option Nat × List UInt8) :=
  if text.isEmpty then some (none, [])
  else ((text.toList.splitOn '\n').mapM readLine?).map fun lines =>
    (lines.head?.map Prod.fst, (lines.map Prod.snd).flatten)

/-- Line `r` of a dump: an address, and the bytes from there on. -/
def IsLine (offset : Nat) (data : List UInt8) (r : Nat) (line : List Char) : Prop :=
  ∃ address bytes, line = address ++ ':' :: ' ' :: [' '].intercalate bytes ∧
    Hex.Written 3 (offset + 16 * r) address ∧
    List.Forall₂ (fun b cs => Hex.Written 2 b.toNat cs ∧ cs.length = 2)
      (data.extract (16 * r) (min (16 * r + 16) data.length)) bytes

variable {offset r : Nat} {data bytes : List UInt8} {pieces : List (List UInt8)}

theorem length_byte (b : UInt8) : (Hex.byte b).length = 2 :=
  Hex.length_padded (by decide) b.toNat_lt

theorem readByte?_byte (b : UInt8) : readByte? (Hex.byte b) = some b := by
  rw [readByte?, if_pos (length_byte b), Hex.byte, Hex.number?_padded, Option.map_some,
    UInt8.ofNat_toNat]

theorem mapM_readByte? (bytes : List UInt8) : (bytes.map Hex.byte).mapM readByte? = some bytes := by
  induction bytes with
  | nil => rfl
  | cons b bytes ih => simp [readByte?_byte, ih]

/-- A number has none of the marks that stand between numbers. -/
theorem notMem_padded {c : Char} (h : ∀ d, c ≠ Hex.digit d) (width n : Nat) :
    c ∉ Hex.padded width n := by
  intro hc
  obtain ⟨d, hd⟩ := Hex.mem_padded hc
  exact h d hd

theorem notMem_bytes {c : Char} (h : ∀ d, c ≠ Hex.digit d) (hblank : c ≠ ' ')
    (bytes : List UInt8) : c ∉ [' '].intercalate (bytes.map Hex.byte) := by
  induction bytes with
  | nil => simp
  | cons b bytes ih =>
    have hb : c ∉ Hex.byte b := notMem_padded h 2 b.toNat
    cases bytes with
    | nil => simpa using hb
    | cons next bytes =>
      rw [List.map_cons, List.map_cons, List.intercalate_cons_cons]
      simp only [List.mem_append, List.mem_singleton, not_or]
      exact ⟨⟨hb, hblank⟩, ih⟩

theorem notMem_line {c : Char} (h : ∀ d, c ≠ Hex.digit d) (hblank : c ≠ ' ') (hcolon : c ≠ ':')
    (a : Nat) (bytes : List UInt8) : c ∉ line a bytes := by
  simp only [line, List.mem_append, List.mem_cons, List.not_mem_nil, or_false, not_or]
  exact ⟨⟨notMem_padded h 3 a, hcolon, hblank⟩, notMem_bytes h hblank bytes⟩

theorem readLine?_line (a : Nat) (h : bytes ≠ []) : readLine? (line a bytes) = some (a, bytes) := by
  have hcolon : ∀ d, ':' ≠ Hex.digit d := by decide
  have hblank : ∀ d, ' ' ≠ Hex.digit d := by decide
  have hline : (line a bytes).splitOn ':' =
      [Hex.padded 3 a, ' ' :: [' '].intercalate (bytes.map Hex.byte)] := by
    have hparts : line a bytes =
        [':'].intercalate [Hex.padded 3 a, ' ' :: [' '].intercalate (bytes.map Hex.byte)] := by
      simp [line]
    rw [hparts]
    apply List.splitOn_intercalate
    · simp only [List.forall_mem_cons]
      refine ⟨notMem_padded hcolon 3 a, ?_, nofun⟩
      exact List.not_mem_cons_of_ne_of_not_mem (by decide) (notMem_bytes hcolon (by decide) bytes)
    · simp
  have hbytes : ([' '].intercalate (bytes.map Hex.byte)).splitOn ' ' = bytes.map Hex.byte := by
    apply List.splitOn_intercalate
    · intro cs hcs
      obtain ⟨b, -, rfl⟩ := List.mem_map.mp hcs
      exact notMem_padded hblank 2 b.toNat
    · simpa using h
  simp only [readLine?, hline, hbytes, Hex.number?_padded, mapM_readByte?, Option.bind_some,
    Option.map_some]

theorem length_lines (offset : Nat) (data : List UInt8) :
    (lines offset data).length = (data.length + 15) / 16 := by
  rw [lines, List.length_mapIdx, chunks_eq (by decide), List.length_map, List.length_range]
  rfl

theorem getElem_lines (h : r < (lines offset data).length) :
    (lines offset data)[r] = line (offset + 16 * r) ((data.drop (16 * r)).take 16) := by
  simp only [lines, List.getElem_mapIdx, chunks_eq (show 0 < 16 by decide), List.getElem_map,
    List.getElem_range]

theorem isLine_getElem (h : r < (lines offset data).length) :
    IsLine offset data r (lines offset data)[r] := by
  have hpart : data.extract (16 * r) (min (16 * r + 16) data.length) =
      (data.drop (16 * r)).take 16 := by
    rw [List.extract_eq_take_drop, List.take_eq_take_iff, List.length_drop]
    omega
  refine ⟨Hex.padded 3 (offset + 16 * r), ((data.drop (16 * r)).take 16).map Hex.byte, ?_,
    Hex.written_padded (by decide) _, ?_⟩
  · simp [getElem_lines h, line]
  · rw [hpart, List.forall₂_map_right_iff]
    exact List.forall₂_same.mpr fun b _ => ⟨Hex.written_padded (by decide) _, length_byte b⟩

theorem ne_nil_of_mem_chunks (h : bytes ∈ chunks 16 data) : bytes ≠ [] := by
  rw [chunks_eq (by decide), List.mem_map] at h
  obtain ⟨r, hr, rfl⟩ := h
  have hstart : 16 * r < data.length := by
    have := List.mem_range.mp hr
    omega
  rw [← List.length_pos_iff, List.length_take, List.length_drop]
  omega

/-- Every line is read back, and the first one tells where the dump begins. -/
theorem mapM_readLine? (h : ∀ bytes ∈ pieces, bytes ≠ []) (offset : Nat) :
    ∃ entries, (pieces.mapIdx fun r bytes => line (offset + 16 * r) bytes).mapM readLine? =
        some entries ∧
      entries.map Prod.snd = pieces ∧
      entries.head?.map Prod.fst = pieces.head?.map fun _ => offset := by
  induction pieces generalizing offset with
  | nil => exact ⟨[], rfl, rfl, rfl⟩
  | cons bytes pieces ih =>
    obtain ⟨hbytes, hpieces⟩ := List.forall_mem_cons.mp h
    obtain ⟨entries, hread, hsnd, -⟩ := ih hpieces (offset + 16)
    have hnext (r : Nat) : offset + 16 * (r + 1) = offset + 16 + 16 * r := by omega
    refine ⟨(offset, bytes) :: entries, ?_, ?_, rfl⟩
    · simp [List.mapIdx_cons, readLine?_line _ hbytes, hnext, hread]
    · simp [hsnd]

theorem splitOn_text (offset : Nat) (h : data ≠ []) :
    (text offset data).toList.splitOn '\n' = lines offset data := by
  rw [text, String.toList_ofList]
  apply List.splitOn_intercalate
  · intro cs hcs
    obtain ⟨r, -, rfl⟩ := List.mem_mapIdx.mp hcs
    exact notMem_line (by decide) (by decide) (by decide) _ _
  · have hlength := List.length_pos_iff.mpr h
    rw [← List.length_pos_iff, length_lines]
    omega

theorem read?_text (offset : Nat) (data : List UInt8) :
    read? (text offset data) = some (if data = [] then none else some offset, data) := by
  by_cases h : data = []
  · subst h
    have hnone : lines offset [] = [] := List.eq_nil_of_length_eq_zero (length_lines offset [])
    rw [text, hnone]
    rfl
  · have hbytes : ∀ bytes ∈ chunks 16 data, bytes ≠ [] := fun _ => ne_nil_of_mem_chunks
    obtain ⟨entries, hread, hsnd, hfst⟩ := mapM_readLine? hbytes offset
    have hlines := splitOn_text offset h
    have htext : text offset data ≠ "" := by
      intro hempty
      rw [hempty] at hlines
      rw [← lines, ← hlines] at hread
      cases hread
    have hpieces : chunks 16 data ≠ [] := by
      intro hnil
      exact h (by rw [← flatten_chunks (show 0 < 16 by decide) data, hnil]; rfl)
    obtain ⟨first, others, hcons⟩ := List.exists_cons_of_ne_nil hpieces
    rw [read?, if_neg (by simpa using htext), hlines, lines, hread, Option.map_some, hsnd, hfst,
      flatten_chunks (by decide), if_neg h, hcons]
    rfl

/-- A dump has a line for every sixteen bytes, with the address of the first in upper case and at
least three digits, and two digits for each byte. From its text the bytes are found again and, if
there are any, the address where they begin; so two dumps with the same text are the same. -/
theorem dump_lossless (offset : Nat) (data : List UInt8) :
    (∃ rows : List (List Char), rows.length = (data.length + 15) / 16 ∧
      (text offset data).toList = ['\n'].intercalate rows ∧
      (data ≠ [] → (text offset data).toList.splitOn '\n' = rows) ∧
      ∀ r, (h : r < rows.length) → IsLine offset data r rows[r]) ∧
    read? (text offset data) = some (if data = [] then none else some offset, data) ∧
    ∀ offset' data', text offset data = text offset' data' →
      data = data' ∧ (data ≠ [] → offset = offset') := by
  refine ⟨⟨lines offset data, length_lines offset data, String.toList_ofList, splitOn_text offset,
    fun r h => isLine_getElem h⟩, read?_text offset data, ?_⟩
  intro offset' data' htext
  have hread := read?_text offset data
  rw [htext, read?_text offset' data', Option.some.injEq, Prod.mk.injEq] at hread
  obtain ⟨hoffset, rfl⟩ := hread
  refine ⟨rfl, fun h => ?_⟩
  rw [if_neg h, if_neg h] at hoffset
  exact (Option.some.inj hoffset).symm

/-- In the second line the address gets a fourth digit. -/
theorem dump_lossless_fourthDigit :
    let data : List UInt8 := List.replicate 17 0xAB
    let dump := text 0xFF8 data
    dump = "FF8: AB AB AB AB AB AB AB AB AB AB AB AB AB AB AB AB\n1008: AB" ∧
      (dump.toList.splitOn '\n').length = 2 ∧ read? dump = some (some 0xFF8, data) := by
  intro data dump
  obtain ⟨⟨rows, hlength, -, hsplit, -⟩, hread, -⟩ := dump_lossless 0xFF8 data
  refine ⟨by decide +kernel, ?_, hread⟩
  rw [hsplit (List.cons_ne_nil _ _), hlength, show data.length = 17 from List.length_replicate]

end Chip8.HexDump

/-!
Text with the control sequences of a terminal taken out, so that only what would be seen on the
screen is left. A sequence that is cut off by the end of the text is taken out too.
-/

namespace Chip8.Text

/-- Where a reader of terminal output stands. -/
inductive Scan where
  | ground
  /-- After an escape character. -/
  | escape
  | escapeIntermediate
  | controlSequence
  /-- In a command to the system, which a bell ends. -/
  | systemCommand
  | deviceEntry
  | deviceParameter
  | deviceIntermediate
  /-- In a string that a terminator ends. -/
  | string
  deriving DecidableEq, Repr

namespace Scan

/-- Blank characters are seen, other control characters are not. -/
def isSeen (c : Char) : Bool :=
  c = '\t' || c = '\n' || c = '\x0c' || c = '\r' || (0x20 ≤ c.toNat && c.toNat ≠ 0x7F)

def isIntermediate (c : Char) : Bool := 0x20 ≤ c.toNat && c.toNat ≤ 0x2F

def isParameter (c : Char) : Bool := 0x30 ≤ c.toNat && c.toNat ≤ 0x3B

def isPrivate (c : Char) : Bool := 0x3C ≤ c.toNat && c.toNat ≤ 0x3F

def isFinal (c : Char) : Bool := 0x40 ≤ c.toNat && c.toNat ≤ 0x7E

/-- The terminator is one byte, and may be any byte of a character. -/
def holdsTerminator (c : Char) : Bool := (String.utf8EncodeChar c).contains 0x9C

/-- A line break or tab inside of a sequence is seen and ends it. -/
def orBreak (s : Scan) (c : Char) : Scan × Bool :=
  if isSeen c && c.toNat < 0x20 then (.ground, true) else (s, false)

/-- The state after one character, and whether the character is seen. -/
def step (s : Scan) (c : Char) : Scan × Bool :=
  if c = '\x18' || c = '\x1a' then (.ground, false)
  else if c = '\x1b' then (.escape, false)
  else match s with
  | ground => (.ground, isSeen c)
  | escape =>
    if isIntermediate c then (.escapeIntermediate, false)
    else if c = '[' then (.controlSequence, false)
    else if c = ']' then (.systemCommand, false)
    else if c = 'P' then (.deviceEntry, false)
    else if c = 'X' || c = '^' || c = '_' then (.string, false)
    else if isParameter c || isPrivate c || isFinal c then (.ground, false)
    else escape.orBreak c
  | escapeIntermediate =>
    if isParameter c || isPrivate c || isFinal c then (.ground, false)
    else escapeIntermediate.orBreak c
  | controlSequence => if isFinal c then (.ground, false) else controlSequence.orBreak c
  | systemCommand => if c = '\x07' then (.ground, false) else (.systemCommand, false)
  | deviceEntry =>
    if isIntermediate c then (.deviceIntermediate, false)
    else if isParameter c || isPrivate c then (.deviceParameter, false)
    else if isFinal c then (.string, false)
    else (.deviceEntry, false)
  | deviceParameter =>
    if isIntermediate c then (.deviceIntermediate, false)
    else if isPrivate c || isFinal c then (.string, false)
    else (.deviceParameter, false)
  | deviceIntermediate =>
    if isParameter c || isPrivate c || isFinal c then (.string, false)
    else (.deviceIntermediate, false)
  | string => if holdsTerminator c then (.ground, false) else (.string, false)

/-- The characters seen. -/
def seen (s : Scan) : List Char → List Char
  | [] => []
  | c :: cs =>
    let (s, shown) := s.step c
    if shown then c :: s.seen cs else s.seen cs

theorem step_ground {c : Char} (h : 0x20 ≤ c.toNat) (h' : c.toNat ≠ 0x7F) :
    ground.step c = (.ground, true) := by
  have h1 : c ≠ '\x18' := by rintro rfl; contradiction
  have h2 : c ≠ '\x1a' := by rintro rfl; contradiction
  have h3 : c ≠ '\x1b' := by rintro rfl; contradiction
  simp [step, isSeen, h1, h2, h3, h, h']

theorem seen_sublist (s : Scan) (cs : List Char) : (s.seen cs).Sublist cs := by
  induction cs generalizing s with
  | nil => exact .slnil
  | cons c cs ih =>
    simp only [seen]
    split
    · exact (ih _).cons_cons c
    · exact (ih _).cons c

end Scan

def plain (s : String) : String := String.ofList (Scan.ground.seen s.toList)

/-- Text without control characters is left as it is. -/
theorem plain_eq_self {s : String} (h : ∀ c ∈ s.toList, 0x20 ≤ c.toNat ∧ c.toNat ≠ 0x7F) :
    plain s = s := by
  have seen_eq (cs : List Char) (h : ∀ c ∈ cs, 0x20 ≤ c.toNat ∧ c.toNat ≠ 0x7F) :
      Scan.ground.seen cs = cs := by
    induction cs with
    | nil => rfl
    | cons c cs ih =>
      have hc := h c (by simp)
      simp [Scan.seen, Scan.step_ground hc.1 hc.2, ih fun d hd => h d (by simp [hd])]
  simp [plain, seen_eq s.toList h]

end Chip8.Text

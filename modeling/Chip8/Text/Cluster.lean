import Chip8.Text.Marks
import Chip8.Text.Pictures

/-!
Cutting text into clusters, each of which a reader takes for one character: a letter with its
marks, a syllable, a flag, or several pictures joined to one.
-/

namespace Chip8.Text

/-- How a character takes part in clusters. -/
inductive BreakClass where
  | control
  | extend
  | joiner
  | spacing
  | prepended
  | leading
  | vowel
  | trailing
  /-- A syllable that ends in its vowel. -/
  | openSyllable
  | closedSyllable
  | regional
  | consonant
  | picture
  | other
  deriving DecidableEq, Repr

def leadingConsonants : CodePoints := [ (0x1100, 0x115F), (0xA960, 0xA97C) ]

def vowels : CodePoints :=
  [ (0x1160, 0x11A7), (0xD7B0, 0xD7C6), (0x16D63, 0x16D63), (0x16D67, 0x16D6A) ]

def trailingConsonants : CodePoints := [ (0x11A8, 0x11FF), (0xD7CB, 0xD7FB) ]

/-- The class of a character. Below the first combining mark there are few classes. -/
def BreakClass.ofChar (c : Char) : BreakClass :=
  let n := c.toNat
  if n < 0x300 then
    if n < 0x20 || (0x7F ≤ n && n < 0xA0) || n = 0xAD then .control
    else if n = 0xA9 || n = 0xAE then .picture
    else .other
  else if n = 0x200D then .joiner
  else if 0xAC00 ≤ n && n ≤ 0xD7A3 then
    if (n - 0xAC00) % 28 = 0 then .openSyllable else .closedSyllable
  else if 0x1F1E6 ≤ n && n ≤ 0x1F1FF then .regional
  else if within c extenders then .extend
  else if within c spacingMarks then .spacing
  else if within c prependedSigns then .prepended
  else if within c controls then .control
  else if within c leadingConsonants then .leading
  else if within c vowels then .vowel
  else if within c trailingConsonants then .trailing
  else if within c conjoiningConsonants then .consonant
  else if within c pictographs then .picture
  else .other

/-- What a cluster ends in, as far as it reaches back more than one character. -/
inductive Tail where
  | plain
  /-- A picture and its modifiers. -/
  | picture
  /-- A picture, its modifiers and a joiner. -/
  | joinedPicture
  /-- The first half of a flag. -/
  | halfFlag
  /-- A consonant and its marks; `linked` if a virama is among them. -/
  | consonant (linked : Bool)
  deriving DecidableEq, Repr

/-- A virama that joins two consonants to one sign. -/
def isVirama (c : Char) : Bool :=
  c = '\u094D' || c = '\u09CD' || c = '\u0ACD' || c = '\u0B4D' || c = '\u0C4D' || c = '\u0D4D'

def isNonJoiner (c : Char) : Bool := c = '\u200C'

/-- What text ends in after one more character. -/
def Tail.next (t : Tail) (c : Char) : Tail :=
  match BreakClass.ofChar c, t with
  | .picture, _ => .picture
  | .consonant, _ => .consonant false
  | .regional, .halfFlag => .plain
  | .regional, _ => .halfFlag
  | .extend, .picture => .picture
  | .extend, .consonant linked =>
    if isNonJoiner c then .plain else .consonant (linked || isVirama c)
  | .joiner, .picture => .joinedPicture
  | .joiner, .consonant linked => .consonant linked
  | _, _ => .plain

/-- Whether a character belongs to the cluster of the one before it, which has the class `last`
and ends the text in `tail`. -/
def joins (last : BreakClass) (tail : Tail) (c : Char) : Bool :=
  match last, BreakClass.ofChar c with
  | .control, _ | _, .control => false
  | .leading, .leading | .leading, .vowel | .leading, .openSyllable
  | .leading, .closedSyllable => true
  | .openSyllable, .vowel | .vowel, .vowel | .openSyllable, .trailing | .vowel, .trailing => true
  | .closedSyllable, .trailing | .trailing, .trailing => true
  | _, .extend | _, .joiner | _, .spacing | .prepended, _ => true
  | _, .consonant => tail = .consonant true
  | _, .picture => tail = .joinedPicture
  | _, .regional => tail = .halfFlag
  | _, _ => false

/-- The rest of a cluster, and the clusters after it. -/
def clustersFrom (last : BreakClass) (tail : Tail) :
    List Char → List Char × List (List Char)
  | [] => ([], [])
  | c :: cs =>
    let (first, rest) := clustersFrom (.ofChar c) (tail.next c) cs
    if joins last tail c then (c :: first, rest) else ([], (c :: first) :: rest)

/-- Cuts text into clusters, none of them empty. -/
def clusters : List Char → List (List Char)
  | [] => []
  | c :: cs =>
    let (first, rest) := clustersFrom (.ofChar c) (Tail.plain.next c) cs
    (c :: first) :: rest

theorem flatten_clustersFrom (last : BreakClass) (tail : Tail) (cs : List Char) :
    (clustersFrom last tail cs).1 ++ (clustersFrom last tail cs).2.flatten = cs := by
  induction cs generalizing last tail with
  | nil => rfl
  | cons c cs ih =>
    have h := ih (.ofChar c) (tail.next c)
    simp only [clustersFrom]
    split <;> simp [h]

/-- Nothing is lost and nothing is moved. -/
theorem flatten_clusters (cs : List Char) : (clusters cs).flatten = cs := by
  cases cs with
  | nil => rfl
  | cons c cs => simp [clusters, flatten_clustersFrom]

theorem ne_nil_of_mem_clustersFrom {last : BreakClass} {tail : Tail} {cs cluster : List Char}
    (h : cluster ∈ (clustersFrom last tail cs).2) : cluster ≠ [] := by
  induction cs generalizing last tail with
  | nil => simp [clustersFrom] at h
  | cons c cs ih =>
    simp only [clustersFrom] at h
    split at h
    · exact ih h
    · rcases List.mem_cons.1 h with rfl | h
      · simp
      · exact ih h

theorem ne_nil_of_mem_clusters {cs cluster : List Char} (h : cluster ∈ clusters cs) :
    cluster ≠ [] := by
  cases cs with
  | nil => simp [clusters] at h
  | cons c cs =>
    rcases List.mem_cons.1 h with rfl | h
    · simp
    · exact ne_nil_of_mem_clustersFrom h

end Chip8.Text

/-!
How alike two words are, for a hint about a word that may be a slip of another.
-/

namespace Chip8.Text

/-- The first place in `word` for `c` that is near place `i` and not taken. -/
def partner? (word : List Char) (reach : Nat) (taken : List Nat) (c : Char) (i : Nat) :
    Option Nat :=
  (word.zipIdx.find? fun (d, j) =>
    d = c && j ≤ i + reach && i ≤ j + reach && !taken.contains j).map (·.2)

/-- Pairs equal characters of two words that stand near to each other, from left to right. The
characters of the first that have a partner, and the places of the partners. -/
def pair (word other : List Char) (reach : Nat) : List Char × List Nat :=
  word.zipIdx.foldl
    (fun (paired, taken) (c, i) =>
      match partner? other reach taken c i with
      | some j => (paired ++ [c], j :: taken)
      | none => (paired, taken))
    ([], [])

/-- From zero for words with no pair to one for equal words. Half of the pairs that stand in
another order count against it. -/
def similarity (word other : List Char) : Float :=
  let reach := max word.length other.length / 2 - 1
  let (paired, taken) := pair word other reach
  let partners := (other.zipIdx.filter fun (_, j) => taken.contains j).map (·.1)
  let swapped := ((paired.zip partners).filter fun (c, d) => c ≠ d).length / 2
  if paired.isEmpty then 0
  else
    let pairs := Float.ofNat paired.length
    (pairs / Float.ofNat word.length + pairs / Float.ofNat other.length
      + Float.ofNat (paired.length - swapped) / pairs) / 3

/-- Those of `choices` that are like `word`, the most alike last. -/
def similar (word : String) (choices : List String) : List String :=
  let scored := choices.map fun choice => (similarity word.toList choice.toList, choice)
  let alike := scored.filter fun (score, _) => 0.7 < score
  (alike.mergeSort fun p q => p.1 ≤ q.1).map (·.2)

theorem mem_of_mem_similar {word choice : String} {choices : List String}
    (h : choice ∈ similar word choices) : choice ∈ choices := by
  simp only [similar, List.mem_map, List.mem_mergeSort, List.mem_filter] at h
  obtain ⟨_, ⟨⟨_, hc, rfl⟩, _⟩, rfl⟩ := h
  exact hc

end Chip8.Text

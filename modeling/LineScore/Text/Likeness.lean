/-! How alike two texts are. The characters that they have in common are counted in blocks: the longest
one first, then those on its left and those on its right. -/

namespace LineScore.Text

/-- A block of characters that stands in two texts: where it begins in each of them, and its length. -/
structure CommonBlock where
  left : Nat := 0
  right : Nat := 0
  length : Nat := 0
  deriving DecidableEq, Repr

/-- The number of characters that two texts begin with in common. -/
def commonPrefixLength : List Char → List Char → Nat
  | a :: as, b :: bs => if a = b then commonPrefixLength as bs + 1 else 0
  | _, _ => 0

/-- The longest common block. Of several the one that begins first in the first text counts, and of
those the one that begins first in the second. -/
def longestBlock (a b : List Char) : CommonBlock :=
  let starts := (List.range a.length).flatMap fun i => (List.range b.length).map fun j => (i, j)
  starts.foldl
    (fun best start =>
      let length := commonPrefixLength (a.drop start.1) (b.drop start.2)
      if best.length < length then ⟨start.1, start.2, length⟩ else best)
    {}

/-- The number of characters that two texts have in common. -/
def commonLength (a b : List Char) : Nat :=
  match longestBlock a b with
  | ⟨left, right, length⟩ =>
      if _inside : 0 < length ∧ left < a.length then
        commonLength (a.take left) (b.take right) + length
          + commonLength (a.drop (left + length)) (b.drop (right + length))
      else 0
  termination_by a.length
  decreasing_by all_goals simp only [List.length_take, List.length_drop]; omega

/-- Whether at least three fifths of the characters of two texts are common to both. No more of them
can be than the shorter text has, so most texts are told apart by their lengths. -/
def isAlike (a b : List Char) : Bool :=
  3 * (a.length + b.length) ≤ 10 * min a.length b.length
    && 3 * (a.length + b.length) ≤ 10 * commonLength a b

/-- The candidates that are like a text, in alphabetical order. -/
def alike (candidates : List String) (text : String) : List String :=
  (candidates.filter fun candidate => isAlike candidate.toList text.toList).mergeSort
    fun a b => a ≤ b

end LineScore.Text

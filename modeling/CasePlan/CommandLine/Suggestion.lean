import CasePlan.Text.Quoted

/-!
# Suggestions for misspelled words

Two words are alike to the degree to which they consist of common pieces: the longest common piece,
and then the common pieces to the left and to the right of it, in turn.  `suggestions` are the words
of a list that are most like a given one.
-/

namespace CasePlan.CommandLine

/-- How many code points two texts have in common at their beginnings. -/
def commonBeginning : Text → Text → Nat
  | a :: s, b :: t => if a = b then commonBeginning s t + 1 else 0
  | _, _ => 0

/-- A common piece of two texts: where it begins in each, and its length. -/
structure CommonPiece where
  /-- Where it begins in the first text. -/
  left : Nat
  /-- Where it begins in the second text. -/
  right : Nat
  /-- Its length. -/
  length : Nat
  deriving DecidableEq, Repr

/-- The longest common piece; of equals the earliest in the first text, then in the second. -/
def longestCommonPiece (s t : Text) : CommonPiece :=
  (List.range s.length).foldl (fun best i =>
    (List.range t.length).foldl (fun best j =>
      let n := commonBeginning (s.drop i) (t.drop j)
      if best.length < n then ⟨i, j, n⟩ else best) best) ⟨0, 0, 0⟩

/-- How many code points lie in common pieces. -/
def commonCount (fuel : Nat) (s t : Text) : Nat :=
  match fuel with
  | 0 => 0
  | fuel + 1 =>
    let piece := longestCommonPiece s t
    if piece.length = 0 then 0
    else
      commonCount fuel (s.take piece.left) (t.take piece.right) + piece.length +
        commonCount fuel (s.drop (piece.left + piece.length)) (t.drop (piece.right + piece.length))

/-- How alike two texts are, from zero to one. -/
def likeness (s t : Text) : Rat :=
  if s.isEmpty ∧ t.isEmpty then 1
  else mkRat (2 * commonCount (s.length + 1) s t) (s.length + t.length)

/-- The least likeness of a suggestion. -/
def leastLikeness : Rat := 3 / 5

/-- At most three words of a list that are like a given one, in the order of code points. -/
def suggestions (word : Text) (words : List Text) : List Text :=
  let close := (words.map fun w => (likeness w word, w)).filter fun (l, _) => leastLikeness ≤ l
  let best := close.mergeSort fun (k, v) (l, w) => l < k || (k == l && Text.precedesOrEq w v)
  ((best.take 3).map (·.2)).mergeSort Text.precedesOrEq

/-- The question that offers suggestions, if there are any. -/
def offer : List Text → Text
  | [] => []
  | [w] => " Did you mean " ++ w.quoted ++ "?"
  | words => " (Did you mean one of: " ++ Text.join ", " (words.map Text.quoted) ++ "?)"

end CasePlan.CommandLine

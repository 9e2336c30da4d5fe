/-!
# Similarity of words

How alike two words are, as the Jaro similarity: two equal letters match if they stand no further
apart than half the longer word, each letter matches once, and matching letters that come in
another order count for less.  The measure is one for equal words and zero for words without a
common letter.
-/

namespace ClassAudit.Command.Similarity

/-- How far apart two letters can stand and still match. -/
def reach (word other : List Char) : Nat :=
  max word.length other.length / 2 - 1

/-- The positions that match, those of the first word in increasing order.  Every letter takes the
first partner that is within reach and not taken. -/
def matching (word other : List Char) : List (Nat × Nat) :=
  (word.zipIdx.foldl extend []).reverse
where
  /-- Looks for a partner of one more letter. -/
  extend (pairs : List (Nat × Nat)) (letter : Char × Nat) : List (Nat × Nat) :=
    let partner := other.zipIdx.find? fun (char, position) =>
      char = letter.1 && letter.2 ≤ position + reach word other &&
        position ≤ letter.2 + reach word other && !(pairs.map Prod.snd).contains position
    match partner with
    | some (_, position) => (letter.2, position) :: pairs
    | none => pairs

/-- The letters at some positions of a word, in the order of the word. -/
def lettersAt (word : List Char) (positions : List Nat) : List Char :=
  (word.zipIdx.filter fun letter => positions.contains letter.2).map Prod.fst

/-- The Jaro similarity of two words. -/
def jaro (word other : List Char) : Float :=
  if word.isEmpty && other.isEmpty then 1
  else
    let pairs := matching word other
    if pairs.isEmpty then 0
    else
      let moved := ((lettersAt word (pairs.map Prod.fst)).zip
        (lettersAt other (pairs.map Prod.snd))).countP fun (letter, partner) => letter ≠ partner
      let common := pairs.length.toFloat
      (common / word.length.toFloat + common / other.length.toFloat +
        (pairs.length - moved / 2).toFloat / common) / 3

end ClassAudit.Command.Similarity

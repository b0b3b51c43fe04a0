/-!
# Words of a line

Words are the longest runs of characters that are not blank, in the order of the line.  The blanks
are the characters of the Unicode property White_Space; no other character separates words.
-/

namespace ChipEight.Text

def isBlank (c : Char) : Bool :=
  let code := c.toNat
  (0x09 ≤ code && code ≤ 0x0D) || code == 0x20 || code == 0x85 || code == 0xA0 || code == 0x1680 ||
    (0x2000 ≤ code && code ≤ 0x200A) || code == 0x2028 || code == 0x2029 || code == 0x202F ||
    code == 0x205F || code == 0x3000

/-- Puts a character in front of the words of what follows it: a blank closes the word before it,
any other character belongs to the word that starts right after it. -/
def prependTo (c : Char) (rest : List Char × List (List Char)) : List Char × List (List Char) :=
  if isBlank c then
    ([], if rest.1.isEmpty then rest.2 else rest.1 :: rest.2)
  else
    (c :: rest.1, rest.2)

def firstRun (line : List Char) : List Char × List (List Char) :=
  line.foldr prependTo ([], [])

def words (line : List Char) : List (List Char) :=
  let (run, rest) := firstRun line
  if run.isEmpty then rest else run :: rest

theorem words_append_blank (before after : List Char) (c : Char) (hblank : isBlank c) :
    words (before ++ c :: after) = words before ++ words after := by
  have hrun : ∀ line, firstRun (line ++ c :: after) =
      ((firstRun line).1, (firstRun line).2 ++ words after) := by
    intro line
    induction line with
    | nil => simp [firstRun, prependTo, hblank, words]
    | cons d line ih =>
        simp only [firstRun, List.cons_append, List.foldr_cons] at ih ⊢
        rw [ih]
        unfold prependTo
        by_cases hd : isBlank d
        · simp only [hd, if_true]
          split <;> simp
        · simp [hd]
  simp only [words, hrun]
  split <;> simp [*]

end ChipEight.Text

/-!
# Comments

A comment is either a parenthesis with all that follows it up to the closing one, or a
semicolon with the rest of its line. A parenthesis that is never closed comments out the
rest of the text. `strip` replaces each comment by one blank and keeps every other
character, so that a comment separates what stands on its two sides.
-/

namespace DryRun.Comment

/-- What follows a comment that a parenthesis opened. -/
def afterParenthesis (cs : List Char) : List Char := (cs.dropWhile (· ≠ ')')).drop 1

/-- What follows a comment that a semicolon opened: the line feed belongs to the text. -/
def afterSemicolon (cs : List Char) : List Char := cs.dropWhile (· ≠ '\n')

/-- No more text is left behind a comment in parentheses than there was with it. -/
theorem length_afterParenthesis_le (cs : List Char) :
    (afterParenthesis cs).length ≤ cs.length := by
  have := (List.dropWhile_suffix (· ≠ ')') (l := cs)).length_le
  simp only [afterParenthesis, List.length_drop]
  omega

/-- No more text is left behind a comment up to the end of a line than there was with it. -/
theorem length_afterSemicolon_le (cs : List Char) :
    (afterSemicolon cs).length ≤ cs.length :=
  (List.dropWhile_suffix _).length_le

/-- The text with each comment replaced by one blank. -/
def strip : List Char → List Char
  | [] => []
  | c :: cs =>
    if c = '(' then ' ' :: strip (afterParenthesis cs)
    else if c = ';' then ' ' :: strip (afterSemicolon cs)
    else c :: strip cs
termination_by cs => cs.length
decreasing_by
  · exact Nat.lt_succ_of_le (length_afterParenthesis_le cs)
  · exact Nat.lt_succ_of_le (length_afterSemicolon_le cs)
  · exact Nat.lt_succ_self _

end DryRun.Comment

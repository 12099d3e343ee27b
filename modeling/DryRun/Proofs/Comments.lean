import DryRun.Proofs.Spelling

/-!
# Comments are removed completely, and once is enough

`Comment.strip` walks along a text. This module says without it what the comments of a text are,
and shows that it replaces each of them by one blank and leaves every other character alone.

A comment is a parenthesis up to the next closing one, whatever lines it goes over, or to the end
of the text, or it is a semicolon up to the end of its line (`Comment.IsComment`). Either form may
hold the characters that open the other one, so which characters open a comment depends on all that
stands before them. A text is divided from left to right into comments and characters outside of
them (`Comment.Divided`), and there is only one way to do that (`Comment.Divided.unique`).

What is put in the place of a comment is a blank, which opens no comment, and a character that is
kept opens none either. So nothing is left to remove, and a line that is read again from its code
is the line that it was.

## Main results

* `Comment.exists_divided`: a text without its comments is the text with each replaced by a blank.
* `Block.comments_removed`: the comments of a line are removed, and its code is read as the line is.
-/

namespace DryRun

open Text

namespace Comment

/-! ### The comments of a text -/

/-- The spellings of a comment before a given rest of the text. -/
inductive IsComment : List Char → List Char → Prop
  | closed {body : List Char} (rest : List Char) (hbody : ')' ∉ body) :
      IsComment ('(' :: (body ++ [')'])) rest
  | unclosed {body : List Char} (hbody : ')' ∉ body) : IsComment ('(' :: body) []
  | line {body rest : List Char} (hbody : '\n' ∉ body) (hrest : ∀ c ∈ rest.head?, c = '\n') :
      IsComment (';' :: body) rest

/-- A part of a text: a character outside of comments, or a comment. -/
inductive Piece where
  | kept (c : Char)
  | comment (text : List Char)
deriving DecidableEq

/-- What is left of a part of a text. -/
def Piece.image : Piece → Char
  | .kept c => c
  | .comment _ => ' '

/-- The division of a text into comments and the characters outside of them, from the left. -/
inductive Divided : List Char → List Piece → Prop
  | nil : Divided [] []
  | kept {c : Char} {cs : List Char} {pieces : List Piece} (hparenthesis : c ≠ '(')
      (hsemicolon : c ≠ ';') (hrest : Divided cs pieces) : Divided (c :: cs) (.kept c :: pieces)
  | comment {text rest : List Char} {pieces : List Piece} (htext : IsComment text rest)
      (hrest : Divided rest pieces) : Divided (text ++ rest) (.comment text :: pieces)

/-! ### Where a comment ends -/

/-- What is dropped up to a character is all that stands before it. -/
theorem dropWhile_ne_append {stop : Char} {body rest : List Char} (hbody : stop ∉ body)
    (hrest : ∀ c ∈ rest.head?, c = stop) : (body ++ rest).dropWhile (· ≠ stop) = rest := by
  have hne : ∀ c ∈ body, decide (c ≠ stop) = true := by
    intro c hc
    exact decide_eq_true (ne_of_mem_of_not_mem hc hbody)
  rw [List.dropWhile_append_of_pos hne]
  cases rest with
  | nil => rfl
  | cons c cs =>
      obtain rfl : c = stop := hrest c rfl
      exact List.dropWhile_cons_of_neg (by simp)

theorem afterParenthesis_append {body : List Char} (hbody : ')' ∉ body) (rest : List Char) :
    afterParenthesis (body ++ ')' :: rest) = rest := by
  have hdrop : (body ++ ')' :: rest).dropWhile (· ≠ ')') = ')' :: rest :=
    dropWhile_ne_append hbody fun c hc => (Option.some.inj (Option.mem_def.1 hc)).symm
  rw [afterParenthesis, hdrop, List.drop_one, List.tail_cons]

theorem afterParenthesis_of_notMem {body : List Char} (hbody : ')' ∉ body) :
    afterParenthesis body = [] := by
  have hdrop : (body ++ []).dropWhile (· ≠ ')') = [] :=
    dropWhile_ne_append hbody fun c hc => by cases hc
  rw [List.append_nil] at hdrop
  rw [afterParenthesis, hdrop, List.drop_nil]

/-- What follows a comment is determined by the text from its first character on. -/
theorem IsComment.after {text rest : List Char} (h : IsComment text rest) :
    (∃ cs, text ++ rest = '(' :: cs ∧ afterParenthesis cs = rest) ∨
      ∃ cs, text ++ rest = ';' :: cs ∧ afterSemicolon cs = rest := by
  cases h with
  | @closed body _ hbody =>
      refine .inl ⟨body ++ ')' :: rest, ?_, afterParenthesis_append hbody rest⟩
      rw [List.cons_append, List.append_assoc, List.singleton_append]
  | @unclosed body hbody =>
      refine .inl ⟨body, ?_, afterParenthesis_of_notMem hbody⟩
      rw [List.append_nil]
  | @line body _ hbody hrest => exact .inr ⟨body ++ rest, rfl, dropWhile_ne_append hbody hrest⟩

/-- A parenthesis opens a comment. -/
theorem exists_isComment_parenthesis (cs : List Char) :
    ∃ text, IsComment text (afterParenthesis cs) ∧ '(' :: cs = text ++ afterParenthesis cs := by
  by_cases hclosed : ')' ∈ cs
  · obtain ⟨body, rest, rfl, hbody⟩ := List.eq_append_cons_of_mem hclosed
    rw [afterParenthesis_append hbody]
    refine ⟨'(' :: (body ++ [')']), .closed rest hbody, ?_⟩
    rw [List.cons_append, List.append_assoc, List.singleton_append]
  · rw [afterParenthesis_of_notMem hclosed]
    exact ⟨'(' :: cs, .unclosed hclosed, (List.append_nil _).symm⟩

/-- A semicolon opens a comment. -/
theorem exists_isComment_semicolon (cs : List Char) :
    ∃ text, IsComment text (afterSemicolon cs) ∧ ';' :: cs = text ++ afterSemicolon cs := by
  have hbody : '\n' ∉ cs.takeWhile (· ≠ '\n') := fun hmem => by
    simpa using List.mem_takeWhile_imp hmem
  have hrest : ∀ c ∈ (afterSemicolon cs).head?, c = '\n' := by
    intro c hc
    have hhead := List.head?_dropWhile_not (· ≠ '\n') cs
    rw [afterSemicolon, Option.mem_def] at hc
    rw [hc] at hhead
    simpa using hhead
  refine ⟨';' :: cs.takeWhile (· ≠ '\n'), .line hbody hrest, ?_⟩
  rw [afterSemicolon, List.cons_append, List.takeWhile_append_dropWhile]

/-! ### One division -/

/-- A comment does not begin with a character that is kept. -/
theorem IsComment.head_opens {text rest : List Char} (h : IsComment text rest) {c : Char}
    {cs : List Char} (heq : c :: cs = text ++ rest) : c = '(' ∨ c = ';' := by
  rcases h.after with ⟨_, htext, -⟩ | ⟨_, htext, -⟩ <;> rw [htext] at heq
  · exact .inl (List.cons.inj heq).1
  · exact .inr (List.cons.inj heq).1

/-- Two comments at the front of one text are the same. -/
theorem IsComment.unique {text rest text' rest' : List Char} (h : IsComment text rest)
    (h' : IsComment text' rest') (heq : text ++ rest = text' ++ rest') :
    text = text' ∧ rest = rest' := by
  have hrest : rest = rest' := by
    rcases h.after with ⟨cs, hcs, hafter⟩ | ⟨cs, hcs, hafter⟩ <;>
      rcases h'.after with ⟨cs', hcs', hafter'⟩ | ⟨cs', hcs', hafter'⟩ <;>
      rw [← heq, hcs] at hcs' <;> obtain ⟨hopen, rfl⟩ := List.cons.inj hcs'
    · exact hafter.symm.trans hafter'
    · exact absurd hopen (by decide)
    · exact absurd hopen (by decide)
    · exact hafter.symm.trans hafter'
  subst hrest
  exact ⟨List.append_cancel_right heq, rfl⟩

/-- A text is divided in one way only. -/
theorem Divided.unique {cs : List Char} {pieces pieces' : List Piece} (h : Divided cs pieces)
    (h' : Divided cs pieces') : pieces = pieces' := by
  induction h generalizing pieces' with
  | nil =>
      generalize hcs : ([] : List Char) = cs at h'
      cases h' with
      | nil => rfl
      | kept => cases hcs
      | comment htext =>
          rcases htext.after with ⟨_, hcons, -⟩ | ⟨_, hcons, -⟩ <;> cases hcs.trans hcons
  | @kept c cs pieces hparenthesis hsemicolon _ ih =>
      generalize hcs : c :: cs = text at h'
      cases h' with
      | nil => cases hcs
      | kept _ _ hrest =>
          obtain ⟨rfl, rfl⟩ := List.cons.inj hcs
          rw [ih hrest]
      | comment htext => exact absurd (htext.head_opens hcs) (by simp [hparenthesis, hsemicolon])
  | @comment text rest pieces htext _ ih =>
      generalize hcs : text ++ rest = cs at h'
      cases h' with
      | nil => rcases htext.after with ⟨_, hcons, -⟩ | ⟨_, hcons, -⟩ <;> cases hcs.symm.trans hcons
      | kept hparenthesis hsemicolon =>
          exact absurd (htext.head_opens hcs.symm) (by simp [hparenthesis, hsemicolon])
      | comment htext' hrest' =>
          obtain ⟨rfl, rfl⟩ := htext.unique htext' hcs
          rw [ih hrest']

/-- **A text without its comments is the text with each comment replaced by one blank.** -/
theorem exists_divided (cs : List Char) :
    ∃ pieces, Divided cs pieces ∧ strip cs = pieces.map Piece.image := by
  fun_induction strip cs with
  | case1 => exact ⟨[], .nil, rfl⟩
  | case2 cs ih =>
      obtain ⟨pieces, hpieces, hstrip⟩ := ih
      obtain ⟨text, htext, heq⟩ := exists_isComment_parenthesis cs
      exact ⟨.comment text :: pieces, heq ▸ hpieces.comment htext, congrArg (' ' :: ·) hstrip⟩
  | case3 cs _ ih =>
      obtain ⟨pieces, hpieces, hstrip⟩ := ih
      obtain ⟨text, htext, heq⟩ := exists_isComment_semicolon cs
      exact ⟨.comment text :: pieces, heq ▸ hpieces.comment htext, congrArg (' ' :: ·) hstrip⟩
  | case4 c cs hparenthesis hsemicolon ih =>
      obtain ⟨pieces, hpieces, hstrip⟩ := ih
      exact ⟨.kept c :: pieces, .kept hparenthesis hsemicolon hpieces, congrArg (c :: ·) hstrip⟩

/-! ### Nothing is left to remove -/

/-- What is left of a divided text opens no comment. -/
theorem Divided.image_opens_none {cs : List Char} {pieces : List Piece} (h : Divided cs pieces) :
    ∀ c ∈ pieces.map Piece.image, c ≠ '(' ∧ c ≠ ';' := by
  induction h with
  | nil => exact fun c hc => absurd hc List.not_mem_nil
  | kept hparenthesis hsemicolon _ ih =>
      exact List.forall_mem_cons.2 ⟨⟨hparenthesis, hsemicolon⟩, ih⟩
  | comment _ _ ih =>
      exact List.forall_mem_cons.2 ⟨⟨by simp [Piece.image], by simp [Piece.image]⟩, ih⟩

/-- No character that opens a comment is left. -/
theorem strip_opens_none (cs : List Char) : ∀ c ∈ strip cs, c ≠ '(' ∧ c ≠ ';' := by
  obtain ⟨pieces, hpieces, hstrip⟩ := exists_divided cs
  rw [hstrip]
  exact hpieces.image_opens_none

end Comment

/-! ### Outer blanks -/

namespace Text

theorem isBlank_head_dropWhile (cs : List Char) :
    ∀ c ∈ (cs.dropWhile isBlank).head?, isBlank c = false := by
  intro c hc
  have hhead := List.head?_dropWhile_not isBlank cs
  rw [Option.mem_def.1 hc] at hhead
  exact hhead

/-- Without its outer blanks a text that opens no comment is code. -/
theorem isCode_trim {cs : List Char} (h : ∀ c ∈ cs, c ≠ '(' ∧ c ≠ ';') : IsCode (trim cs) := by
  obtain ⟨blanks, hblanks⟩ :=
    List.dropWhile_suffix isBlank (l := (cs.dropWhile isBlank).reverse)
  refine ⟨?_, ?_, ?_⟩
  · intro c hc
    rw [trim, List.head?_reverse] at hc
    -- the last character of what is left is the first one after the leading blanks
    have hne := List.ne_nil_of_mem (List.mem_of_getLast? hc)
    rw [← List.getLast?_append_of_ne_nil blanks hne, hblanks, List.getLast?_reverse] at hc
    exact isBlank_head_dropWhile cs c hc
  · intro c hc
    rw [trim, List.getLast?_reverse] at hc
    exact isBlank_head_dropWhile _ c hc
  · intro c hc
    have hmem : c ∈ blanks ++ (cs.dropWhile isBlank).reverse.dropWhile isBlank :=
      List.mem_append_right blanks (List.mem_reverse.1 hc)
    rw [hblanks, List.mem_reverse] at hmem
    exact h c ((List.dropWhile_suffix isBlank).subset hmem)

end Text

/-- **Comments are removed completely, and once is enough.** Without its comments a line holds no
character that opens one. There is one division of the line, from left to right, into comments and
characters outside of them, and what is left of the line is this division with one blank for each
comment and every other character in its place. Removing comments again changes nothing, and a line
that is read from the code of a line has the same code, the same words, and is flagged if the line
is. -/
theorem Block.comments_removed {α : Type} [Scalar α] (source : String) :
    ('(' ∉ Comment.strip source.toList ∧ ';' ∉ Comment.strip source.toList) ∧
    (∃ pieces, (∀ found, Comment.Divided source.toList found ↔ found = pieces) ∧
      Comment.strip source.toList = pieces.map Comment.Piece.image) ∧
    Comment.strip (Comment.strip source.toList) = Comment.strip source.toList ∧
    let b : Block α := Block.parse source
    let b' : Block α := Block.parse b.code
    b'.code = b.code ∧ b'.words = b.words ∧ b'.isFlagged = b.isFlagged := by
  have hnone := Comment.strip_opens_none source.toList
  obtain ⟨pieces, hpieces, hstrip⟩ := Comment.exists_divided source.toList
  refine ⟨⟨fun h => (hnone _ h).1 rfl, fun h => (hnone _ h).2 rfl⟩, ⟨pieces, ?_, hstrip⟩,
    strip_of_no_comment hnone, ?_⟩
  · exact fun found => ⟨fun h => h.unique hpieces, fun h => h ▸ hpieces⟩
  · have hcode := (isCode_trim hnone).trim_strip
    simp only [Block.parse, Block.isFlagged, String.toList_ofList, hcode, and_self]

end DryRun

import DryRun.Proofs.Orders

/-!
# The order of words does not matter

The words of a line may be written in any order, as long as those with the same letter keep
theirs, and a line may have words that mean nothing to the machine. A line is consulted through
several accessors, some for the first value of a letter, some for all of them, some for codes, and
this module shows that they agree on this: a line is what its letters say, one by one.

What a line does is read in two parts. The modal words come first, and each of them has a letter
of its own. Then the line acts or moves as its orders say (`State.SameOrders`), and these are read
off the values of its letters as well.

The letters of a line are catalogued as a set, so it makes no difference in which order they come
and how often (`OrderedSet.insertAll_congr`).

## Main results

* `State.evaluate_of_sameReading`: lines with the same letters and the same values of each letter
  that is read do the same.
* `State.word_order_irrelevant`: so words of different letters may change places, and words of
  other letters may change their values.
-/

namespace DryRun

/-! ### Ordered sets -/

namespace OrderedSet

variable {β : Type} [DecidableEq β] [LT β] [DecidableLT β]

/-- Elements are added one after the other. -/
theorem insertAll_append (s : OrderedSet β) (xs ys : List β) :
    s.insertAll (xs ++ ys) = (s.insertAll xs).insertAll ys :=
  List.foldl_append

variable [Std.Trichotomous (α := β) (· < ·)] [Std.Asymm (α := β) (· < ·)]

/-- What is there already is not put in again. -/
theorem insertSorted_self (x : β) (ys : List β) :
    insertSorted x (insertSorted x ys) = insertSorted x ys := by
  have hirrefl : ¬ x < x := fun h => Std.Asymm.asymm x x h h
  induction ys with
  | nil => simp [insertSorted, hirrefl]
  | cons y ys ih =>
      rcases Std.lt_trichotomy x y with hlt | rfl | hgt
      · simp [insertSorted, hlt, hirrefl]
      · simp [insertSorted, hirrefl]
      · have hlt : ¬ x < y := Std.Asymm.asymm y x hgt
        have hne : x ≠ y := by
          rintro rfl
          exact hlt hgt
        simp [insertSorted, hlt, hne, ih]

variable [Trans (α := β) (· < ·) (· < ·) (· < ·)]

/-- A smaller element and a larger one are put in their places in either order. -/
theorem insertSorted_comm_of_lt {x y : β} (hxy : x < y) (zs : List β) :
    insertSorted x (insertSorted y zs) = insertSorted y (insertSorted x zs) := by
  have hirrefl (z : β) : ¬ z < z := fun h => Std.Asymm.asymm z z h h
  have hyx : ¬ y < x := Std.Asymm.asymm x y hxy
  have hne : y ≠ x := by
    rintro rfl
    exact hyx hxy
  induction zs with
  | nil => simp [insertSorted, hxy, hyx, hne]
  | cons z zs ih =>
      rcases Std.lt_trichotomy y z with hyz | rfl | hzy
      · have hxz : x < z := Std.lt_trans hxy hyz
        simp [insertSorted, hxy, hyx, hne, hyz, hxz]
      · simp [insertSorted, hxy, hyx, hne, hirrefl]
      · have hyz : ¬ y < z := Std.Asymm.asymm z y hzy
        have hyz' : y ≠ z := by
          rintro rfl
          exact hyz hzy
        by_cases hxz : x < z
        · simp [insertSorted, hyx, hne, hyz, hyz', hxz]
        · by_cases heq : x = z
          · simp [insertSorted, heq, hyz, hyz', hirrefl]
          · simp [insertSorted, hyz, hyz', hxz, heq, ih]

/-- Two elements may be added in either order. -/
theorem insert_comm (s : OrderedSet β) (x y : β) :
    (s.insert x).insert y = (s.insert y).insert x := by
  rcases Std.lt_trichotomy x y with hlt | rfl | hlt
  · exact congrArg mk (insertSorted_comm_of_lt hlt s.toList).symm
  · rfl
  · exact congrArg mk (insertSorted_comm_of_lt hlt s.toList)

theorem insert_insertAll (s : OrderedSet β) (xs : List β) (x : β) :
    (s.insert x).insertAll xs = (s.insertAll xs).insert x := by
  induction xs generalizing s with
  | nil => rfl
  | cons y ys ih =>
      change ((s.insert x).insert y).insertAll ys = ((s.insert y).insertAll ys).insert x
      rw [insert_comm, ih]

/-- An element that was added is not added again. -/
theorem insert_insertAll_of_mem (s : OrderedSet β) {xs : List β} {x : β} (h : x ∈ xs) :
    (s.insertAll xs).insert x = s.insertAll xs := by
  induction xs generalizing s with
  | nil => cases h
  | cons y ys ih =>
      change ((s.insert y).insertAll ys).insert x = (s.insert y).insertAll ys
      rcases List.mem_cons.1 h with rfl | h
      · rw [← insert_insertAll]
        exact congrArg (insertAll · ys) (congrArg mk (insertSorted_self x s.toList))
      · exact ih (s.insert y) h

/-- Elements that were added are not added again. -/
theorem insertAll_insertAll_of_subset (s : OrderedSet β) {xs ys : List β} (h : ys ⊆ xs) :
    (s.insertAll xs).insertAll ys = s.insertAll xs := by
  induction ys with
  | nil => rfl
  | cons y ys ih =>
      obtain ⟨hy, hys⟩ := List.cons_subset.1 h
      change ((s.insertAll xs).insert y).insertAll ys = s.insertAll xs
      rw [insert_insertAll_of_mem s hy, ih hys]

theorem insertAll_comm (s : OrderedSet β) (xs ys : List β) :
    (s.insertAll xs).insertAll ys = (s.insertAll ys).insertAll xs := by
  induction ys generalizing s with
  | nil => rfl
  | cons y ys ih =>
      change ((s.insertAll xs).insert y).insertAll ys = ((s.insert y).insertAll ys).insertAll xs
      rw [← insert_insertAll, ih]

/-- **The order in which elements are added and how often does not matter.** -/
theorem insertAll_congr (s : OrderedSet β) {xs ys : List β} (h : ∀ x, x ∈ xs ↔ x ∈ ys) :
    s.insertAll xs = s.insertAll ys :=
  calc s.insertAll xs
    _ = (s.insertAll xs).insertAll ys :=
      (insertAll_insertAll_of_subset s fun y hy => (h y).2 hy).symm
    _ = (s.insertAll ys).insertAll xs := insertAll_comm s xs ys
    _ = s.insertAll ys := insertAll_insertAll_of_subset s fun x hx => (h x).1 hx

end OrderedSet

variable {α : Type}

/-! ### Lines that read alike -/

/-- The letters that are read off a line beside those of the axes. -/
def readLetters : List Char := ['G', 'M', 'N', 'F', 'S', 'T'] ++ parameterLetters

/-- Two lines that read alike on a machine with the given axes: they have the same texts, the same
letters in whatever order, and the same sequence of values for each letter that is read. -/
structure Block.SameReading (axes : List Char) (b b' : Block α) : Prop where
  source : b'.source = b.source
  code : b'.code = b.code
  letters : ∀ letter, letter ∈ b'.letters ↔ letter ∈ b.letters
  values : ∀ letter ∈ readLetters ++ axes, b'.values letter = b.values letter

namespace Block.SameReading

variable {axes : List Char} {b b' : Block α}

/-- Lines that read alike have the same values of the letters that are always read. -/
theorem read (h : SameReading axes b b') (letter : Char) (hl : letter ∈ readLetters) :
    b'.values letter = b.values letter :=
  h.values letter (List.mem_append_left _ hl)

variable [Scalar α]

/-- Lines that read alike are counted alike. -/
theorem count (h : SameReading axes b b') (s : State α) : s.count b' = s.count b := by
  have hn := get?_of_values (h.read 'N' (by decide))
  have hflagged : b'.isFlagged = b.isFlagged := by rw [isFlagged, isFlagged, h.code]
  simp only [State.count, State.lineNumber?, hn, hflagged, h.source,
    OrderedSet.insertAll_congr s.catalogue.letters h.letters]

/-- The modal words of lines that read alike do the same. -/
theorem prepare (h : SameReading axes b b') (s : State α) : s.prepare b' = s.prepare b := by
  have hg := codes_of_values (h.read 'G' (by decide))
  have hp := get?_of_values (h.read 'P' (by decide))
  have hsubset : modalLetters ⊆ readLetters := by decide
  rw [State.prepare, h.count, State.prepare]
  refine State.applyModalWords_of_values (fun letter hl => h.read letter (hsubset hl)) ?_
  rw [hg, State.applyG_congr hp]

/-- Lines that read alike have the same orders. -/
theorem sameOrders {s : State α} (h : SameReading s.axes b b') : s.SameOrders b b' := by
  have hg := codes_of_values (h.read 'G' (by decide))
  refine ⟨by rw [hg], by rw [hg], by rw [hg], by rw [hg], fun letter hl => h.values letter ?_⟩
  rcases List.mem_append.1 hl with hl | hl
  · exact List.mem_append_left _ (List.mem_append_right _ hl)
  · exact List.mem_append_right _ hl

end Block.SameReading

namespace State

variable [Scalar α]

/-- **Lines that read alike do the same.** -/
theorem evaluate_of_sameReading (c : Config α) {s : State α} {b b' : Block α}
    (h : b.SameReading s.axes b') :
    (evaluate c s b').state = (evaluate c s b).state ∧
      (evaluate c s b').result = (evaluate c s b).result := by
  have hg := Block.codes_of_values (h.read 'G' (by decide))
  have hm := Block.codes_of_values (h.read 'M' (by decide))
  have horders : (s.prepare b).SameOrders b b' := (axes_prepare s b ▸ h).sameOrders
  have hmodal : modalChangesFrame b' = modalChangesFrame b := by
    rw [modalChangesFrame, hg, modalChangesFrame]
  obtain ⟨hstate, hresult⟩ := evaluate_of_sameOrders_of_lines (k := (s.prepare b).logbook) c
    (h.prepare s) rfl horders hmodal (by rw [hm]) rfl
  refine ⟨hstate.trans ?_, hresult⟩
  rw [logbook_prepare, ← logbook_evaluate c s b, withLogbook_logbook]

end State

/-! ### Reordered lines and foreign words -/

namespace Word

/-- Two lists of words that differ at most in the order of words with different letters. -/
def Reordered (ws ws' : List (Word α)) : Prop :=
  ∀ letter, ws'.filter (·.letter = letter) = ws.filter (·.letter = letter)

-- A letter that stands in neither list has no words in either.
instance [DecidableEq α] (ws ws' : List (Word α)) : Decidable (Reordered ws ws') :=
  decidable_of_iff
    (((ws ++ ws').map (·.letter)).all fun letter =>
      ws'.filter (·.letter = letter) = ws.filter (·.letter = letter)) <| by
    constructor
    · intro h letter
      by_cases hmem : letter ∈ (ws ++ ws').map (·.letter)
      · exact of_decide_eq_true (List.all_eq_true.1 h letter hmem)
      · have hnil : ∀ xs ⊆ ws ++ ws', xs.filter (·.letter = letter) = [] := by
          intro xs hxs
          refine List.filter_eq_nil_iff.2 fun w hw heq => hmem ?_
          exact List.mem_map.2 ⟨w, hxs hw, of_decide_eq_true heq⟩
        rw [hnil ws (List.subset_append_left ws ws'), hnil ws' (List.subset_append_right ws ws')]
    · intro h
      exact List.all_eq_true.2 fun letter _ => decide_eq_true (h letter)

/-- A word that stands in the place of another one on a machine with the given axes: it has the
same letter, and the same value too if the letter is read. -/
structure StandsFor (axes : List Char) (w w' : Word α) : Prop where
  letter : w'.letter = w.letter
  value : w.letter ∈ readLetters ++ axes.map Char.toUpper → w'.value = w.value

variable {axes : List Char} {ws ws' : List (Word α)}

theorem letters_of_standsFor (h : List.Forall₂ (StandsFor axes) ws ws') :
    ws'.map (·.letter) = ws.map (·.letter) := by
  induction h with
  | nil => rfl
  | cons hw _ ih => rw [List.map_cons, List.map_cons, hw.letter, ih]

theorem values_of_standsFor (h : List.Forall₂ (StandsFor axes) ws ws') {letter : Char}
    (hread : letter ∈ readLetters ++ axes.map Char.toUpper) :
    (ws'.filter (·.letter = letter)).map (·.value) =
      (ws.filter (·.letter = letter)).map (·.value) := by
  induction h with
  | nil => rfl
  | cons hw _ ih =>
      rw [List.filter_cons, List.filter_cons, hw.letter]
      split
      · next heq =>
          have hvalue := hw.value ((of_decide_eq_true heq).symm ▸ hread)
          rw [List.map_cons, List.map_cons, hvalue, ih]
      · exact ih

end Word

namespace Block

/-- Words of different letters may change places. -/
theorem sameReading_of_reordered {b : Block α} {ws : List (Word α)}
    (h : Word.Reordered b.words ws) (axes : List Char) :
    b.SameReading axes { b with words := ws } := by
  have hmem (ws : List (Word α)) (letter : Char) :
      letter ∈ ws.map (·.letter) ↔ ws.filter (·.letter = letter) ≠ [] := by
    simp [List.filter_eq_nil_iff]
  refine ⟨rfl, rfl, fun letter => ?_, fun letter _ => ?_⟩
  · exact (hmem ws letter).trans ((h letter).symm ▸ (hmem b.words letter).symm)
  · exact congrArg (List.map (·.value)) (h letter.toUpper)

/-- A letter that is read is looked up in upper case, and in upper case it counts as read too. -/
theorem toUpper_mem_read {axes : List Char} {letter : Char} (h : letter ∈ readLetters ++ axes) :
    letter.toUpper ∈ readLetters ++ axes.map Char.toUpper := by
  have hupper : readLetters.all (fun letter => letter.toUpper = letter) = true := by decide
  rcases List.mem_append.1 h with h | h
  · have heq : letter.toUpper = letter := by simpa using List.all_eq_true.1 hupper letter h
    exact List.mem_append_left _ (heq.symm ▸ h)
  · exact List.mem_append_right _ (List.mem_map_of_mem h)

/-- Words of letters that are not read may change their values. -/
theorem sameReading_of_standsFor {b : Block α} {ws : List (Word α)} {axes : List Char}
    (h : List.Forall₂ (Word.StandsFor axes) b.words ws) :
    b.SameReading axes { b with words := ws } := by
  refine ⟨rfl, rfl, fun letter => ?_, fun letter hletter => ?_⟩
  · exact iff_of_eq (congrArg (letter ∈ ·) (Word.letters_of_standsFor h))
  · exact Word.values_of_standsFor h (toUpper_mem_read hletter)

end Block

namespace State

variable [Scalar α]

/-- **The order of words does not matter, and words that are not read do not matter.** Two lines
with the same texts, the same set of letters, and the same sequence of values for each letter
that is read have the same result and lead to the same state. So words of different letters may
change places, and words whose letter is neither read nor an axis may change their values. -/
theorem word_order_irrelevant (c : Config α) (s : State α) (b : Block α) :
    (∀ b' : Block α, b.SameReading s.axes b' →
      (evaluate c s b').state = (evaluate c s b).state ∧
        (evaluate c s b').result = (evaluate c s b).result) ∧
    (∀ ws, Word.Reordered b.words ws →
      (evaluate c s { b with words := ws }).state = (evaluate c s b).state ∧
        (evaluate c s { b with words := ws }).result = (evaluate c s b).result) ∧
    (∀ ws, List.Forall₂ (Word.StandsFor s.axes) b.words ws →
      (evaluate c s { b with words := ws }).state = (evaluate c s b).state ∧
        (evaluate c s { b with words := ws }).result = (evaluate c s b).result) :=
  ⟨fun _ h => evaluate_of_sameReading c h,
    fun _ h => evaluate_of_sameReading c (Block.sameReading_of_reordered h s.axes),
    fun _ h => evaluate_of_sameReading c (Block.sameReading_of_standsFor h)⟩

/-- An arc with a second `X` word and with a word that means nothing to the machine. -/
def crowdedArc : Block Float :=
  .ofWords [⟨'G', 17⟩, ⟨'H', 3⟩, ⟨'G', 2⟩, ⟨'X', 10⟩, ⟨'I', 5⟩, ⟨'F', 100⟩, ⟨'X', 7⟩]

/-- The words of the line with the axis words first. -/
def crowdedArcReordered : List (Word Float) :=
  [⟨'X', 10⟩, ⟨'X', 7⟩, ⟨'F', 100⟩, ⟨'I', 5⟩, ⟨'G', 17⟩, ⟨'G', 2⟩, ⟨'H', 3⟩]

/-- The line with another value of the word that means nothing. -/
def crowdedArcForeign : List (Word Float) :=
  [⟨'G', 17⟩, ⟨'H', 8⟩, ⟨'G', 2⟩, ⟨'X', 10⟩, ⟨'I', 5⟩, ⟨'F', 100⟩, ⟨'X', 7⟩]

/-- The line with both changes, and with the meaningless word said twice. -/
def crowdedArcBoth : Block Float :=
  { crowdedArc with words :=
      [⟨'H', 8⟩, ⟨'X', 10⟩, ⟨'X', 7⟩, ⟨'F', 100⟩, ⟨'I', 5⟩, ⟨'G', 17⟩, ⟨'G', 2⟩, ⟨'H', 4⟩] }

/-- All of them are the same half circle to `X10`. -/
theorem word_order_irrelevant_crowdedArc :
    (evaluate .standard (start .standard) crowdedArc).state.work = [10, 0, 0] ∧
      crowdedArc.SameReading (start (.standard : Config Float)).axes crowdedArcBoth ∧
      Word.Reordered crowdedArc.words crowdedArcReordered ∧
      List.Forall₂ (Word.StandsFor (start (.standard : Config Float)).axes) crowdedArc.words
        crowdedArcForeign ∧
      (evaluate .standard (start .standard) crowdedArcBoth).result =
        (evaluate .standard (start .standard) crowdedArc).result ∧
      (evaluate .standard (start .standard)
        { crowdedArc with words := crowdedArcReordered }).result =
          (evaluate .standard (start .standard) crowdedArc).result ∧
      (evaluate .standard (start .standard) { crowdedArc with words := crowdedArcForeign }).state =
        (evaluate .standard (start .standard) crowdedArc).state := by
  obtain ⟨hreading, hreordered, hforeign⟩ :=
    word_order_irrelevant .standard (start .standard) crowdedArc
  have hvalues : (readLetters ++ (start (.standard : Config Float)).axes).all
      (fun letter => crowdedArcBoth.values letter = crowdedArc.values letter) = true := by
    decide +kernel
  have hletters : crowdedArcBoth.letters ⊆ crowdedArc.letters ∧
      crowdedArc.letters ⊆ crowdedArcBoth.letters := by decide
  have hsame : crowdedArc.SameReading (start (.standard : Config Float)).axes crowdedArcBoth :=
    ⟨rfl, rfl, fun _ => ⟨fun h => hletters.1 h, fun h => hletters.2 h⟩,
      fun letter hl => of_decide_eq_true (List.all_eq_true.1 hvalues letter hl)⟩
  have horder : Word.Reordered crowdedArc.words crowdedArcReordered := by decide +kernel
  have hstands : List.Forall₂ (Word.StandsFor (start (.standard : Config Float)).axes)
      crowdedArc.words crowdedArcForeign := by
    refine .cons ⟨rfl, fun _ => rfl⟩ (.cons ⟨rfl, fun hread => ?_⟩ ?_)
    · exact absurd hread (by decide)
    · exact List.forall₂_same.2 fun w _ => ⟨rfl, fun _ => rfl⟩
  exact ⟨by decide +kernel, hsame, horder, hstands, (hreading _ hsame).2, (hreordered _ horder).2,
    (hforeign _ hstands).1⟩

end State

end DryRun

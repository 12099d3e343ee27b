import DryRun.Proofs.Number.Laws
import DryRun.Proofs.Run

/-!
# What a program has used

The catalogue of a machine and the tool in its spindle are filled at five places of a line,
all of them before the line acts. This module says what they amount to in terms of the words of
the program alone (`State.Catalogued`): the sets are the sets of the letters, the tools and the
flagged texts, the counts are counts of words, the lists of feed rates and spindle speeds are
those of the values that the lines give, without repetitions. Where a letter occurs several
times on a line, all of its words count for letters, tools and tool changes, and only the first
one for feeds, speeds and line numbers.

Nothing that a line does afterwards touches them (`State.used_step`), be it an action, a motion,
one that is skipped, or the end of the program.

## Main results

* `State.used_evaluate`: the catalogue and the tool after a line, from those before it.
* `State.Catalogued.evaluate`: a line extends what is catalogued by its own words.
* `State.catalogue_exact`: the catalogue of a run is that of its program, and it depends on
  nothing else.
-/

namespace DryRun

/-! ### Ordered sets -/

namespace OrderedSet

variable {β : Type} [LT β]

/-- The members of a set are the values with a property. They are listed in increasing order,
so that there is only one such set. -/
structure IsSetOf (s : OrderedSet β) (P : β → Prop) : Prop where
  increasing : s.toList.Pairwise (· < ·)
  mem_iff : ∀ x, x ∈ s.toList ↔ P x

/-- The set without members. -/
theorem isSetOf_empty : (empty : OrderedSet β).IsSetOf fun _ => False :=
  ⟨.nil, fun x => by simp [empty]⟩

/-- The property may be put in other words. -/
theorem IsSetOf.congr {s : OrderedSet β} {P Q : β → Prop} (h : s.IsSetOf P)
    (hPQ : ∀ x, P x ↔ Q x) : s.IsSetOf Q :=
  ⟨h.increasing, fun x => (h.mem_iff x).trans (hPQ x)⟩

variable [DecidableEq β] [DecidableLT β]

/-- The members after an insertion. -/
theorem mem_insertSorted {x y : β} {ys : List β} :
    y ∈ insertSorted x ys ↔ y ∈ ys ∨ y = x := by
  induction ys with
  | nil => simp [insertSorted]
  | cons z zs ih =>
      rw [insertSorted]
      split
      · rw [List.mem_cons, or_comm]
      · split
        · next hxz =>
          rw [hxz, List.mem_cons]
          exact ⟨.inl, fun h => h.elim id .inl⟩
        · rw [List.mem_cons, ih, List.mem_cons, or_assoc]

variable [Std.Trichotomous (α := β) (· < ·)] [Trans (α := β) (· < ·) (· < ·) (· < ·)]

/-- An insertion keeps the order. -/
theorem pairwise_insertSorted (x : β) {ys : List β} (h : ys.Pairwise (· < ·)) :
    (insertSorted x ys).Pairwise (· < ·) := by
  induction ys with
  | nil => exact List.pairwise_singleton _ x
  | cons y ys ih =>
      obtain ⟨hy, hys⟩ := List.pairwise_cons.1 h
      rw [insertSorted]
      split
      · next hxy =>
        refine List.pairwise_cons.2 ⟨?_, h⟩
        intro z hz
        rcases List.mem_cons.1 hz with rfl | hz
        · exact hxy
        · exact Std.lt_trans hxy (hy z hz)
      · next hxy =>
        split
        · exact h
        · next hne =>
          have hyx : y < x := ((Std.lt_trichotomy x y).resolve_left hxy).resolve_left hne
          refine List.pairwise_cons.2 ⟨?_, ih hys⟩
          intro z hz
          rcases mem_insertSorted.1 hz with hz | rfl
          · exact hy z hz
          · exact hyx

/-- One more member. -/
theorem IsSetOf.insert {s : OrderedSet β} {P : β → Prop} (h : s.IsSetOf P) (x : β) :
    (s.insert x).IsSetOf fun y => P y ∨ y = x :=
  ⟨pairwise_insertSorted x h.increasing, fun y => by
    rw [OrderedSet.insert, mem_insertSorted, h.mem_iff]⟩

/-- Some more members. -/
theorem IsSetOf.insertAll {s : OrderedSet β} {P : β → Prop} (h : s.IsSetOf P) (xs : List β) :
    (s.insertAll xs).IsSetOf fun y => P y ∨ y ∈ xs := by
  induction xs generalizing s P with
  | nil => exact h.congr fun y => by simp
  | cons x xs ih => exact (ih (h.insert x)).congr fun y => by rw [List.mem_cons, or_assoc]

end OrderedSet

variable {α : Type} [Scalar α]

/-! ### Distinct values -/

/-- The last value of a list is kept if it equals none of those that are kept before it. -/
theorem eraseDups_concat (xs : List α) (x : α) :
    (xs ++ [x]).eraseDups =
      if xs.eraseDups.any (x == ·) then xs.eraseDups else xs.eraseDups ++ [x] := by
  have hloop (kept : List α) : List.eraseDupsBy.loop (· == ·) (xs ++ [x]) kept =
      if (List.eraseDupsBy.loop (· == ·) xs kept).any (x == ·)
      then List.eraseDupsBy.loop (· == ·) xs kept
      else List.eraseDupsBy.loop (· == ·) xs kept ++ [x] := by
    induction xs generalizing kept with
    | nil =>
        rw [List.nil_append, List.eraseDupsBy.loop, List.eraseDupsBy.loop, List.any_reverse]
        cases kept.any (x == ·) with
        | true => rfl
        | false => exact List.reverse_cons
    | cons y ys ih =>
        rw [List.cons_append, List.eraseDupsBy.loop, List.eraseDupsBy.loop]
        cases kept.any (y == ·) with
        | true => exact ih kept
        | false => exact ih (y :: kept)
  exact hloop []

namespace DistinctValues

/-- The values that were listed one after the other. -/
def insertAll (d : DistinctValues α) (xs : List α) : DistinctValues α := xs.foldl insert d

/-- **Numbers are listed once each, where they first occur.** -/
theorem values_insert [Scalar.ListedNumbers α] {d : DistinctValues α} {xs : List α}
    (h : d.values = xs.eraseDups) {x : α} (hx : Scalar.isNaN x = false) :
    (d.insert x).values = (xs ++ [x]).eraseDups := by
  have hsame : d.values.any (Scalar.same · x) = xs.eraseDups.any (x == ·) := by
    rw [h]
    congr 1
    funext y
    exact Scalar.ListedNumbers.same_eq hx
  rw [insert, isNew, hsame, eraseDups_concat]
  cases xs.eraseDups.any (x == ·) with
  | true => exact h
  | false => exact congrArg (· ++ [x]) h

end DistinctValues

/-! ### The words that count -/

/-- The number of the tool that a value names: the nearest one that 32 bits hold, a half going
away from zero. -/
def toolNumberOf (value : α) : Nat := (Scalar.roundBetween 0 0xFFFFFFFF value).toNat

/-- The line number that a value names: its integer part, if 64 bits hold it. -/
def lineNumberOf (value : α) : Nat := (Scalar.truncBetween 0 0xFFFFFFFFFFFFFFFF value).toNat

/-- The values of the `T` words of a line that are not negative. -/
def Block.toolWords (b : Block α) : List α := (b.values 'T').filter fun value => ¬ value < 0

/-- The value of the first word with a letter, if it is not negative. -/
def Block.first? (b : Block α) (letter : Char) : Option α := (b.get? letter).filter (0 ≤ ·)

/-- The tools of a line are those of its `T` words that are not negative. -/
theorem Block.filterMap_toolOf? (b : Block α) :
    (b.values 'T').filterMap State.toolOf? = b.toolWords.map toolNumberOf := by
  rw [toolWords]
  induction b.values 'T' with
  | nil => rfl
  | cons value values ih =>
      by_cases h : value < 0
      · have hnone : State.toolOf? value = none := if_pos h
        rw [List.filterMap_cons_none hnone, ih, List.filter_cons_of_neg (by simpa using h)]
      · have hsome : State.toolOf? value = some (toolNumberOf value) := if_neg h
        rw [List.filterMap_cons_some hsome, ih, List.filter_cons_of_pos (by simpa using h),
          List.map_cons]

/-- The catalogue with a line added to it. -/
def Catalogue.add (k : Catalogue α) (b : Block α) : Catalogue α where
  lines := k.lines + 1
  lineNumber := ((b.first? 'N').map lineNumberOf).or k.lineNumber
  letters := k.letters.insertAll b.letters
  feedRates := k.feedRates.insertAll (b.first? 'F').toList
  spindleSpeeds := k.spindleSpeeds.insertAll (b.first? 'S').toList
  tools := k.tools.insertAll (b.toolWords.map toolNumberOf)
  flagged := if b.isFlagged then k.flagged.insert b.source else k.flagged
  toolSelects := k.toolSelects + b.toolWords.length
  toolChanges := k.toolChanges + (b.codes 'M').count 60

/-- The tool after a line: the last one that it selects. -/
def Block.toolAfter (b : Block α) (tool : Option Nat) : Option Nat :=
  ((b.toolWords.map toolNumberOf).getLast?).or tool

namespace State

/-- What a machine knows of the program that it has run: the catalogue and the tool. -/
def used (s : State α) : Catalogue α × Option Nat := (s.catalogue, s.settings.tool)

/-! ### Modal words -/

/-- Modal commands catalogue nothing. -/
theorem used_applyG (b : Block α) (s : State α) (code : Int) : (s.applyG b code).used = s.used := by
  rw [applyG]
  cases ModalCommand.ofCode? code with
  | none => rfl
  | some command =>
      cases command with
      | system index =>
          obtain ⟨frame, work, h⟩ := selectSystem_eq s index
          change (s.selectSystem index).used = s.used
          rw [h]
          rfl
      | dwell =>
          change (s.dwell b).used = s.used
          rw [dwell]
          split <;> rfl
      | feedMode _ | plane _ | units _ | cancelMotion | distanceMode _ => rfl

/-- The `G` codes of a line catalogue nothing. -/
theorem used_foldl_applyG (b : Block α) (codes : List Int) (s : State α) :
    (codes.foldl (applyG b) s).used = s.used := by
  induction codes generalizing s with
  | nil => rfl
  | cons code codes ih => rw [List.foldl_cons, ih, used_applyG]

/-- A feed is listed. -/
theorem used_applyFeed (s : State α) (b : Block α) :
    (s.applyFeed b).used = ({ s.used.1 with
      feedRates := s.used.1.feedRates.insertAll (b.first? 'F').toList }, s.used.2) := by
  rw [applyFeed, ← Block.first?]
  cases b.first? 'F' <;> rfl

/-- A spindle speed is listed. -/
theorem used_applySpeed (s : State α) (b : Block α) :
    (s.applySpeed b).used = ({ s.used.1 with
      spindleSpeeds := s.used.1.spindleSpeeds.insertAll (b.first? 'S').toList }, s.used.2) := by
  rw [applySpeed, ← Block.first?]
  cases b.first? 'S' <;> rfl

omit [Scalar α] in
/-- Tools are listed and counted, and the last one stays selected. -/
theorem used_foldl_selectTool (tools : List Nat) (s : State α) :
    (tools.foldl selectTool s).used = ({ s.used.1 with
      tools := s.used.1.tools.insertAll tools
      toolSelects := s.used.1.toolSelects + tools.length },
      tools.getLast?.or s.used.2) := by
  induction tools generalizing s with
  | nil => rfl
  | cons tool tools ih =>
      have hcount : s.used.1.toolSelects + 1 + tools.length =
          s.used.1.toolSelects + (tools.length + 1) := by omega
      have hlast : tools.getLast?.or (some tool) = (tool :: tools).getLast?.or s.used.2 := by
        rw [List.getLast?_cons]
        cases tools.getLast? <;> rfl
      rw [List.foldl_cons, ih, ← hlast, List.length_cons, ← hcount]
      rfl

/-- Only the code of a tool change is read as one. -/
theorem ofCode?_eq_toolChange {code : Int} :
    SwitchCommand.ofCode? code = some .toolChange ↔ code = 60 :=
  lookup_eq_some_iff_eq (by decide) rfl

omit [Scalar α] in
/-- The `M` codes of a line count as far as they are tool changes. -/
theorem used_foldl_applyM (codes : List Int) (s : State α) :
    (codes.foldl applyM s).used = ({ s.used.1 with
      toolChanges := s.used.1.toolChanges + codes.count 60 }, s.used.2) := by
  induction codes generalizing s with
  | nil => rfl
  | cons code codes ih =>
      rw [List.foldl_cons, ih, applyM]
      by_cases hcode : code = 60
      · have hcount : s.used.1.toolChanges + 1 + codes.count 60 =
            s.used.1.toolChanges + (codes.count 60 + 1) := by omega
        rw [ofCode?_eq_toolChange.2 hcode, hcode, List.count_cons_self, ← hcount]
        rfl
      · rw [List.count_cons_of_ne hcode]
        cases hc : SwitchCommand.ofCode? code with
        | none => rfl
        | some command =>
            cases command with
            | toolChange => exact absurd (ofCode?_eq_toolChange.1 hc) hcode
            | spindleOn _ | spindleOff | coolantOn _ | coolantOff => rfl

/-- The modal words of a line catalogue it. -/
theorem used_prepare (s : State α) (b : Block α) :
    (s.prepare b).used = (s.catalogue.add b, b.toolAfter s.settings.tool) := by
  rw [prepare, applyModalWords, used_foldl_applyM, applyTools, Block.filterMap_toolOf?,
    used_foldl_selectTool, used_applySpeed, used_applyFeed, used_foldl_applyG, List.length_map]
  rfl

/-! ### Actions, motions and the end of a line -/

/-- **Whatever a prepared line does, it catalogues nothing.** -/
theorem used_step (c : Config α) (s : State α) (b : Block α) :
    (s.step c b).state.used = s.used := by
  have hstep := step_stepped c s b
  generalize s.step c b = o at hstep
  cases hstep with
  | action a notes ha =>
      obtain ⟨work, machine, frame, home, secondaryHome, hact⟩ := act_eq s b a
      rw [idle, hact]
      rfl
  | motion m p ha hm hp =>
      obtain ⟨moves, hmoves, -, -⟩ := hp
      obtain ⟨work, machine, totalTime, axisFeeds, envelope, hstate⟩ := hmoves.state_eq
      simp only [hstate]
      rfl
  | skipped code notes ha hm => rfl
  | nothing notes ha hm => rfl

/-- The end of a program keeps the catalogue and the tool. -/
theorem used_finish (s : State α) (b : Block α) : (s.finish b).used = s.used := by
  rw [finish]
  split <;> rfl

/-- **The catalogue and the tool after a line.** -/
theorem used_evaluate (c : Config α) (s : State α) (b : Block α) :
    (evaluate c s b).state.used = (s.catalogue.add b, b.toolAfter s.settings.tool) :=
  calc (evaluate c s b).state.used
    _ = ((s.prepare b).step c b).state.used := used_finish _ b
    _ = (s.prepare b).used := used_step c _ b
    _ = (s.catalogue.add b, b.toolAfter s.settings.tool) := used_prepare s b

/-! ### Runs -/

/-- **What the catalogue and the tool amount to** after a program, given the tool at its start.
All words of a letter count for the letters, the tools and the tool changes, and the first one of
each line for the feed rates, the spindle speeds and the line number. -/
structure Catalogued (start : Option Nat) (bs : List (Block α)) (s : State α) : Prop where
  lines : s.catalogue.lines = bs.length
  letters : s.catalogue.letters.IsSetOf fun letter => ∃ b ∈ bs, ∃ w ∈ b.words, w.letter = letter
  flagged : s.catalogue.flagged.IsSetOf fun text => ∃ b ∈ bs, b.isFlagged ∧ b.source = text
  toolSelects : s.catalogue.toolSelects = (bs.flatMap Block.toolWords).length
  tools : s.catalogue.tools.IsSetOf fun tool =>
    ∃ value ∈ bs.flatMap Block.toolWords, toolNumberOf value = tool
  tool : s.settings.tool = ((bs.flatMap Block.toolWords).getLast?.map toolNumberOf).or start
  toolChanges : s.catalogue.toolChanges = (bs.flatMap (·.codes 'M')).count 60
  feedRates : s.catalogue.feedRates.values = (bs.filterMap (·.first? 'F')).eraseDups
  spindleSpeeds : s.catalogue.spindleSpeeds.values = (bs.filterMap (·.first? 'S')).eraseDups
  lineNumber : s.catalogue.lineNumber = (bs.filterMap (·.first? 'N')).getLast?.map lineNumberOf

/-- A machine that has run nothing. -/
theorem catalogued_start (c : Config α) :
    (start c).Catalogued (start c).settings.tool [] where
  lines := rfl
  letters := OrderedSet.isSetOf_empty.congr (by simp)
  flagged := OrderedSet.isSetOf_empty.congr (by simp)
  toolSelects := rfl
  tools := OrderedSet.isSetOf_empty.congr (by simp)
  tool := rfl
  toolChanges := rfl
  feedRates := rfl
  spindleSpeeds := rfl
  lineNumber := rfl

/-- The first value of a letter is listed after those of the lines before. -/
theorem values_insertAll_first? [Scalar.ListedNumbers α] {d : DistinctValues α} {letter : Char}
    {bs : List (Block α)} (h : d.values = (bs.filterMap (·.first? letter)).eraseDups)
    (b : Block α) : (d.insertAll (b.first? letter).toList).values =
      ((bs ++ [b]).filterMap (·.first? letter)).eraseDups := by
  rw [List.filterMap_append]
  cases hfirst : b.first? letter with
  | none =>
      have hlist : [b].filterMap (·.first? letter) = [] := by simp [hfirst]
      rw [hlist, List.append_nil]
      exact h
  | some value =>
      have hvalue : 0 ≤ value := by simpa using (Option.filter_eq_some_iff.1 hfirst).2
      have hlist : [b].filterMap (·.first? letter) = [value] := by simp [hfirst]
      rw [hlist]
      exact DistinctValues.values_insert h (Scalar.ListedNumbers.isNaN_of_nonneg hvalue)

/-- **A line extends what is catalogued by its own words.** -/
theorem Catalogued.evaluate [Scalar.ListedNumbers α] {start : Option Nat} {bs : List (Block α)}
    {s : State α} (h : s.Catalogued start bs) (c : Config α) (b : Block α) :
    (evaluate c s b).state.Catalogued start (bs ++ [b]) := by
  have hused := used_evaluate c s b
  have hcatalogue : (DryRun.evaluate c s b).state.catalogue = s.catalogue.add b :=
    congrArg Prod.fst hused
  have htool : (DryRun.evaluate c s b).state.settings.tool = b.toolAfter s.settings.tool :=
    congrArg Prod.snd hused
  have hwords : (bs ++ [b]).flatMap Block.toolWords =
      bs.flatMap Block.toolWords ++ b.toolWords := by
    simp
  constructor
  · rw [hcatalogue, List.length_append, ← h.lines]
    rfl
  · rw [hcatalogue]
    refine (h.letters.insertAll b.letters).congr fun letter => ?_
    simp [Block.letters, or_and_right, exists_or]
  · rw [hcatalogue]
    change (if b.isFlagged then s.catalogue.flagged.insert b.source
      else s.catalogue.flagged).IsSetOf _
    split
    · next hflagged =>
      refine (h.flagged.insert b.source).congr fun text => ?_
      simp only [List.mem_append, List.mem_singleton, or_and_right, exists_or, exists_eq_left,
        hflagged, true_and]
      exact or_congr_right eq_comm
    · next hflagged =>
      refine h.flagged.congr fun text => ?_
      simp [or_and_right, exists_or, hflagged]
  · rw [hcatalogue, hwords, List.length_append, ← h.toolSelects]
    rfl
  · rw [hcatalogue, hwords]
    refine (h.tools.insertAll _).congr fun tool => ?_
    simp only [List.mem_append, List.mem_map, or_and_right, exists_or]
  · rw [htool, hwords, h.tool, Block.toolAfter, List.getLast?_append, List.getLast?_map]
    cases b.toolWords.getLast? <;> rfl
  · rw [hcatalogue, List.flatMap_append, List.count_append, ← h.toolChanges, List.flatMap_singleton]
    rfl
  · rw [hcatalogue]
    exact values_insertAll_first? h.feedRates b
  · rw [hcatalogue]
    exact values_insertAll_first? h.spindleSpeeds b
  · rw [hcatalogue, List.filterMap_append, List.getLast?_append]
    change ((b.first? 'N').map lineNumberOf).or s.catalogue.lineNumber = _
    rw [h.lineNumber]
    cases hfirst : b.first? 'N' with
    | none => simp [hfirst]
    | some value => simp [hfirst]

/-- A program extends what is catalogued by the words of its lines. -/
theorem Catalogued.run [Scalar.ListedNumbers α] {start : Option Nat} {bs : List (Block α)}
    {s : State α} (h : s.Catalogued start bs) (c : Config α) (bs' : List (Block α)) :
    (s.run c bs').Catalogued start (bs ++ bs') := by
  induction bs' generalizing s bs with
  | nil => rwa [List.append_nil]
  | cons b bs' ih =>
      have hrun := ih (h.evaluate c b)
      rwa [List.append_assoc] at hrun

/-- What is used by a program does not depend on the machine that runs it. -/
theorem used_run_congr (c c' : Config α) {s s' : State α} (h : s'.used = s.used)
    (bs : List (Block α)) : (s'.run c' bs).used = (s.run c bs).used := by
  induction bs generalizing s s' with
  | nil => exact h
  | cons b bs ih =>
      refine ih ?_
      obtain ⟨hcatalogue, htool⟩ := Prod.mk.inj h
      rw [used_evaluate, used_evaluate, hcatalogue, htool]

/-- **Catalogues and counters are exact, whatever the motion does.** After every run from an
accepted configuration the catalogue and the tool are what the words of its lines amount to; and
two machines with the same catalogue and the same tool have the same ones after every program,
however much their configurations, axes, settings and positions differ. -/
theorem catalogue_exact [Scalar.ListedNumbers α] :
    (∀ c : Config α, c.validate = .ok () → ∃ s₀, start? c = .ok s₀ ∧
      ∀ bs : List (Block α), (s₀.run c bs).Catalogued s₀.settings.tool bs) ∧
    (∀ (c c' : Config α) (s s' : State α), s'.catalogue = s.catalogue →
      s'.settings.tool = s.settings.tool → ∀ bs : List (Block α),
        (s'.run c' bs).catalogue = (s.run c bs).catalogue ∧
        (s'.run c' bs).settings.tool = (s.run c bs).settings.tool) := by
  constructor
  · intro c hc
    exact ⟨start c, start?_of_validate hc, (catalogued_start c).run c⟩
  · intro c c' s s' hcatalogue htool bs
    have hused : s'.used = s.used := by rw [used, used, hcatalogue, htool]
    exact Prod.mk.inj (used_run_congr c c' hused bs)

/-- A program that selects tools and feeds several times, also on a line whose motion is not
supported and on one that ends the program. -/
def surveyedProgram : List (Block Float) :=
  [.ofWords [⟨'N', 7.9⟩, ⟨'T', 1.5⟩, ⟨'T', -1⟩, ⟨'F', 0⟩, ⟨'M', 6⟩],
    .ofWords [⟨'G', 38.2⟩, ⟨'X', 1⟩, ⟨'F', -0.0⟩, ⟨'T', 4⟩],
    .ofWords [⟨'F', 100⟩, ⟨'F', 3⟩, ⟨'N', -1⟩, ⟨'N', 9⟩, ⟨'M', 30⟩]]

/-- A machine with other axes and another start. -/
def turningMachine : Config Float :=
  { Config.standard with
    axes := ['X', 'C']
    maxFeed := .uniform 1
    start := some
      { StartState.empty with inverseFeed := some true, motion := some (.unsupported 330) } }

/-- The two zeros are one feed rate, a negative line number does not count, and a machine with
other axes catalogues the same. -/
theorem catalogue_exact_surveyedProgram :
    (Config.standard : Config Float).validate = .ok () ∧ ∃ s₀ : State Float,
      start? .standard = .ok s₀ ∧
      (s₀.run .standard surveyedProgram).Catalogued none surveyedProgram ∧
      (s₀.run .standard surveyedProgram).catalogue.feedRates.values = [0, 100] ∧
      (s₀.run .standard surveyedProgram).settings.tool = some 4 ∧
      (s₀.run .standard surveyedProgram).catalogue.lineNumber = some 7 ∧
      ((start turningMachine).run turningMachine surveyedProgram).catalogue =
        (s₀.run .standard surveyedProgram).catalogue := by
  have hc : (Config.standard : Config Float).validate = .ok () :=
    Config.validate_eq_ok.2 (by decide +kernel)
  obtain ⟨hexact, hcongr⟩ := catalogue_exact (α := Float)
  obtain ⟨s₀, hstart, hrun⟩ := hexact .standard hc
  obtain rfl : start .standard = s₀ :=
    Except.ok.inj ((start?_of_validate hc).symm.trans hstart)
  have h := hrun surveyedProgram
  refine ⟨hc, _, hstart, h, ?_, ?_, ?_, ?_⟩
  · exact h.feedRates.trans (by decide +kernel)
  · exact h.tool.trans (by decide +kernel)
  · exact h.lineNumber.trans (by decide +kernel)
  · exact (hcongr .standard turningMachine (start .standard) (start turningMachine) rfl rfl
      surveyedProgram).1

end State

end DryRun

import DryRun.Proofs.Lockstep

/-!
# What a run only records

No command of a line depends on how long the run has taken, on the axis feeds that the last move
ended with, or on the texts of flagged lines. These are the **records** of a state
(`State.records`). A wait adds to the time, the end of a program clears the feeds, counting a line
keeps its text, and moves are timed; nothing else touches them.

So two machines that differ in their records only are in lockstep as soon as counting and moving
keep the difference within bounds. What the bounds are is a relation between records, and it is
fixed by those who compare two machines.

## Main results

* `State.UpToRecords.applyModal`, `State.UpToRecords.act`: commands keep states the same but for
  their records.
* `State.upToRecords_lockstep`: machines that differ in their records stay in lockstep on lines
  with the same words.
-/

namespace DryRun

variable {α : Type}

/-! ### Lines with the same words -/

/-- Lines with the same words give the same commands. -/
theorem Block.parallel_of_words {b b' : Block α} (h : b'.words = b.words) : b.Parallel b' where
  letters := by rw [letters, letters, h]
  values letter _ := by rw [values, values, h]

namespace State

variable [Scalar α] {b b' : Block α}

/-- The targets of a line are read off its words. -/
theorem blockTargets_of_words (h : b'.words = b.words) (s : State α) :
    s.blockTargets b' = s.blockTargets b := by
  obtain ⟨source, code, words⟩ := b
  obtain ⟨source', code', words'⟩ := b'
  obtain rfl : words' = words := h
  rfl

/-- An action reads the words of its line and nothing else. -/
theorem act_of_words (h : b'.words = b.words) (s : State α) (a : Action) :
    s.act b' a = s.act b a := by
  obtain ⟨source, code, words⟩ := b
  obtain ⟨source', code', words'⟩ := b'
  obtain rfl : words' = words := h
  cases a <;> rfl

end State

/-! ### Records -/

/-- What no command reads of a state. -/
structure Records (α : Type) where
  totalTime : α
  axisFeeds : Option (List α)
  flagged : OrderedSet String

/-- A relation between records that survives a wait and the end of a program. -/
structure Records.Steady [Scalar α] (R : Records α → Records α → Prop) : Prop where
  wait : ∀ {r r'} (seconds : α), R r r' →
    R { r with totalTime := r.totalTime + seconds } { r' with totalTime := r'.totalTime + seconds }
  rest : ∀ {r r'}, R r r' → R { r with axisFeeds := none } { r' with axisFeeds := none }

namespace State

/-- The records of a state. -/
def records (s : State α) : Records α := ⟨s.totalTime, s.axisFeeds, s.catalogue.flagged⟩

/-- A state with other records. -/
def setRecords (s : State α) (r : Records α) : State α :=
  { s with
    totalTime := r.totalTime
    axisFeeds := r.axisFeeds
    catalogue := { s.catalogue with flagged := r.flagged } }

/-- Two states that are the same but for their records, which are related. -/
def UpToRecords (R : Records α → Records α → Prop) (s s' : State α) : Prop :=
  ∃ r, R s.records r ∧ s' = s.setRecords r

variable [Scalar α] {R : Records α → Records α → Prop} {s s' : State α}

/-! ### Commands -/

/-- Selecting a work coordinate system keeps the records. -/
theorem records_selectSystem (s : State α) (index : Nat) :
    (s.selectSystem index).records = s.records := by
  rw [selectSystem]
  split <;> rfl

/-- Selecting a work coordinate system does not read records. -/
theorem selectSystem_setRecords (s : State α) (r : Records α) (index : Nat) :
    (s.setRecords r).selectSystem index = (s.selectSystem index).setRecords r := by
  rw [selectSystem, selectSystem, apply_ite (setRecords · r)]
  rfl

/-- Setting offsets keeps the records. -/
theorem records_setOffsets (s : State α) (fromPosition : Bool) (index : Nat)
    (words : List (Option α)) :
    (s.setOffsets fromPosition index words).records = s.records := by
  simp only [setOffsets]
  split <;> rfl

/-- Setting offsets does not read records. -/
theorem setOffsets_setRecords (s : State α) (r : Records α) (fromPosition : Bool) (index : Nat)
    (words : List (Option α)) :
    (s.setRecords r).setOffsets fromPosition index words =
      (s.setOffsets fromPosition index words).setRecords r := by
  rw [setOffsets, setOffsets, apply_ite (setRecords · r)]
  rfl

/-- A modal command reads records only to add a wait to the time. -/
theorem UpToRecords.applyModal (hR : Records.Steady R) (h : s.UpToRecords R s') (b : Block α)
    (command : ModalCommand) :
    (s.applyModal b command).UpToRecords R (s'.applyModal b command) := by
  cases command with
  | system index =>
      obtain ⟨r, hr, rfl⟩ := h
      exact ⟨r, (records_selectSystem s index).symm ▸ hr, selectSystem_setRecords s r index⟩
  | dwell =>
      obtain ⟨r, hr, rfl⟩ := h
      simp only [State.applyModal, dwell]
      split
      · next seconds _ => exact ⟨_, hR.wait seconds hr, rfl⟩
      · exact ⟨r, hr, rfl⟩
  | feedMode _ | plane _ | units _ | cancelMotion | distanceMode _ =>
      obtain ⟨r, hr, rfl⟩ := h
      exact ⟨r, hr, rfl⟩

/-- An action does not read records. -/
theorem UpToRecords.act (h : s.UpToRecords R s') (b : Block α) (a : Action) :
    (s.act b a).UpToRecords R (s'.act b a) := by
  obtain ⟨r, hr, rfl⟩ := h
  cases a with
  | setSystem =>
      have hsystem : (s.setRecords r).offsetSystem? b = s.offsetSystem? b := rfl
      simp only [State.act, setSystem, hsystem]
      cases s.offsetSystem? b with
      | none => exact ⟨r, hr, rfl⟩
      | some index =>
          exact ⟨r, (records_setOffsets s _ index _).symm ▸ hr, setOffsets_setRecords s r _ index _⟩
  | origin command => cases command <;> exact ⟨r, hr, rfl⟩
  | storeHome | storeSecondaryHome | homeAxes => exact ⟨r, hr, rfl⟩

/-! ### Lockstep -/

/-- **Records do not show in what a machine does**: machines that differ in their records stay in
lockstep on lines with the same words, if counting the lines and making a move keep their records
related. -/
theorem upToRecords_lockstep {c c' : Config α} {view : Event α → Event α} {b b' : Block α}
    (hR : Records.Steady R) (hwords : b'.words = b.words)
    (hcount : ∀ {s s' : State α}, s.UpToRecords R s' →
      (s.count b).UpToRecords R (s'.count b'))
    (hperform : ∀ {s s' : State α} (motion : Motion) (targets : List (Option α))
      (feed : Option α) {travel travel' : Option α} (g : Geometry α), s.UpToRecords R s' →
      (c'.arcLengthTravel = c.arcLengthTravel → travel' = travel) →
      (s.perform c motion targets feed travel g).1.UpToRecords R
          (s'.perform c' motion targets feed travel' g).1 ∧
        view (s'.perform c' motion targets feed travel' g).2 =
          view (s.perform c motion targets feed travel g).2) :
    Lockstep c c' (UpToRecords R) view id b b' where
  parallel := Block.parallel_of_words hwords
  sight := by
    rintro s s' ⟨r, hr, rfl⟩
    exact ⟨rfl, rfl, rfl, rfl, rfl, rfl⟩
  count := hcount
  modal _ _ hs := hs.applyModal hR b _
  feed := by
    rintro s s' ⟨r, hr, rfl⟩
    simp only [applyFeed]
    split <;> exact ⟨r, hr, rfl⟩
  speed := by
    rintro s s' ⟨r, hr, rfl⟩
    simp only [applySpeed]
    split <;> exact ⟨r, hr, rfl⟩
  tool := by
    rintro s s' tool ⟨r, hr, rfl⟩
    exact ⟨r, hr, rfl⟩
  switch := by
    rintro s s' command ⟨r, hr, rfl⟩
    cases command <;> exact ⟨r, hr, rfl⟩
  select := by
    rintro s s' ⟨r, hr, rfl⟩
    exact ⟨r, hr, rfl⟩
  act := by
    intro s s' a _ hs
    rw [act_of_words hwords]
    exact hs.act b a
  centre := by
    rintro s s' ⟨r, hr, rfl⟩ position clockwise plane
    rfl
  perform := by
    rintro s s' motion targets feed travel travel' g g' hs htravel hg
    obtain rfl : g' = g := hg
    exact hperform motion targets feed g' hs htravel
  returns := by
    rintro s s' m ⟨r, hr, rfl⟩ -
    rfl
  finish := by
    rintro s s' ⟨r, hr, rfl⟩
    have hcodes : b'.codes 'M' = b.codes 'M' :=
      (Block.parallel_of_words hwords).codes (by decide)
    simp only [finish, hcodes]
    split
    · exact ⟨_, hR.rest hr, rfl⟩
    · exact ⟨r, hr, rfl⟩

end State

end DryRun

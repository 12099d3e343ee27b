import DryRun.Proofs.Announcement
import DryRun.Proofs.Lockstep

/-!
# The orders of a line

Of a line its modal words are read first: they are given by the `G` codes and by the values of
four other letters (`State.applyModalWords_of_values`).

After its modal words a line acts or moves. Of the line itself this needs little: which action and
which motion it asks for, whether its axis words are machine coordinates, and the values of the
axes and of six other letters. Two lines that agree on this have the same **orders**
(`State.SameOrders`), and a machine carries them out alike, whatever else stands on them.

Of the machine it needs everything but its **logbook** (`Logbook`): the count of the lines, the
letters that were seen and the texts of flagged lines. The logbook is written when a line is
counted. From then on it is only read for the number that an event bears, and for what is noted,
so that a machine with another logbook does the same under another number.

What is noted is no part of this: it may name the number of a line and its text.

## Main results

* `State.SameOrders.step_withLogbook`: lines with the same orders are carried out alike, whatever
  the logbook.
* `State.evaluate_of_sameOrders`: so whole lines differ in nothing but the number of their events,
  once their modal words did the same.
-/

namespace DryRun

variable {α : Type}

/-! ### The values of a letter -/

namespace Block

/-- A letter occurs if it has a first value. -/
theorem has_eq_isSome_get? (b : Block α) (letter : Char) :
    b.has letter = (b.get? letter).isSome := by
  rw [Bool.eq_iff_iff]
  simp [Block.get?, Block.has]

section Values

variable {b b' : Block α} {letter letter' : Char} (h : b'.values letter' = b.values letter)

include h

/-- The first value of a letter is told from all its values. -/
theorem get?_of_values : b'.get? letter' = b.get? letter := by
  rw [get?_eq_head?, get?_eq_head?, h]

/-- Whether a letter occurs is told from its values. -/
theorem has_of_values : b'.has letter' = b.has letter := by
  rw [has_eq_isSome_get?, has_eq_isSome_get?, get?_of_values h]

/-- The codes of a letter are told from its values. -/
theorem codes_of_values [Scalar α] : b'.codes letter' = b.codes letter := by
  rw [codes, codes, h]

end Values

end Block

/-- Lines with the same values of all axes have the same axis words. -/
theorem axisWords_of_values [Scalar α] {axes : List Char} {b b' : Block α}
    (h : ∀ axis ∈ axes, b'.values axis = b.values axis) : axisWords axes b' = axisWords axes b :=
  List.map_congr_left fun axis haxis => Block.get?_of_values (h axis haxis)

/-! ### Codes that play no part

A code that means nothing to a reader of codes may be left out. -/

/-- Whether one of several codes selects another work frame. -/
def codesChangeFrame (codes : List Int) : Bool :=
  codes.any fun code => (ModalCommand.ofCode? code).any ModalCommand.changesFrame

/-- Whether modal words change the frame is told from the `G` codes. -/
theorem modalChangesFrame_eq [Scalar α] (b : Block α) :
    modalChangesFrame b = codesChangeFrame (b.codes 'G') := rfl

section Codes

variable {p : Int → Bool} (codes : List Int)

/-- A code that is kept is found among the codes that are kept. -/
theorem contains_filter_of_pos {code : Int} (h : p code = true) :
    (codes.filter p).contains code = codes.contains code := by
  rw [Bool.eq_iff_iff, List.contains_iff_mem, List.contains_iff_mem, List.mem_filter, h]
  exact and_iff_left rfl

/-- Nothing is missed by leaving out codes that mean nothing. -/
theorem findSome?_filter_of_neg {β : Type} {f : Int → Option β}
    (h : ∀ code, p code = false → f code = none) :
    (codes.filter p).findSome? f = codes.findSome? f := by
  have hf : (fun code => if p code = true then f code else none) = f := by
    funext code
    split
    · rfl
    · next hp => exact (h code (Bool.not_eq_true _ ▸ hp)).symm
  rw [← List.head?_filterMap, List.filterMap_filter, hf, List.head?_filterMap]

/-- The action of a line is read off the codes of actions. -/
theorem Action.ofCodes?_filter (h : ∀ code ∈ actionCodes, p code = true) :
    Action.ofCodes? (codes.filter p) = Action.ofCodes? codes := by
  have hcontains (code : Int) (hcode : code ∈ actionCodes) :
      (codes.filter p).contains code = codes.contains code :=
    contains_filter_of_pos codes (h code hcode)
  have horigin : (codes.filter p).findSome? OriginCommand.ofCode? =
      codes.findSome? OriginCommand.ofCode? := by
    refine findSome?_filter_of_neg codes fun code hcode => ?_
    refine OriginCommand.ofCode?_eq_none_iff.2 fun hmem => ?_
    exact absurd (h code (List.mem_append_right _ hmem)) (Bool.eq_false_iff.1 hcode)
  rw [Action.ofCodes?, hcontains 100 (by decide), hcontains 281 (by decide),
    hcontains 301 (by decide), hcontains 282 (by decide), hcontains 283 (by decide), horigin,
    Action.ofCodes?]

/-- A return to a reference position is read off two codes. -/
theorem returnMotion?_filter (hhome : p 280 = true) (hsecondary : p 300 = true) :
    returnMotion? (codes.filter p) = returnMotion? codes := by
  rw [returnMotion?, contains_filter_of_pos codes hhome, contains_filter_of_pos codes hsecondary,
    returnMotion?]

/-- Codes that are not modal may be left out of the modal words. -/
theorem State.foldl_applyG_filter [Scalar α]
    (h : ∀ code, p code = false → ModalCommand.ofCode? code = none) (b : Block α) (s : State α) :
    (codes.filter p).foldl (State.applyG b) s = codes.foldl (State.applyG b) s := by
  have hstep : (fun (s : State α) code => if p code = true then s.applyG b code else s) =
      State.applyG b := by
    funext s code
    split
    · rfl
    · next hp => rw [State.applyG, h code (Bool.not_eq_true _ ▸ hp)]
  rw [List.foldl_filter, hstep]

/-- Codes that are not modal do not select another frame. -/
theorem codesChangeFrame_filter
    (h : ∀ code, p code = false → ModalCommand.ofCode? code = none) :
    codesChangeFrame (codes.filter p) = codesChangeFrame codes := by
  rw [codesChangeFrame, List.any_filter, codesChangeFrame]
  refine congrArg codes.any (funext fun code => ?_)
  cases hp : p code with
  | true => rfl
  | false => rw [h code hp]; rfl

end Codes

/-! ### The modal words of a line -/

/-- The letters of words that are modal whatever their value is. -/
def modalLetters : List Char := ['N', 'F', 'S', 'T', 'M']

/-- Modal words do the same if their `G` codes do and if the values of the other letters are the
same. -/
theorem State.applyModalWords_of_values [Scalar α] {b b' : Block α} {s : State α}
    (hvalues : ∀ letter ∈ modalLetters, b'.values letter = b.values letter)
    (hg : (b'.codes 'G').foldl (applyG b') s = (b.codes 'G').foldl (applyG b) s) :
    s.applyModalWords b' = s.applyModalWords b := by
  have hf := Block.get?_of_values (hvalues 'F' (by decide))
  have hs := Block.get?_of_values (hvalues 'S' (by decide))
  have ht := hvalues 'T' (by decide)
  have hm := Block.codes_of_values (hvalues 'M' (by decide))
  simp only [applyModalWords, applyFeed, applySpeed, applyTools, hf, hs, ht, hm, hg]

/-! ### The orders of a line -/

/-- The letters whose values say what is done with the axis words of a line. -/
def parameterLetters : List Char := ['P', 'L', 'R', 'I', 'J', 'K']

namespace State

variable [Scalar α]

/-- Two lines that a prepared machine carries out alike: they ask for the same action, for the
same motion and in the same frame, and they give the same values to the axes and to the letters
that go with them. -/
structure SameOrders (s : State α) (b b' : Block α) : Prop where
  action : Action.ofCodes? (b'.codes 'G') = Action.ofCodes? (b.codes 'G')
  returns : returnMotion? (b'.codes 'G') = returnMotion? (b.codes 'G')
  inForce : motionInForce s.motion (b'.codes 'G') = motionInForce s.motion (b.codes 'G')
  machineFrame : (b'.codes 'G').contains 530 = (b.codes 'G').contains 530
  values : ∀ letter ∈ parameterLetters ++ s.axes, b'.values letter = b.values letter

/-- What a prepared line does, without what it notes. -/
def Outcome.silent (o : Outcome α) : Outcome α := { o with notes := [] }

namespace SameOrders

variable {s : State α} {b b' : Block α}

/-- The same orders have the same values of the letters that go with the axes. -/
theorem parameter (h : s.SameOrders b b') (letter : Char) (hl : letter ∈ parameterLetters) :
    b'.values letter = b.values letter :=
  h.values letter (List.mem_append_left _ hl)

/-- The same orders name the same axes and give them the same values. -/
theorem axisWords (h : s.SameOrders b b') :
    DryRun.axisWords s.axes b' = DryRun.axisWords s.axes b :=
  axisWords_of_values fun axis haxis => h.values axis (List.mem_append_right _ haxis)

/-- The same orders give the same centre. -/
theorem centre? (h : s.SameOrders b b') (plane : Plane) :
    State.centre? plane b' = State.centre? plane b := by
  have hfirst := h.parameter plane.firstOffset (by cases plane <;> decide)
  have hsecond := h.parameter plane.secondOffset (by cases plane <;> decide)
  have hradius := h.parameter 'R' (by decide)
  simp only [State.centre?, Block.getD, Block.has_of_values hfirst, Block.has_of_values hsecond,
    Block.get?_of_values hfirst, Block.get?_of_values hsecond, Block.get?_of_values hradius]

/-- The same orders give a centre or give none. -/
theorem hasCentre (h : s.SameOrders b b') : DryRun.hasCentre b' = DryRun.hasCentre b := by
  have hi := h.parameter 'I' (by decide)
  have hj := h.parameter 'J' (by decide)
  have hk := h.parameter 'K' (by decide)
  rw [DryRun.hasCentre, Block.has_of_values hi, Block.has_of_values hj, Block.has_of_values hk,
    DryRun.hasCentre]

/-- The same orders lead to the same action. -/
theorem act (h : s.SameOrders b b') (a : Action) : s.act b' a = s.act b a := by
  have hl := Block.codes_of_values (h.parameter 'L' (by decide))
  have hp := Block.get?_of_values (h.parameter 'P' (by decide))
  cases a with
  | setSystem =>
      have hgives : givesOffsets b' = givesOffsets b := by
        rw [givesOffsets, Block.hasCode, hl, givesOffsets, Block.hasCode]
      have htakes : takesOffsets b' = takesOffsets b := by
        rw [takesOffsets, Block.hasCode, hl, takesOffsets, Block.hasCode]
      have hsystem : s.offsetSystem? b' = s.offsetSystem? b := by
        rw [offsetSystem?, hgives, htakes, hp, offsetSystem?]
      simp only [State.act, setSystem, hsystem, htakes, h.axisWords]
  | homeAxes => simp only [State.act, h.axisWords]
  | origin command => simp only [State.act, h.axisWords]
  | storeHome | storeSecondaryHome => rfl

/-- The same orders ask for the same motion. -/
theorem blockMotion? (h : s.SameOrders b b') : s.blockMotion? b' = s.blockMotion? b := by
  simp only [State.blockMotion?, selectMotion, lineMotion?, h.returns, h.inForce, h.axisWords,
    h.hasCentre]

/-- The same orders name the same targets. -/
theorem blockTargets (h : s.SameOrders b b') : s.blockTargets b' = s.blockTargets b := by
  simp only [State.blockTargets, h.machineFrame, h.axisWords]

/-- The same orders are carried out by the same motion, whatever is in force. -/
theorem runMotion? (h : s.SameOrders b b') (c : Config α) (s' : State α) (motion : Motion)
    (targets : List (Option α)) :
    s'.runMotion? c b' motion targets = s'.runMotion? c b motion targets := by
  cases motion with
  | arcClockwise | arcCounterclockwise => simp only [State.runMotion?, arc, h.centre?]
  | rapid | linear | home | secondaryHome | unsupported _ => rfl

/-- **A prepared line is carried out as its orders say.** The source text of a line may stand in
what is noted, but in nothing else. -/
theorem step (h : s.SameOrders b b') (c : Config α) :
    (s.step c b').silent = (s.step c b).silent := by
  cases ha : Action.ofCodes? (b.codes 'G') with
  | some a =>
      simp only [State.step, h.action, ha, h.act]
      rfl
  | none =>
      have ha' : Action.ofCodes? (b'.codes 'G') = none := h.action.trans ha
      have hselect : s.selectMotion (b'.codes 'G') = s.selectMotion (b.codes 'G') := by
        rw [selectMotion, h.inForce, selectMotion]
      rw [step_of_no_action c s ha', step_of_no_action c s ha, h.blockMotion?, hselect,
        h.blockTargets]
      cases s.blockMotion? b with
      | none => rfl
      | some motion =>
          simp only [moveLine, h.runMotion?]
          cases (s.selectMotion (b.codes 'G')).runMotion? c b motion (s.blockTargets b) <;> rfl

end SameOrders

end State

/-! ### Logbooks -/

/-- What a machine writes down of every line: how many there were, which letters they had, and the
texts of those that were flagged. -/
structure Logbook where
  lines : Nat
  letters : OrderedSet Char
  flagged : OrderedSet String

/-- The event under another line number. -/
def Event.onLine (e : Event α) (line : Nat) : Event α := { e with line }

namespace State

/-- The logbook of a machine. -/
def logbook (s : State α) : Logbook :=
  ⟨s.catalogue.lines, s.catalogue.letters, s.catalogue.flagged⟩

/-- The machine with another logbook. -/
def withLogbook (s : State α) (k : Logbook) : State α :=
  { s with catalogue := { s.catalogue with
      lines := k.lines
      letters := k.letters
      flagged := k.flagged } }

/-- A state has its own logbook. -/
@[simp] theorem withLogbook_logbook (s : State α) : s.withLogbook s.logbook = s := rfl

/-- Of two logbooks the last one counts. -/
@[simp] theorem withLogbook_withLogbook (s : State α) (k k' : Logbook) :
    (s.withLogbook k).withLogbook k' = s.withLogbook k' := rfl

/-- Switches do not read the logbook. -/
theorem applyM_withLogbook (s : State α) (k : Logbook) (code : Int) :
    (s.withLogbook k).applyM code = (s.applyM code).withLogbook k := by
  rw [applyM, applyM]
  split
  · next command _ => cases command <;> rfl
  · rfl

variable [Scalar α]

/-- Selecting a work coordinate system does not read the logbook. -/
theorem selectSystem_withLogbook (s : State α) (k : Logbook) (index : Nat) :
    (s.withLogbook k).selectSystem index = (s.selectSystem index).withLogbook k := by
  have hframe : (s.withLogbook k).frame = s.frame := rfl
  rw [selectSystem, hframe, selectSystem]
  split <;> rfl

/-- Setting the offsets of a system does not read the logbook. -/
theorem setOffsets_withLogbook (s : State α) (k : Logbook) (fromPosition : Bool) (index : Nat)
    (words : List (Option α)) :
    (s.withLogbook k).setOffsets fromPosition index words =
      (s.setOffsets fromPosition index words).withLogbook k := by
  have hframe : (s.withLogbook k).frame = s.frame := rfl
  rw [setOffsets, hframe, setOffsets]
  split <;> rfl

/-- Modal words do not read the logbook. -/
theorem applyG_withLogbook (s : State α) (k : Logbook) (b : Block α) (code : Int) :
    (s.withLogbook k).applyG b code = (s.applyG b code).withLogbook k := by
  rw [applyG, applyG]
  cases ModalCommand.ofCode? code with
  | none => rfl
  | some command =>
      cases command with
      | system index => exact selectSystem_withLogbook s k index
      | dwell =>
          simp only [applyModal, dwell]
          split <;> rfl
      | feedMode _ | plane _ | units _ | cancelMotion | distanceMode _ => rfl

/-- **Modal words do not read the logbook.** -/
theorem applyModalWords_withLogbook (s : State α) (k : Logbook) (b : Block α) :
    (s.withLogbook k).applyModalWords b = (s.applyModalWords b).withLogbook k := by
  have hfeed (s : State α) : (s.withLogbook k).applyFeed b = (s.applyFeed b).withLogbook k := by
    rw [applyFeed, applyFeed]
    split <;> rfl
  have hspeed (s : State α) : (s.withLogbook k).applySpeed b = (s.applySpeed b).withLogbook k := by
    rw [applySpeed, applySpeed]
    split <;> rfl
  have htools (s : State α) : (s.withLogbook k).applyTools b = (s.applyTools b).withLogbook k :=
    List.foldl_hom (withLogbook · k) fun _ _ => rfl
  have hg (s : State α) (codes : List Int) :
      codes.foldl (applyG b) (s.withLogbook k) = (codes.foldl (applyG b) s).withLogbook k :=
    List.foldl_hom (withLogbook · k) fun s code => applyG_withLogbook s k b code
  have hm (s : State α) (codes : List Int) :
      codes.foldl applyM (s.withLogbook k) = (codes.foldl applyM s).withLogbook k :=
    List.foldl_hom (withLogbook · k) fun s code => applyM_withLogbook s k code
  simp only [applyModalWords, hg, hfeed, hspeed, htools, hm]

/-- Actions do not read the logbook. -/
theorem act_withLogbook (s : State α) (k : Logbook) (b : Block α) (a : Action) :
    (s.withLogbook k).act b a = (s.act b a).withLogbook k := by
  cases a with
  | setSystem =>
      have hsystem : (s.withLogbook k).offsetSystem? b = s.offsetSystem? b := rfl
      simp only [act, setSystem, hsystem]
      cases s.offsetSystem? b with
      | none => rfl
      | some index => exact setOffsets_withLogbook s k _ index _
  | origin command => cases command <;> rfl
  | storeHome | storeSecondaryHome | homeAxes => rfl

end State

/-- What was performed, as a machine with another logbook performs it, without what is noted. -/
def Performed.withLogbook (p : Performed α) (k : Logbook) : Performed α :=
  ⟨p.state.withLogbook k, p.events.map (·.onLine k.lines), []⟩

/-- What a prepared line does, as it does on a machine with another logbook, without what is
noted. -/
def State.Outcome.withLogbook (o : State.Outcome α) (k : Logbook) : State.Outcome α :=
  { o with
    state := o.state.withLogbook k
    events := o.events.map (·.onLine k.lines)
    notes := [] }

/-- The line number of an arc stands in its notes only. -/
theorem PlaneArc.resolve_fst [Scalar α] (start finish : Point α) (centre : Centre α)
    (clockwise : Bool) (line line' : Nat) :
    (resolve start finish centre clockwise line').1 =
      (resolve start finish centre clockwise line).1 := by
  cases centre with
  | offsets i j => rfl
  | radius r =>
      simp only [resolve, radiusCentre]
      split <;> rfl

namespace State

variable [Scalar α]

/-- An arc reads the logbook for line numbers only. -/
theorem arc_withLogbook (c : Config α) (s : State α) (k : Logbook) (b : Block α) (motion : Motion)
    (targets : List (Option α)) :
    ((s.withLogbook k).arc c b motion targets).withLogbook k =
      (s.arc c b motion targets).withLogbook k := by
  have hindex (label : Char) : (s.withLogbook k).axisIndex? label = s.axisIndex? label := rfl
  have hplane : (s.withLogbook k).settings = s.settings := rfl
  simp only [arc, hindex, hplane]
  split
  · split
    · simp only [arcWith, planeArc, PlaneArc.resolve_fst _ _ _ _ s.catalogue.lines]
      rfl
    · rfl
  · rfl
  · rfl

/-- A return to a reference position reads the logbook for line numbers only. -/
theorem goHome_withLogbook (c : Config α) (s : State α) (k : Logbook) (motion : Motion)
    (targets : List (Option α)) (reference : List α) :
    ((s.withLogbook k).goHome c motion targets reference).withLogbook k =
      (s.goHome c motion targets reference).withLogbook k := by
  rw [goHome, goHome]
  split <;> rfl

/-- A motion reads the logbook for the numbers of its events only. -/
theorem runMotion?_withLogbook (c : Config α) (s : State α) (k : Logbook) (b : Block α)
    (motion : Motion) (targets : List (Option α)) :
    ((s.withLogbook k).runMotion? c b motion targets).map (·.withLogbook k) =
      (s.runMotion? c b motion targets).map (·.withLogbook k) := by
  cases motion with
  | arcClockwise | arcCounterclockwise => exact congrArg some (arc_withLogbook c s k b _ targets)
  | home | secondaryHome => exact congrArg some (goHome_withLogbook c s k _ targets _)
  | rapid | linear | unsupported _ => rfl

/-- A line with a motion reads the logbook for line numbers only. -/
theorem moveLine_withLogbook (c : Config α) (s : State α) (k : Logbook) (b : Block α)
    (motion : Motion) (targets : List (Option α)) :
    ((s.withLogbook k).moveLine c b motion targets).withLogbook k =
      (s.moveLine c b motion targets).withLogbook k := by
  have hperformed (s : State α) : (s.moveLine c b motion targets).withLogbook k =
      ((s.runMotion? c b motion targets).map (·.withLogbook k)).elim
        ⟨s.withLogbook k, some motion, false, false, [], []⟩
        fun p => ⟨p.state, some motion, true, false, p.events, []⟩ := by
    rw [moveLine]
    cases s.runMotion? c b motion targets <;> rfl
  rw [hperformed, hperformed, runMotion?_withLogbook, withLogbook_withLogbook]

/-- **A prepared line reads the logbook for the numbers of its events only.** -/
theorem step_withLogbook (c : Config α) (s : State α) (k : Logbook) (b : Block α) :
    ((s.withLogbook k).step c b).withLogbook k = (s.step c b).withLogbook k := by
  cases ha : Action.ofCodes? (b.codes 'G') with
  | some a =>
      simp only [step, ha, act_withLogbook]
      rfl
  | none =>
      have hmotion : (s.withLogbook k).blockMotion? b = s.blockMotion? b := rfl
      have htargets : (s.withLogbook k).blockTargets b = s.blockTargets b := rfl
      rw [step_of_no_action c _ ha, step_of_no_action c s ha, hmotion, htargets]
      cases s.blockMotion? b with
      | none => rfl
      | some motion => exact moveLine_withLogbook c (s.selectMotion (b.codes 'G')) k b motion _

/-- A prepared line writes nothing into the logbook, and its events bear the number there. -/
theorem step_withLogbook_logbook (c : Config α) (s : State α) (b : Block α) :
    (s.step c b).withLogbook s.logbook = (s.step c b).silent := by
  have hcatalogue : (s.step c b).state.catalogue = s.catalogue :=
    congrArg Prod.fst (used_step c s b)
  have hstate : (s.step c b).state.withLogbook s.logbook = (s.step c b).state := by
    rw [logbook, ← hcatalogue]
    rfl
  have hline : ∀ e ∈ (s.step c b).events, e.line = s.catalogue.lines := by
    rcases stands_or_moves c s b with h | h
    · simp [h.events]
    · exact h.line
  have hevents : (s.step c b).events.map (·.onLine s.logbook.lines) = (s.step c b).events := by
    refine (List.map_congr_left fun e he => ?_).trans (List.map_id _)
    change { e with line := s.catalogue.lines } = e
    rw [← hline e he]
  rw [Outcome.withLogbook, hstate, hevents, Outcome.silent]

/-! ### Whole lines -/

/-- Only counting a line writes into the logbook. -/
theorem logbook_prepare (s : State α) (b : Block α) :
    (s.prepare b).logbook = (s.count b).logbook := by
  have hcatalogue : (s.prepare b).catalogue = s.catalogue.add b :=
    congrArg Prod.fst (used_prepare s b)
  rw [logbook, hcatalogue]
  rfl

/-- The logbook is kept where a line is counted, and nowhere else. -/
theorem logbook_evaluate (c : Config α) (s : State α) (b : Block α) :
    (evaluate c s b).state.logbook = (s.count b).logbook := by
  have hcatalogue : (evaluate c s b).state.catalogue = (s.prepare b).catalogue :=
    congrArg Prod.fst ((used_finish _ b).trans (used_step c (s.prepare b) b))
  rw [logbook, hcatalogue, ← logbook_prepare, logbook]

/-- **Lines with the same orders are carried out alike, whatever the logbook.** -/
theorem SameOrders.step_withLogbook {s : State α} {b b' : Block α} (h : s.SameOrders b b')
    (c : Config α) (k : Logbook) :
    ((s.withLogbook k).step c b').silent = (s.step c b).withLogbook k :=
  calc ((s.withLogbook k).step c b').silent
    _ = ((s.withLogbook k).step c b').withLogbook k :=
      (step_withLogbook_logbook c (s.withLogbook k) b').symm
    _ = (s.step c b').silent.withLogbook k := State.step_withLogbook c s k b'
    _ = (s.step c b).silent.withLogbook k := by rw [h.step c]

/-- The end of a program does not read the logbook. -/
theorem finish_withLogbook (s : State α) (k : Logbook) (b : Block α) :
    (s.withLogbook k).finish b = (s.finish b).withLogbook k := by
  rw [finish, finish]
  split <;> rfl

/-- **Lines that have the same orders once they are prepared do the same.** They may begin in
different states, as long as these differ in nothing but their logbooks after the modal words. -/
theorem evaluate_of_sameOrders (c : Config α) {s s' : State α} {b b' : Block α} {k : Logbook}
    (hprepare : s'.prepare b' = (s.prepare b).withLogbook k)
    (horders : (s.prepare b).SameOrders b b')
    (hends : endsProgram (b'.codes 'M') = endsProgram (b.codes 'M')) :
    (evaluate c s' b').state = (evaluate c s b).state.withLogbook k ∧
      (evaluate c s' b').result = { (evaluate c s b).result with
        changedFrame := modalChangesFrame b' || ((s.prepare b).step c b).changedFrame ||
          endsProgram (b.codes 'M')
        time := (evaluate c s b).state.totalTime - s'.totalTime
        events := (evaluate c s b).result.events.map (·.onLine k.lines) } := by
  have hstep := horders.step_withLogbook c k
  simp only [Outcome.silent, Outcome.withLogbook, Outcome.mk.injEq, and_true] at hstep
  obtain ⟨hstate, hmotion, hisMotion, hchanged, hevents⟩ := hstep
  have hfinish (s : State α) : s.finish b' = s.finish b := by rw [finish, hends, finish]
  constructor
  · simp only [evaluate, hprepare, hstate, hfinish, finish_withLogbook]
  · simp only [evaluate, hprepare, hstate, hmotion, hisMotion, hchanged, hevents, hends, hfinish,
      finish_withLogbook]
    rfl

/-- If the logbooks also agree on the number of the line, then the lines have the same result. -/
theorem evaluate_of_sameOrders_of_lines (c : Config α) {s s' : State α} {b b' : Block α}
    {k : Logbook} (hprepare : s'.prepare b' = (s.prepare b).withLogbook k)
    (hlines : k.lines = (s.prepare b).catalogue.lines)
    (horders : (s.prepare b).SameOrders b b')
    (hmodal : modalChangesFrame b' = modalChangesFrame b)
    (hends : endsProgram (b'.codes 'M') = endsProgram (b.codes 'M'))
    (htime : s'.totalTime = s.totalTime) :
    (evaluate c s' b').state = (evaluate c s b).state.withLogbook k ∧
      (evaluate c s' b').result = (evaluate c s b).result := by
  obtain ⟨hstate, hresult⟩ := evaluate_of_sameOrders c hprepare horders hends
  have hevents : (evaluate c s b).result.events.map (·.onLine k.lines) =
      (evaluate c s b).result.events := by
    rw [hlines]
    exact congrArg Outcome.events (step_withLogbook_logbook c (s.prepare b) b)
  refine ⟨hstate, ?_⟩
  rw [hresult, hevents, hmodal, htime]
  rfl

end State

end DryRun

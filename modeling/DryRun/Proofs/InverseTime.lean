import DryRun.Proofs.PlainLines

/-!
# Inverse time

In inverse-time mode a feed `f` asks for moves that take a minute divided by `f`, whatever their
length. A move that would drive an axis beyond its largest feed takes longer, but only as long as
it has to: of the times that are at least as long as the feed asks for and in which no axis
exceeds its limit, it takes the shortest (`Timing.isLeast_inverseTime`). Seen from the other side,
this is the largest of the time that the feed asks for and of the times that the axes need by
themselves (`Timing.isGreatest_inverseTime`).

The travel of the move does not enter into it, so that an arc takes as long as the straight move
to its end point, whether it is timed over its chord or over its length; the travel only has to
be positive.
-/

namespace DryRun

namespace Timing

/-- A travel over a time in seconds, as a feed per minute, and the other way round. -/
theorem div_mul_sixty (x y : ℝ) : x / y * Scalar.sixty = 60 * x / y := by
  rw [Exact.sixty_eq, div_mul_eq_mul_div, mul_comm]

section InverseTime

variable {c : Config ℝ} (hc : c.validate = .ok ()) (units : Units) {travels : List ℝ}
  (hlength : travels.length = c.axisCount)

include hc hlength

/-- **An inverse-time move takes what its feed asks for or what the slowest axis needs**, whichever
is longer. -/
theorem isGreatest_inverseTime (htravels : ∀ d ∈ travels, 0 ≤ d) (feed : ℝ) :
    IsGreatest ({60 / feed} ∪ {t | ∃ (axis : Nat) (d : ℝ), travels[axis]? = some d ∧
      60 * d / c.maxFeedIn units axis = t}) (inverseTime c units travels feed) := by
  have hleast : IsGreatest {t | ∃ (axis : Nat) (d : ℝ), travels[axis]? = some d ∧
      60 * d / c.maxFeedIn units axis = t} (leastTime c units travels) := by
    have hmap : leastTime c units travels =
        Scalar.maxOf (travels.mapIdx fun axis d => 60 * d / c.maxFeedIn units axis) := by
      simp only [leastTime, div_mul_sixty]
    rw [hmap]
    refine isGreatest_maxOf_mapIdx (hlength ▸ Config.axisCount_pos hc) ?_
    intro axis d hd
    have hlimit := Config.maxFeedIn_pos hc units (lt_of_getElem? hlength hd)
    exact div_nonneg (mul_nonneg (by norm_num) (htravels d (List.mem_of_getElem? hd))) hlimit.le
  rw [inverseTime, Exact.max_eq, Exact.sixty_eq]
  exact isGreatest_singleton.union hleast

/-- **An inverse-time move takes the least time that its feed and the limits of the axes allow.** -/
theorem isLeast_inverseTime (htravels : ∀ d ∈ travels, 0 ≤ d) {feed : ℝ} (hfeed : 0 < feed) :
    IsLeast {t | 60 / feed ≤ t ∧ ∀ (axis : Nat) (d : ℝ), travels[axis]? = some d →
      60 * d / t ≤ c.maxFeedIn units axis} (inverseTime c units travels feed) := by
  have hgreatest := isGreatest_inverseTime hc units hlength htravels feed
  have hasked : 0 < 60 / feed := div_pos (by norm_num) hfeed
  -- for a positive time, keeping to a limit and taking the time that an axis needs are the same
  have hkeeps {t : ℝ} (ht : 0 < t) {axis : Nat} {d : ℝ} (hd : travels[axis]? = some d) :
      60 * d / t ≤ c.maxFeedIn units axis ↔ 60 * d / c.maxFeedIn units axis ≤ t :=
    div_le_comm₀ ht (Config.maxFeedIn_pos hc units (lt_of_getElem? hlength hd))
  constructor
  · refine ⟨hgreatest.2 (.inl rfl), fun axis d hd => ?_⟩
    rw [hkeeps (inverseTime_pos c units travels hfeed) hd]
    exact hgreatest.2 (.inr ⟨axis, d, hd, rfl⟩)
  · rintro t ⟨hfeed, hlimits⟩
    rcases hgreatest.1 with hd | ⟨axis, d, hd, htime⟩
    · exact (Set.mem_singleton_iff.1 hd).trans_le hfeed
    · exact htime ▸ (hkeeps (hasked.trans_le hfeed) hd).1 (hlimits axis d hd)

end InverseTime

/-- The feeds over a time. -/
theorem feedsOver_eq (travels : List ℝ) (time : ℝ) :
    feedsOver travels time = travels.map fun d => 60 * d / time := by
  simp only [feedsOver, div_mul_sixty]

end Timing

/-- A move in inverse-time mode with the time `d`, before the shortest time of a move is applied. -/
structure MoveOrder.InverseTimed (c : Config ℝ) (o : MoveOrder ℝ) (f d : ℝ) : Prop where
  /-- The time is the largest of what the feed asks for and what each axis needs. -/
  greatest : IsGreatest ({60 / f} ∪ {t | ∃ (axis : Nat) (x : ℝ), o.travels[axis]? = some x ∧
    60 * x / c.maxFeedIn o.state.settings.units axis = t}) d
  /-- The move takes this time, if it is not too short. -/
  time : o.time c = max d c.minMoveTime
  /-- The axis feeds after the move are those of its travels over the time. -/
  feeds : (o.next c).axisFeeds = some (o.travels.map fun x => 60 * x / d)
  /-- No axis exceeds its limit, and in no shorter time that the feed allows would that be so. -/
  least : IsLeast {t | 60 / f ≤ t ∧ ∀ (axis : Nat) (x : ℝ), o.travels[axis]? = some x →
    60 * x / t ≤ c.maxFeedIn o.state.settings.units axis} d

/-- A feed move in inverse-time mode is timed by its feed and the limits of the axes. -/
theorem MoveOrder.inverseTimed {c : Config ℝ} (hc : c.validate = .ok ()) {o : MoveOrder ℝ}
    (hlength : o.travels.length = c.axisCount) {f : ℝ} (hfeed : o.feed = some f) (hf : 0 < f)
    (hmode : o.state.settings.inverseFeed = true) (hdistance : 0 < o.distance) :
    ∃ d, o.InverseTimed c f d := by
  have htravels : ∀ d ∈ o.travels, 0 ≤ d := o.state.axisTravels_nonneg _
  have hduration : o.duration c =
      (Timing.inverseTime c o.state.settings.units o.travels f,
        some (Timing.feedsOver o.travels
          (Timing.inverseTime c o.state.settings.units o.travels f))) := by
    change Timing.duration c o.state.settings o.state.axisFeeds o.travels o.distance o.feed = _
    rw [hfeed, Timing.duration_of_inverse c _ _ hdistance hf hmode]
  refine ⟨Timing.inverseTime c o.state.settings.units o.travels f, ?_, ?_, ?_, ?_⟩
  · exact Timing.isGreatest_inverseTime hc _ hlength htravels f
  · change Scalar.max (o.duration c).1 c.minMoveTime = _
    rw [hduration, Exact.max_eq]
  · change (o.duration c).2 = _
    rw [hduration, Timing.feedsOver_eq]
  · exact Timing.isLeast_inverseTime hc _ hlength htravels hf

namespace State

/-- **An inverse-time move takes the requested time or the least time that the axes allow.** In a
state whose lists fit an accepted configuration, as is the case after every run, let a line ask for
a feed move or an arc, in inverse-time mode and with a positive feed. It makes one move, with one
event. If this move has a positive travel, it takes the largest of the time that the feed asks for,
of the times that the axes need at their largest feeds, and of the shortest time of a move; the axis
feeds that it ends with are the travels over the time `d` before that last comparison, none of them
exceeds its limit, and of the times that the feed allows `d` is the least of which this is true. -/
theorem inverse_time {c : Config ℝ} (hc : c.validate = .ok ()) {s : State ℝ}
    (hshaped : s.pose.Shaped c) {b : Block ℝ} {m : Motion} (hasked : s.askedMotion? b = some m)
    (hm : m = .linear ∨ m.isArc = true) (hmode : (s.prepare b).settings.inverseFeed = true)
    (hfeed : 0 < (s.prepare b).settings.feed) (hdistance : 0 < (s.moveOrder c b m).distance) :
    s.orders c b = [s.moveOrder c b m] ∧
      (evaluate c s b).state = ((s.moveOrder c b m).next c).finish b ∧
      (∃ e, (evaluate c s b).result.events = [e] ∧ (s.moveOrder c b m).RecordedBy c e) ∧
      ∃ d, (s.moveOrder c b m).InverseTimed c (s.prepare b).settings.feed d := by
  obtain ⟨horders, hstate, hevent⟩ := evaluate_moveOrder c hasked (.inr hm)
  have hprepared : (s.prepare b).pose.Shaped c :=
    prepare_induction (Pose.shaped_invariant c).selectSystem b hshaped
  have hlength : (s.moveOrder c b m).travels.length = c.axisCount :=
    hprepared.length_axisTravels (hprepared.length_leg (.words _ b))
  have hfeed? : (s.moveOrder c b m).feed = some (s.prepare b).settings.feed := by
    have hfeed? : (s.prepare b).feed? = some (s.prepare b).settings.feed := if_pos hfeed
    rcases hm with rfl | harc
    · exact hfeed?
    · cases m with
      | arcClockwise | arcCounterclockwise => exact hfeed?
      | rapid | linear | home | secondaryHome | unsupported _ => cases harc
  exact ⟨horders, hstate, hevent,
    MoveOrder.inverseTimed hc hlength hfeed? hfeed hmode hdistance⟩

/-- Half a circle that is asked for a hundred times a minute. -/
noncomputable def hastyArc : Block ℝ :=
  .ofWords [⟨'G', Scalar.ofNat 93⟩, ⟨'G', Scalar.ofNat 2⟩, ⟨'X', Scalar.ofNat 30⟩,
    ⟨'I', Scalar.ofNat 15⟩, ⟨'F', Scalar.ofNat 100⟩]

/-- The arc takes longer than its feed asks for, because the standard machine cannot go as fast. -/
theorem inverse_time_hastyArc :
    ∃ (s₀ : State ℝ) (o : MoveOrder ℝ) (e : Event ℝ) (d : ℝ), start? .standard = .ok s₀ ∧
      s₀.askedMotion? hastyArc = some .arcClockwise ∧ s₀.orders .standard hastyArc = [o] ∧
      (evaluate .standard s₀ hastyArc).result.events = [e] ∧ o.RecordedBy .standard e ∧
      o.InverseTimed .standard (Scalar.ofNat 100) d ∧ 60 / 100 < d := by
  have h93 : toCode (Scalar.ofNat 93 : ℝ) = 930 := Exact.toCode_ofNat (by decide)
  have h2 : toCode (Scalar.ofNat 2 : ℝ) = 20 := Exact.toCode_ofNat (by decide)
  have hcodes : hastyArc.codes 'G' = [930, 20] := by
    simp [hastyArc, Block.codes, Block.values, Block.ofWords, h93, h2, -Exact.ofNat_eq]
  have hfeed : (hastyArc.get? 'F').filter (0 ≤ ·) = some (Scalar.ofNat 100) := by
    simp [hastyArc, Block.get?, Block.ofWords]
  have hasked : (start .standard).askedMotion? hastyArc = some .arcClockwise := by
    rw [askedMotion?_eq_some_iff, blockMotion?, axes_prepare, hcodes]
    exact ⟨rfl, rfl⟩
  have hsettings : ((start .standard).prepare hastyArc).settings =
      { startSettings .empty with inverseFeed := true, feed := Scalar.ofNat 100 } := by
    have hprepare : (start .standard).prepare hastyArc =
        ([930, 20].foldl (applyG hastyArc) ((start .standard).count hastyArc)).applyFeed
          hastyArc := by
      rw [prepare, applyModalWords, hcodes]
      rfl
    rw [hprepare, applyFeed, hfeed]
    rfl
  have hprepared := stands_start_standard.of_pose
    (pose_prepare_of_not_changesFrame (by rw [modalChangesFrame, hcodes]; rfl) _) hsettings
  have htravels : ((start .standard).moveOrder .standard hastyArc .arcClockwise).travels =
      [|Scalar.ofNat 30 - 0|, |0 - 0|, |0 - 0|] :=
    hprepared.travels_moveOrder rfl (by rw [hcodes]; decide) .standard .arcClockwise
  have hdistance :
      0 < ((start .standard).moveOrder .standard hastyArc .arcClockwise).distance := by
    rw [distance_moveOrder (.inr rfl), htravels]
    exact Exact.norm_pos_of_mem List.mem_cons_self (by rw [Exact.ofNat_eq]; norm_num)
  obtain ⟨horders, -, ⟨e, hevents, he⟩, d, htimed⟩ := inverse_time Exact.standard_validate
    (Pose.shaped_start Exact.standard_validate) hasked (.inr rfl) (by rw [hsettings])
    (by rw [hsettings]; simp) hdistance
  rw [hsettings] at htimed
  refine ⟨_, _, e, d, start?_of_validate Exact.standard_validate, hasked, horders, hevents, he,
    htimed, ?_⟩
  have hx : 60 * |Scalar.ofNat 30 - 0| / Config.maxFeedIn .standard .mm 0 ≤ d := by
    have hunits :
        ((start .standard).moveOrder .standard hastyArc .arcClockwise).state.settings.units =
          .mm := congrArg Settings.units hsettings
    refine htimed.greatest.2 (.inr ⟨0, _, ?_, by rw [hunits]⟩)
    rw [htravels]
    rfl
  have hlimit : Config.maxFeedIn .standard .mm 0 = (Scalar.ofNat 1000 : ℝ) := rfl
  rw [hlimit, Exact.ofNat_eq, Exact.ofNat_eq] at hx
  norm_num at hx
  linarith

end State

end DryRun

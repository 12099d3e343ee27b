import DryRun.Proofs.Divisors
import DryRun.Proofs.PlainLines

/-!
# Times that a machine could keep

The time of a move is an estimate: the ramps of all axes are put at the start of the way, and the
distance that they cover is taken from the feeds that the last move left behind. It is computed
by subtracting one distance from another, and the feeds it starts from come from moves of any
kind. `MoveOrder.Physical` says in which sense the estimate still is one of a machine: nothing is
divided by zero, no feed is negative, a move takes the time of its ramps, and apart from that no
longer than its way at the programmed speed and no shorter than its way at the higher of the
speeds before and after the ramp.

The feeds that are not negative are an invariant of runs (`Pose.driven_invariant`); all else
follows for one move at a time from the bounds of `Timing.rampedTime`.
-/

namespace DryRun

/-! ### Feeds in a run -/

/-- A pose whose lists fit the configuration and whose last move ended with no negative feed. -/
structure Pose.Driven (c : Config ℝ) (p : Pose ℝ) : Prop where
  shaped : p.Shaped c
  feeds : Timing.FeedsNonneg p.axisFeeds

namespace Pose

/-- At power-on there are no feeds. -/
theorem driven_start {c : Config ℝ} (hc : c.validate = .ok ()) :
    (State.start c).pose.Driven c :=
  ⟨shaped_start hc, fun _ hfeeds => nomatch hfeeds⟩

/-- **No part of a line leaves a negative feed.** Only moves and the end of a program change the
feeds. -/
theorem driven_invariant {c : Config ℝ} (hc : c.validate = .ok ()) : Invariant c (Driven c) where
  selectSystem s index hs := by
    refine ⟨hs.shaped.selectSystem index, ?_⟩
    obtain ⟨frame, work, h⟩ := State.selectSystem_eq s index
    rw [h]
    exact hs.feeds
  act s b a hs := by
    refine ⟨hs.shaped.act b a, ?_⟩
    obtain ⟨work, machine, frame, home, secondaryHome, h⟩ := State.act_eq s b a
    rw [h]
    exact hs.feeds
  move s targets feed travel hleg hs := by
    have ht := hs.shaped.length_leg hleg
    refine ⟨hs.shaped.move ht feed travel, ?_⟩
    exact Timing.feedsNonneg_duration hc s.settings hs.feeds (hs.shaped.length_axisTravels ht)
      (s.axisTravels_nonneg _) _ feed
  endProgram s hs := ⟨hs.shaped.endProgram, fun _ hfeeds => nomatch hfeeds⟩

end Pose

namespace MoveOrder

/-! ### What a time is measured by -/

/-- The time in which an axis gets from its feed before the move to another one. -/
noncomputable def axisRamp (c : Config ℝ) (o : MoveOrder ℝ) (axis : Nat) (feed : ℝ) : ℝ :=
  |feed - Timing.feedAt o.entryFeeds axis| / Scalar.sixty /
    c.accelerationIn o.state.settings.units axis

/-- The largest speed of an axis. -/
noncomputable def limitSpeed (c : Config ℝ) (o : MoveOrder ℝ) (axis : Nat) : ℝ :=
  c.maxFeedIn o.state.settings.units axis / Scalar.sixty

/-- The time of an axis's ramp in a rapid move: to its largest feed if it travels a distance `d`
at all, and to a stop otherwise. -/
noncomputable def rapidRamp (c : Config ℝ) (o : MoveOrder ℝ) (axis : Nat) (d : ℝ) : ℝ :=
  o.axisRamp c axis (if 0 < d then c.maxFeedIn o.state.settings.units axis else 0)

/-- The bounds of the time `t` of a feed move. Its feed is `f`, and the longest ramp to the axis
feeds that this amounts to takes the time `ramp`. -/
structure FeedBounds (o : MoveOrder ℝ) (f ramp t : ℝ) : Prop where
  ramp_le : ramp ≤ t
  le_cruise : t ≤ o.distance / (f / Scalar.sixty) + ramp
  distance_le : o.distance ≤
    t * max (f / Scalar.sixty) (Scalar.norm o.entryFeeds / Scalar.sixty)

/-- The bounds of the time `t` of a rapid move, in which each axis keeps to its own. -/
structure RapidBounds (c : Config ℝ) (o : MoveOrder ℝ) (t : ℝ) : Prop where
  ramp_le : ∀ (axis : Nat) (d : ℝ), o.travels[axis]? = some d → o.rapidRamp c axis d ≤ t
  travel_le : ∀ (axis : Nat) (d : ℝ), o.travels[axis]? = some d → 0 < d →
    d ≤ t * max (o.limitSpeed c axis) (Timing.feedAt o.entryFeeds axis / Scalar.sixty)
  le_slowest : ∃ (axis : Nat) (d : ℝ), o.travels[axis]? = some d ∧
    t ≤ (if 0 < d then d / o.limitSpeed c axis else 0) + o.rapidRamp c axis d

/-- A move whose time a machine could keep. -/
structure Physical (c : Config ℝ) (o : MoveOrder ℝ) : Prop where
  /-- All divisors are positive. -/
  divisors : Divided.duration? c o.state.settings o.state.axisFeeds o.travels o.distance o.feed =
    some (o.duration c)
  /-- The feeds before and after the move are not negative. -/
  feeds : Timing.FeedsNonneg o.state.axisFeeds ∧ Timing.FeedsNonneg (o.next c).axisFeeds
  /-- A feed move outside inverse-time mode keeps to its bounds. -/
  feedMove : ∀ f, o.feed = some f → o.state.settings.inverseFeed = false → 0 < o.distance →
    ∃ ramp, IsGreatest {r | ∃ (axis : Nat) (d : ℝ), o.travels[axis]? = some d ∧
      o.axisRamp c axis (f * d / o.distance) = r} ramp ∧
      o.FeedBounds f ramp (o.duration c).1
  /-- A rapid move keeps to its bounds in any mode. -/
  rapidMove : o.feed = none → 0 < o.distance → o.RapidBounds c (o.duration c).1

/-! ### Moves keep to their bounds -/

section Bounds

variable {c : Config ℝ} (hc : c.validate = .ok ()) {o : MoveOrder ℝ}
  (hlength : o.travels.length = c.axisCount)

include hc hlength

/-- A feed move keeps to its bounds. -/
theorem feedBounds {f : ℝ} (hfeed : o.feed = some f) (hf : 0 < f)
    (hmode : o.state.settings.inverseFeed = false) (hdistance : 0 < o.distance) :
    ∃ ramp, IsGreatest {r | ∃ (axis : Nat) (d : ℝ), o.travels[axis]? = some d ∧
      o.axisRamp c axis (f * d / o.distance) = r} ramp ∧
      o.FeedBounds f ramp (o.duration c).1 := by
  have hgreatest := Timing.isGreatest_longestRamp hc o.state.settings.units hlength o.entryFeeds
    o.distance f
  refine ⟨_, hgreatest, ?_⟩
  have htime : (o.duration c).1 = Timing.feedTime c o.state.settings.units o.entryFeeds o.travels
      o.distance f := by
    change (Timing.duration c o.state.settings o.state.axisFeeds o.travels o.distance o.feed).1 = _
    rw [hfeed, Timing.duration_of_feed c _ _ hdistance hf hmode]
    rfl
  have hspeed : 0 < f / Scalar.sixty := div_pos hf Exact.sixty_pos
  have hentrySpeed : 0 ≤ Scalar.norm o.entryFeeds / Scalar.sixty :=
    div_nonneg (Exact.norm_nonneg _) Exact.sixty_pos.le
  have hramp := Exact.maxOf_nonneg
    ((Timing.shares o.travels o.distance f).mapIdx fun axis new =>
      Timing.rampTime (Timing.feedAt o.entryFeeds axis) new
        (c.accelerationIn o.state.settings.units axis))
  rw [htime]
  exact ⟨Timing.ramp_le_rampedTime _ _ _ hspeed,
    Timing.rampedTime_le hentrySpeed hspeed hramp hdistance.le,
    Timing.le_rampedTime_mul _ _ hspeed hramp⟩

/-- A rapid move keeps to its bounds. -/
theorem rapidBounds (hentry : Timing.FeedsNonneg o.state.axisFeeds) (hfeed : o.feed = none)
    (hdistance : 0 < o.distance) : o.RapidBounds c (o.duration c).1 := by
  have htime : (o.duration c).1 = Timing.rapidTime c o.state.settings.units o.entryFeeds
      o.travels := by
    change (Timing.duration c o.state.settings o.state.axisFeeds o.travels o.distance o.feed).1 = _
    rw [hfeed, Timing.duration_of_rapid c _ _ _ hdistance]
    rfl
  have hgreatest := Timing.isGreatest_rapidTime hc o.state.settings.units hlength o.entryFeeds
  rw [htime]
  refine ⟨?_, ?_, ?_⟩
  · intro axis d hd
    have haxis := Timing.lt_of_getElem? hlength hd
    exact (Timing.ramp_le_rapidAxisTime hc _ haxis _ d).trans (hgreatest.2 ⟨axis, d, hd, rfl⟩)
  · intro axis d hd hpos
    have haxis := Timing.lt_of_getElem? hlength hd
    have hspeed := div_pos (Config.maxFeedIn_pos hc o.state.settings.units haxis) Exact.sixty_pos
    have hle := hgreatest.2 ⟨axis, d, hd, rfl⟩
    rw [if_pos hpos] at hle
    have hway := Timing.le_rapidAxisTime_mul hc o.state.settings.units haxis
      (Timing.feedAt o.entryFeeds axis) d
    exact hway.trans (mul_le_mul_of_nonneg_right hle (hspeed.le.trans (le_max_left _ _)))
  · obtain ⟨axis, d, hd, hslowest⟩ := hgreatest.1
    refine ⟨axis, d, hd, ?_⟩
    rw [← hslowest]
    exact Timing.rapidAxisTime_le hc _ (Timing.lt_of_getElem? hlength hd)
      (hentry.feedAt o.travels axis) d

end Bounds

/-- **A move from a driven pose is physical**, if its feed is positive. -/
theorem physical {c : Config ℝ} (hc : c.validate = .ok ()) {o : MoveOrder ℝ}
    (hs : o.state.pose.Driven c) (hleg : o.state.Leg o.targets)
    (hfeed : ∀ f, o.feed = some f → 0 < f) : o.Physical c := by
  have hlength := hs.shaped.length_axisTravels (hs.shaped.length_leg hleg)
  have hnext := (Pose.driven_invariant hc).move o.state o.targets o.feed o.travel hleg hs
  exact {
    divisors := Divided.duration?_eq hc hlength _ _ _ _
    feeds := ⟨hs.feeds, hnext.feeds⟩
    feedMove := fun f hf => feedBounds hc hlength hf (hfeed f hf)
    rapidMove := rapidBounds hc hlength hs.feeds }

end MoveOrder

namespace State

/-- **Every move of every run is physical.** -/
theorem physical_of_mem_orders {c : Config ℝ} (hc : c.validate = .ok ()) {s : State ℝ}
    (hs : s.pose.Driven c) {b : Block ℝ} {o : MoveOrder ℝ} (h : o ∈ s.orders c b) :
    o.Physical c := by
  obtain ⟨moves, hmoves, hleg⟩ := reached_of_mem_orders h
  have hinvariant := Pose.driven_invariant hc
  have hprepared : ((s.prepare b).selectMotion (b.codes 'G')).pose.Driven c :=
    prepare_induction hinvariant.selectSystem b hs
  exact MoveOrder.physical hc (hinvariant.performs hmoves hprepared) hleg fun _ hf =>
    feed_pos_of_mem_orders h hf

/-- **The time model never divides by zero and stays physical.** An accepted configuration has a
state to start from. After every run from there the remembered feeds are not negative; and
whatever line comes next, its events record its orders one after the other, with their times
raised to the shortest time of a move, and every order is physical. -/
theorem times_physical {c : Config ℝ} (hc : c.validate = .ok ()) :
    ∃ s₀, start? c = .ok s₀ ∧ ∀ bs : List (Block ℝ),
      Timing.FeedsNonneg (s₀.run c bs).axisFeeds ∧
      ∀ b : Block ℝ,
        List.Forall₂ (MoveOrder.RecordedBy c) ((s₀.run c bs).orders c b)
          (evaluate c (s₀.run c bs) b).result.events ∧
        ∀ o ∈ (s₀.run c bs).orders c b,
          o.time c = max (o.duration c).1 c.minMoveTime ∧ o.Physical c := by
  refine ⟨start c, start?_of_validate hc, fun bs => ?_⟩
  have hs := (Pose.driven_invariant hc).run bs (Pose.driven_start hc)
  refine ⟨hs.feeds, fun b => ⟨recorded_orders c _ b, fun o ho => ⟨?_, ?_⟩⟩⟩
  · exact Exact.max_eq _ _
  · exact physical_of_mem_orders hc hs ho

/-- A rapid move. -/
noncomputable def approach : Block ℝ := .ofWords [⟨'G', Scalar.ofNat 0⟩, ⟨'X', Scalar.ofNat 5⟩]

/-- A feed move along another axis. -/
noncomputable def cut : Block ℝ :=
  .ofWords [⟨'G', Scalar.ofNat 1⟩, ⟨'Y', Scalar.ofNat 3⟩, ⟨'F', Scalar.ofNat 100⟩]

/-- The machine that has made the rapid move makes the feed move within its bounds. -/
theorem times_physical_cut :
    ∃ (s₀ : State ℝ) (o : MoveOrder ℝ) (ramp : ℝ), start? .standard = .ok s₀ ∧
      (s₀.run .standard [approach]).orders .standard cut = [o] ∧
      o.feed = some (Scalar.ofNat 100) ∧ o.state.settings.inverseFeed = false ∧
      0 < o.distance ∧
      IsGreatest {r | ∃ (axis : Nat) (d : ℝ), o.travels[axis]? = some d ∧
        o.axisRamp .standard axis (Scalar.ofNat 100 * d / o.distance) = r} ramp ∧
      o.FeedBounds (Scalar.ofNat 100) ramp (o.duration .standard).1 := by
  have happroach : Plain approach .rapid :=
    plain_ofWords (Exact.toCode_ofNat (by decide)) rfl (by simp)
  have hcut : Plain cut .linear := plain_ofWords (Exact.toCode_ofNat (by decide)) rfl (by simp)
  have hfeed : (cut.get? 'F').filter (0 ≤ ·) = some (Scalar.ofNat 100) := by
    simp [cut, Block.get?, Block.ofWords]
  obtain ⟨s₀, hstart, hphysical⟩ := times_physical Exact.standard_validate
  obtain rfl : start .standard = s₀ :=
    Except.ok.inj ((start?_of_validate Exact.standard_validate).symm.trans hstart)
  have hs : ((start .standard).run .standard [approach]).Stands ['x', 'y', 'z']
      [Scalar.ofNat 5, 0, 0] (startSettings .empty) :=
    happroach.stands_evaluate stands_start_standard rfl rfl (.inl rfl) .standard
  obtain ⟨horders, -, -⟩ :=
    evaluate_moveOrder .standard (hcut.askedMotion? hs rfl) (.inr (.inl rfl))
  have hmove := ((hphysical [approach]).2 cut).2 _ (horders ▸ List.mem_cons_self)
  refine ⟨start .standard, ?_⟩
  generalize (start .standard).run .standard [approach] = s at *
  have hprepared := hcut.stands_prepare_of_feed hs hfeed
  have hofeed : (s.moveOrder .standard cut .linear).feed = some (Scalar.ofNat 100) :=
    hprepared.feed? (by simp)
  have hmode : (s.moveOrder .standard cut .linear).state.settings.inverseFeed = false :=
    congrArg Settings.inverseFeed hprepared.settings
  have hdistance : 0 < (s.moveOrder .standard cut .linear).distance := by
    rw [distance_moveOrder (.inl rfl), hprepared.travels_moveOrder rfl hcut.not_mem_codes]
    change 0 < Scalar.norm [|Scalar.ofNat 5 - Scalar.ofNat 5|, |Scalar.ofNat 3 - 0|, |0 - 0|]
    exact Exact.norm_pos_of_mem (List.mem_cons_of_mem _ List.mem_cons_self)
      (by rw [Exact.ofNat_eq]; norm_num)
  obtain ⟨ramp, hgreatest, hbounds⟩ := hmove.2.feedMove _ hofeed hmode hdistance
  exact ⟨_, ramp, hstart, horders, hofeed, hmode, hdistance, hgreatest, hbounds⟩

end State

end DryRun

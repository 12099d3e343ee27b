import DryRun.Proofs.PhysicalTimes
import DryRun.Proofs.Bounds
import DryRun.Proofs.FrameConsistency
import DryRun.Proofs.Homogeneity
import DryRun.Proofs.TimeGrowth

/-!
# Splitting a straight move

A straight move can be programmed in two pieces with a point of it in between. Both programs lead
the machine through the same points, so they end at the same position with the same envelope; and
since the feeds of the axes do not depend on how long a way is, they end with the same feeds.

Their times differ. Both pieces run at the feeds of the whole, so the second one starts with the
feeds it needs and has no ramp (`Timing.longestRamp_self`), while the first one has the ramp of the
whole. The distance that this ramp covers is cut off at the end of the first piece. That is the
only difference: it can make the pieces slower than the whole but not faster, and it makes none if
the ramp ends within the first piece (`Timing.feedTime_split`, `Timing.feedTime_split_eq`). In a
rapid move the axes do this one by one, and the slowest of the sums is not slower than the sum of
the slowest (`Timing.rapidTime_split`).

## Main results

* `Timing.duration_split`: the pieces end with the feeds of the whole and are not faster.
* `Envelope.addMove_split`, `Pose.moved_moved`: the pieces have the envelope of the whole and end in
  the same pose.
* `MoveOrder.Pieces.time_le`, `MoveOrder.Pieces.time_eq`: the times of a move and of its pieces.
-/

namespace DryRun

open Lengths

namespace Timing

/-! ### A way in two pieces -/

section Way

variable {entry speed ramp first rest : ℝ}

/-- A way without a ramp runs at one speed. -/
theorem rampedTime_no_ramp (entry speed : ℝ) (h : 0 ≤ rest) :
    rampedTime entry speed 0 rest = rest / speed := by
  rw [rampedTime, rampDistance, Exact.min_eq, mul_zero, min_eq_left h, sub_zero, add_zero]

/-- The rest of a way after the ramp has been cut off costs at most what it costs alone. -/
theorem rampedTime_add_le (hspeed : 0 < speed) (hrest : 0 ≤ rest) :
    rampedTime entry speed ramp (first + rest) ≤
      rampedTime entry speed ramp first + rest / speed := by
  have hcut : rampDistance entry speed ramp first ≤
      rampDistance entry speed ramp (first + rest) := by
    rw [rampDistance, rampDistance, Exact.min_eq, Exact.min_eq]
    exact min_le_min_left _ (le_add_of_nonneg_right hrest)
  rw [rampedTime, rampedTime, add_right_comm, ← add_div]
  refine add_le_add_left (div_le_div_of_nonneg_right ?_ hspeed.le) ramp
  linarith

/-- A ramp that ends within the first piece is not cut off. -/
theorem rampedTime_add (hramp : (entry + speed) / 2 * ramp ≤ first) (hrest : 0 ≤ rest) :
    rampedTime entry speed ramp (first + rest) =
      rampedTime entry speed ramp first + rest / speed := by
  have hwhole : rampDistance entry speed ramp (first + rest) = (entry + speed) / 2 * ramp := by
    rw [rampDistance, Exact.min_eq, Exact.ofNat_eq, Nat.cast_ofNat]
    exact min_eq_left (hramp.trans (le_add_of_nonneg_right hrest))
  have hfirst : rampDistance entry speed ramp first = (entry + speed) / 2 * ramp := by
    rw [rampDistance, Exact.min_eq, Exact.ofNat_eq, Nat.cast_ofNat]
    exact min_eq_left hramp
  rw [rampedTime, rampedTime, hwhole, hfirst, add_right_comm _ ramp, ← add_div, add_sub_right_comm]

end Way

/-! ### The feeds of a piece -/

/-- A piece of a straight way has the feeds of the whole. -/
theorem shares_piece {k : ℝ} (hk : 0 < k) (travels : List ℝ) (travel feed : ℝ) :
    shares (scale k travels) (k * travel) feed = shares travels travel feed := by
  rw [shares, shares, scale, List.map_map]
  refine List.map_congr_left fun d _ => ?_
  change feed * (k * d) / (k * travel) = feed * d / travel
  rw [mul_left_comm, mul_div_mul_left _ _ hk.ne']

/-- A piece of a rapid move has the feeds of the whole. -/
theorem rapidFeeds_piece (c : Config ℝ) (units : Units) {k : ℝ} (hk : 0 < k) (travels : List ℝ) :
    rapidFeeds c units (scale k travels) = rapidFeeds c units travels := by
  refine mapIdx_scale (fun axis d => ?_) travels
  rw [if_congr (mul_pos_iff_of_pos_left hk) rfl rfl]

/-- Axes that keep their feeds have no ramps. -/
theorem longestRamp_self (c : Config ℝ) (units : Units) (feeds : List ℝ) :
    longestRamp c units feeds feeds = 0 := by
  refine le_antisymm (Exact.maxOf_le_iff.2 ⟨le_rfl, fun r hr => ?_⟩) (Exact.maxOf_nonneg _)
  obtain ⟨axis, feed, hfeed, rfl⟩ := mem_mapIdx_iff.1 hr
  rw [feedAt, hfeed, Option.getD_some, rampTime_self]

/-! ### The times of the pieces -/

section Pieces

variable (c : Config ℝ) (units : Units) {k : ℝ}

/-- The two pieces of a feed move, put together from the time of the ramp and the way. -/
theorem feedTime_pieces (hk : 0 < k) (hk' : k < 1) (last travels : List ℝ) {travel feed : ℝ}
    (htravel : 0 < travel) :
    feedTime c units last (scale k travels) (k * travel) feed +
        feedTime c units (shares travels travel feed) (scale (1 - k) travels) ((1 - k) * travel)
          feed =
      rampedTime (Scalar.norm last / Scalar.sixty) (feed / Scalar.sixty)
          (longestRamp c units last (shares travels travel feed)) (k * travel) +
        (1 - k) * travel / (feed / Scalar.sixty) := by
  have hrest : 0 ≤ (1 - k) * travel := mul_nonneg (sub_pos.2 hk').le htravel.le
  rw [feedTime, feedTime, shares_piece hk, shares_piece (sub_pos.2 hk'), longestRamp_self,
    rampedTime_no_ramp _ _ hrest]

/-- **A feed move in two pieces is not faster.** -/
theorem feedTime_split (hk : 0 < k) (hk' : k < 1) (last travels : List ℝ) {travel feed : ℝ}
    (htravel : 0 < travel) (hfeed : 0 < feed) :
    feedTime c units last travels travel feed ≤
      feedTime c units last (scale k travels) (k * travel) feed +
        feedTime c units (shares travels travel feed) (scale (1 - k) travels) ((1 - k) * travel)
          feed := by
  have hway : travel = k * travel + (1 - k) * travel := by ring
  have hrest : 0 ≤ (1 - k) * travel := mul_nonneg (sub_pos.2 hk').le htravel.le
  rw [feedTime_pieces c units hk hk' last travels htravel, feedTime]
  nth_rewrite 2 [hway]
  exact rampedTime_add_le (div_pos hfeed Exact.sixty_pos) hrest

/-- **A feed move in two pieces takes as long as in one**, if its ramp ends within the first. -/
theorem feedTime_split_eq (hk : 0 < k) (hk' : k < 1) (last travels : List ℝ) {travel feed : ℝ}
    (htravel : 0 < travel)
    (hramp : (Scalar.norm last / Scalar.sixty + feed / Scalar.sixty) / 2 *
      longestRamp c units last (shares travels travel feed) ≤ k * travel) :
    feedTime c units last travels travel feed =
      feedTime c units last (scale k travels) (k * travel) feed +
        feedTime c units (shares travels travel feed) (scale (1 - k) travels) ((1 - k) * travel)
          feed := by
  have hway : travel = k * travel + (1 - k) * travel := by ring
  have hrest : 0 ≤ (1 - k) * travel := mul_nonneg (sub_pos.2 hk').le htravel.le
  rw [feedTime_pieces c units hk hk' last travels htravel, feedTime]
  nth_rewrite 2 [hway]
  exact rampedTime_add hramp hrest

/-- One axis of a rapid move in two pieces is not faster. -/
theorem rapidAxisTime_split (hk' : k < 1) (last new acceleration : ℝ) {d : ℝ}
    (hd : 0 ≤ d) :
    rapidAxisTime last new acceleration d ≤
      rapidAxisTime last new acceleration (k * d) +
        rapidAxisTime new new acceleration ((1 - k) * d) := by
  have hrest : 0 ≤ (1 - k) * d := mul_nonneg (sub_pos.2 hk').le hd
  have hway : d = k * d + (1 - k) * d := by ring
  simp only [rapidAxisTime, rampTime_self]
  split
  · rw [add_zero]
  · next hspeed =>
      rw [rampedTime_no_ramp _ _ hrest]
      nth_rewrite 1 [hway]
      exact rampedTime_add_le (not_le.1 hspeed) hrest

/-- **A rapid move in two pieces is not faster.** -/
theorem rapidTime_split (hk : 0 < k) (hk' : k < 1) (last : List ℝ) {travels : List ℝ}
    (htravels : ∀ d ∈ travels, 0 ≤ d) :
    rapidTime c units last travels ≤
      rapidTime c units last (scale k travels) +
        rapidTime c units (rapidFeeds c units travels) (scale (1 - k) travels) := by
  have hfirst := Exact.maxOf_nonneg
  refine Exact.maxOf_le_iff.2 ⟨add_nonneg (hfirst _) (hfirst _), fun t ht => ?_⟩
  obtain ⟨axis, d, hd, rfl⟩ := mem_mapIdx_iff.1 ht
  refine (rapidAxisTime_split hk' _ _ _ (htravels d (List.mem_of_getElem? hd))).trans ?_
  refine add_le_add (Exact.le_maxOf ?_) (Exact.le_maxOf ?_)
  · refine mem_mapIdx_iff.2 ⟨axis, k * d, by rw [getElem?_scale, hd]; rfl, ?_⟩
    rw [rapidFeeds_piece c units hk]
  · refine mem_mapIdx_iff.2 ⟨axis, (1 - k) * d, by rw [getElem?_scale, hd]; rfl, ?_⟩
    rw [rapidFeeds_piece c units (sub_pos.2 hk')]

end Pieces

/-- The feeds at rest do not depend on the travels. -/
theorem map_zero_scale (k : ℝ) (travels : List ℝ) :
    (scale k travels).map (fun _ => (0 : ℝ)) = travels.map fun _ => 0 := by
  rw [scale, List.map_map]
  rfl

/-- **The pieces of a straight move end with the feeds of the whole, and are not faster.** If the
ramp of a feed move ends within the first piece, they take as long. The settings of the moves may
differ in all that has nothing to do with timing. -/
theorem duration_split (c : Config ℝ) {k : ℝ} (hk : 0 < k) (hk' : k < 1) {s s₁ s₂ : Settings ℝ}
    (hmode : s.inverseFeed = false) (hmode₁ : s₁.inverseFeed = false)
    (hmode₂ : s₂.inverseFeed = false) (hunits₁ : s₁.units = s.units) (hunits₂ : s₂.units = s.units)
    (last : Option (List ℝ)) {travels : List ℝ} (htravels : ∀ d ∈ travels, 0 ≤ d) {travel : ℝ}
    (htravel : 0 < travel) {feed : Option ℝ} (hfeed : ∀ f, feed = some f → 0 < f) :
    ∃ feeds t t₁ t₂, duration c s last travels travel feed = (t, some feeds) ∧
      duration c s₁ last (scale k travels) (k * travel) feed = (t₁, some feeds) ∧
      duration c s₂ (some feeds) (scale (1 - k) travels) ((1 - k) * travel) feed =
        (t₂, some feeds) ∧
      t ≤ t₁ + t₂ ∧
      ∀ f, feed = some f →
        (Scalar.norm (last.getD (travels.map fun _ => 0)) / Scalar.sixty + f / Scalar.sixty) / 2 *
          longestRamp c s.units (last.getD (travels.map fun _ => 0)) (shares travels travel f) ≤
            k * travel → t = t₁ + t₂ := by
  have hk'' : 0 < 1 - k := sub_pos.2 hk'
  have hfirst : 0 < k * travel := mul_pos hk htravel
  have hsecond : 0 < (1 - k) * travel := mul_pos hk'' htravel
  cases feed with
  | none =>
      refine ⟨_, _, _, _, duration_of_rapid c last travels s htravel, ?_, ?_,
        rapidTime_split c s.units hk hk' (last.getD (travels.map fun _ => 0)) htravels, ?_⟩
      · rw [duration_of_rapid c _ _ _ hfirst, hunits₁, map_zero_scale,
          rapidFeeds_piece c s.units hk]
      · rw [duration_of_rapid c _ _ _ hsecond, hunits₂, Option.getD_some,
          rapidFeeds_piece c s.units hk'']
      · intro f hf
        cases hf
  | some f =>
      have hf := hfeed f rfl
      refine ⟨_, _, _, _, duration_of_feed c last travels htravel hf hmode, ?_, ?_,
        feedTime_split c s.units hk hk' (last.getD (travels.map fun _ => 0)) travels htravel hf,
        ?_⟩
      · rw [duration_of_feed c _ _ hfirst hf hmode₁, hunits₁, map_zero_scale, shares_piece hk]
      · rw [duration_of_feed c _ _ hsecond hf hmode₂, hunits₂, Option.getD_some,
          shares_piece hk'']
      · intro f' hf' hramp
        obtain rfl := Option.some.inj hf'
        exact feedTime_split_eq c s.units hk hk' _ travels htravel hramp

end Timing

/-! ### Envelopes -/

/-- A way from one position to another that passes a third one on each axis that is named. -/
def PassesThrough (targets : List (Option ℝ)) (start mid finish : List ℝ) : Prop :=
  ∀ (axis : Nat) (target : ℝ), targets[axis]?.join = some target →
    ∃ p m q, start[axis]? = some p ∧ mid[axis]? = some m ∧ finish[axis]? = some q ∧
      m ∈ Set.uIcc p q

namespace Bounds

/-- A lower bound after a value. -/
theorem lower_eq_inf (bound : Option ℝ) (x : ℝ) : lower bound x = some (bound.elim x (· ⊓ x)) := by
  cases bound with
  | none => rfl
  | some m =>
      simp only [lower, Option.elim_some]
      split
      · next h => rw [inf_eq_right.2 h.le]
      · next h => rw [inf_eq_left.2 (not_lt.1 h)]

/-- An upper bound after a value. -/
theorem upper_eq_sup (bound : Option ℝ) (x : ℝ) : upper bound x = some (bound.elim x (· ⊔ x)) := by
  cases bound with
  | none => rfl
  | some m =>
      simp only [upper, Option.elim_some]
      split
      · next h => rw [sup_eq_right.2 h.le]
      · next h => rw [sup_eq_left.2 (not_lt.1 h)]

/-- A value between two others does not lower a bound. -/
theorem foldl_lower_between {p m q : ℝ} (h : m ∈ Set.uIcc p q) (bound : Option ℝ) :
    [p, m, m, q].foldl lower bound = [p, q].foldl lower bound := by
  simp only [List.foldl_cons, List.foldl_nil, lower_eq_inf, Option.elim_some]
  have hp : bound.elim p (· ⊓ p) ≤ p := by
    cases bound with
    | none => exact le_rfl
    | some b => exact inf_le_right
  generalize bound.elim p (· ⊓ p) = a at hp ⊢
  have hm : a ⊓ q ≤ m := (inf_le_inf_right q hp).trans h.1
  rw [inf_assoc a m m, inf_idem, inf_right_comm, inf_eq_left.2 hm]

/-- A value between two others does not raise a bound. -/
theorem foldl_upper_between {p m q : ℝ} (h : m ∈ Set.uIcc p q) (bound : Option ℝ) :
    [p, m, m, q].foldl upper bound = [p, q].foldl upper bound := by
  simp only [List.foldl_cons, List.foldl_nil, upper_eq_sup, Option.elim_some]
  have hp : p ≤ bound.elim p (· ⊔ p) := by
    cases bound with
    | none => exact le_rfl
    | some b => exact le_sup_right
  generalize bound.elim p (· ⊔ p) = a at hp ⊢
  have hm : m ≤ a ⊔ q := h.2.trans (sup_le_sup_right hp q)
  rw [sup_assoc a m m, sup_idem, sup_right_comm, sup_eq_left.2 hm]

/-- What keeps its value when it passes through a point in between keeps it over the pieces of a
move. -/
theorem foldl_movePoints_split {f : Option ℝ → ℝ → Option ℝ}
    (hf : ∀ {p m q : ℝ}, m ∈ Set.uIcc p q → ∀ bound,
      [p, m, m, q].foldl f bound = [p, q].foldl f bound)
    {targets targets' : List (Option ℝ)} {start mid finish : List ℝ}
    (hnamed : targets'.map Option.isSome = targets.map Option.isSome)
    (h : PassesThrough targets start mid finish) (axis : Nat) (bound : Option ℝ) :
    (movePoints targets' start mid axis ++ movePoints targets mid finish axis).foldl f bound =
      (movePoints targets start finish axis).foldl f bound := by
  have hjoin (xs : List (Option ℝ)) :
      (xs[axis]?.join).isSome = ((xs.map Option.isSome)[axis]?).getD false := by
    rw [List.getElem?_map]
    rcases xs[axis]? with _ | _ | x <;> rfl
  have haxis : (targets'[axis]?.join).isSome = (targets[axis]?.join).isSome := by
    rw [hjoin, hjoin, hnamed]
  cases htarget : targets[axis]?.join with
  | none =>
      rw [htarget, Option.isSome_none, Option.isSome_eq_false_iff, Option.isNone_iff_eq_none]
        at haxis
      rw [movePoints_of_unnamed haxis, movePoints_of_unnamed htarget,
        movePoints_of_unnamed htarget, List.nil_append]
  | some target =>
      rw [htarget, Option.isSome_some] at haxis
      obtain ⟨target', htarget'⟩ := Option.isSome_iff_exists.1 haxis
      obtain ⟨p, m, q, hp, hm, hq, hbetween⟩ := h axis target htarget
      rw [movePoints_of_named htarget' hp hm, movePoints_of_named htarget hm hq,
        movePoints_of_named htarget hp hq]
      exact hf hbetween bound

/-- **The bounds of a move are those of its pieces.** -/
theorem observe_split (b : Bounds ℝ) {targets targets' : List (Option ℝ)}
    {start mid finish : List ℝ} (hnamed : targets'.map Option.isSome = targets.map Option.isSome)
    (h : PassesThrough targets start mid finish) :
    (b.observe (movePoints targets' start mid)).observe (movePoints targets mid finish) =
      b.observe (movePoints targets start finish) := by
  rw [observe_observe]
  simp only [observe, foldl_movePoints_split foldl_lower_between hnamed h,
    foldl_movePoints_split foldl_upper_between hnamed h]

end Bounds

/-- **The envelope of a move is that of its pieces.** -/
theorem Envelope.addMove_split (e : Envelope ℝ) {targets targets' : List (Option ℝ)}
    {work work' work'' machine machine' machine'' : List ℝ}
    (hnamed : targets'.map Option.isSome = targets.map Option.isSome)
    (hwork : PassesThrough targets work work' work'')
    (hmachine : PassesThrough targets machine machine' machine'') :
    (e.addMove targets' work work' machine machine').addMove targets work' work'' machine'
        machine'' = e.addMove targets work work'' machine machine'' := by
  have hmoved : (e.moved.zipWith (fun moved target => moved || target.isSome) targets').zipWith
      (fun moved target => moved || target.isSome) targets =
        e.moved.zipWith (fun moved target => moved || target.isSome) targets := by
    refine List.ext_getElem? fun axis => ?_
    have haxis := congrArg (·[axis]?) hnamed
    simp only [List.getElem?_map] at haxis
    simp only [List.getElem?_zipWith]
    rcases e.moved[axis]? with _ | moved
    · rfl
    rcases htarget' : targets'[axis]? with _ | target' <;>
      rcases htarget : targets[axis]? with _ | target <;> simp [htarget, htarget'] at haxis ⊢
    simp [haxis]
  simp only [addMove, Bounds.observe_split _ hnamed hwork, Bounds.observe_split _ hnamed hmachine,
    hmoved]

/-! ### The points of the pieces -/

namespace State

/-- The targets that lead a part of the way to others, on the same axes. -/
noncomputable def partway (s : State ℝ) (k : ℝ) (targets : List (Option ℝ)) : List (Option ℝ) :=
  targets.zipWith (fun target here => target.map fun there => here + k * (there - here)) s.work

variable {s s' : State ℝ} {k : ℝ} {targets : List (Option ℝ)}

/-- On each axis the way to a point partway ends at the same part of the whole way. -/
theorem getElem?_destination_partway (s : State ℝ) (k : ℝ) (targets : List (Option ℝ))
    (axis : Nat) : (s.destination (s.partway k targets))[axis]? =
      match (s.destination targets)[axis]?, s.work[axis]? with
      | some there, some here => some (here + k * (there - here))
      | _, _ => none := by
  simp only [destination, partway, List.getElem?_zipWith]
  rcases targets[axis]? with _ | _ | there <;> rcases s.work[axis]? with _ | here <;> simp

/-- The first piece goes a part of each axis's way. -/
theorem axisTravels_partway (hk : 0 < k) (s : State ℝ) (targets : List (Option ℝ)) :
    s.axisTravels (s.destination (s.partway k targets)) =
      scale k (s.axisTravels (s.destination targets)) := by
  refine List.ext_getElem? fun axis => ?_
  simp only [axisTravels, List.getElem?_zipWith, getElem?_scale, getElem?_destination_partway]
  rcases (s.destination targets)[axis]? with _ | there <;> rcases s.work[axis]? with _ | here
  · rfl
  · rfl
  · rfl
  · change some |here + k * (there - here) - here| = some (k * |there - here|)
    rw [add_sub_cancel_left, abs_mul, abs_of_pos hk]

/-- The second piece ends where the whole does. -/
theorem destination_of_partway (hwork : s'.work = s.destination (s.partway k targets)) :
    s'.destination targets = s.destination targets := by
  refine List.ext_getElem? fun axis => ?_
  rw [destination, hwork]
  simp only [destination, partway, List.getElem?_zipWith]
  rcases targets[axis]? with _ | _ | there <;> rcases s.work[axis]? with _ | here <;> rfl

/-- The second piece goes the rest of each axis's way. -/
theorem axisTravels_of_partway (hk : k < 1)
    (hwork : s'.work = s.destination (s.partway k targets)) :
    s'.axisTravels (s'.destination targets) =
      scale (1 - k) (s.axisTravels (s.destination targets)) := by
  rw [destination_of_partway hwork]
  refine List.ext_getElem? fun axis => ?_
  simp only [axisTravels, hwork, List.getElem?_zipWith, getElem?_scale,
    getElem?_destination_partway]
  rcases (s.destination targets)[axis]? with _ | there <;> rcases s.work[axis]? with _ | here
  · rfl
  · rfl
  · rfl
  · change some |there - (here + k * (there - here))| = some ((1 - k) * |there - here|)
    have hrest : there - (here + k * (there - here)) = (1 - k) * (there - here) := by ring
    rw [hrest, abs_mul, abs_of_pos (sub_pos.2 hk)]

/-- A move to another point has a length. -/
theorem norm_axisTravels_pos {n : Nat} (hwork : s.work.length = n) {finish : List ℝ}
    (hfinish : finish.length = n) (h : finish ≠ s.work) :
    0 < Scalar.norm (s.axisTravels finish) := by
  obtain ⟨axis, hn, hne⟩ : ∃ (axis : Nat) (_ : axis < n), finish[axis]? ≠ s.work[axis]? := by
    by_contra! hall
    refine h (List.ext_getElem? fun axis => ?_)
    by_cases hn : axis < n
    · exact hall axis hn
    · rw [List.getElem?_eq_none (by omega), List.getElem?_eq_none (by omega)]
  have hthere : finish[axis]? = some finish[axis] := List.getElem?_eq_getElem (by omega)
  have hhere : s.work[axis]? = some s.work[axis] := List.getElem?_eq_getElem (by omega)
  have hmem : |finish[axis] - s.work[axis]| ∈ s.axisTravels finish := by
    refine List.mem_of_getElem? (i := axis) ?_
    rw [axisTravels, List.getElem?_zipWith, hthere, hhere]
    rfl
  refine Exact.norm_pos_of_mem hmem (abs_ne_zero.2 (sub_ne_zero.2 ?_))
  rw [hthere, hhere] at hne
  exact fun heq => hne (congrArg some heq)

/-- A point partway lies between the ends. -/
theorem partway_mem_uIcc (hk : 0 < k) (hk' : k < 1) (p q : ℝ) : p + k * (q - p) ∈ Set.uIcc p q := by
  have hk'' : 0 < 1 - k := sub_pos.2 hk'
  rw [Set.mem_uIcc]
  rcases le_total p q with h | h
  · have hfirst := mul_nonneg hk.le (sub_nonneg.2 h)
    have hrest := mul_nonneg hk''.le (sub_nonneg.2 h)
    exact .inl ⟨by linarith, by linarith⟩
  · have hfirst := mul_nonneg hk.le (sub_nonneg.2 h)
    have hrest := mul_nonneg hk''.le (sub_nonneg.2 h)
    exact .inr ⟨by linarith, by linarith⟩

/-- The pieces name the axes that the whole names. -/
theorem map_isSome_partway (hlength : targets.length = s.work.length) :
    (s.partway k targets).map Option.isSome = targets.map Option.isSome := by
  refine List.ext_getElem? fun axis => ?_
  simp only [partway, List.getElem?_map, List.getElem?_zipWith]
  cases htarget : targets[axis]? with
  | none => rfl
  | some target =>
      obtain ⟨haxis, -⟩ := List.getElem?_eq_some_iff.1 htarget
      rw [List.getElem?_eq_getElem (hlength ▸ haxis)]
      cases target <;> rfl

/-- The whole way passes through the point partway. -/
theorem passesThrough_partway (hk : 0 < k) (hk' : k < 1)
    (hlength : targets.length = s.work.length) :
    PassesThrough targets s.work (s.destination (s.partway k targets)) (s.destination targets) := by
  intro axis target htarget
  rw [Option.join_eq_some_iff] at htarget
  obtain ⟨haxis, -⟩ := List.getElem?_eq_some_iff.1 htarget
  have hhere : s.work[axis]? = some s.work[axis] := List.getElem?_eq_getElem (hlength ▸ haxis)
  have hthere : (s.destination targets)[axis]? = some target := by
    rw [destination, List.getElem?_zipWith, htarget, hhere]
    rfl
  refine ⟨_, _, _, hhere, ?_, hthere, partway_mem_uIcc hk hk' _ _⟩
  rw [getElem?_destination_partway, hthere, hhere]

end State

/-- A way passes through the same point in machine coordinates. -/
theorem PassesThrough.toMachine {targets : List (Option ℝ)} {start mid finish : List ℝ}
    (h : PassesThrough targets start mid finish) (f : Frame ℝ) :
    PassesThrough targets (f.toMachine start) (f.toMachine mid) (f.toMachine finish) := by
  intro axis target htarget
  obtain ⟨p, m, q, hp, hm, hq, hbetween⟩ := h axis target htarget
  refine ⟨p + f.shift f.work axis - f.shift .machine axis, m + f.shift f.work axis -
    f.shift .machine axis, q + f.shift f.work axis - f.shift .machine axis, ?_, ?_, ?_, ?_⟩
  · rw [Frame.toMachine, Frame.convert, List.getElem?_mapIdx, hp]
    rfl
  · rw [Frame.toMachine, Frame.convert, List.getElem?_mapIdx, hm]
    rfl
  · rw [Frame.toMachine, Frame.convert, List.getElem?_mapIdx, hq]
    rfl
  · rw [Set.mem_uIcc] at hbetween ⊢
    rcases hbetween with ⟨hle, hle'⟩ | ⟨hle, hle'⟩
    · exact .inl ⟨by linarith, by linarith⟩
    · exact .inr ⟨by linarith, by linarith⟩

namespace State

/-- The pieces of a move from a position that reads the same in both frames have the envelope of
the whole. -/
theorem envelope_split {s : State ℝ} {k : ℝ} (hk : 0 < k) (hk' : k < 1)
    {targets : List (Option ℝ)} (hlength : targets.length = s.work.length)
    (hmachine : s.machine = s.frame.toMachine s.work) :
    (s.envelope.addMove (s.partway k targets) s.work (s.destination (s.partway k targets))
        s.machine (s.frame.toMachine (s.destination (s.partway k targets)))).addMove targets
        (s.destination (s.partway k targets)) (s.destination targets)
        (s.frame.toMachine (s.destination (s.partway k targets)))
        (s.frame.toMachine (s.destination targets)) =
      s.envelope.addMove targets s.work (s.destination targets) s.machine
        (s.frame.toMachine (s.destination targets)) := by
  have hpasses := passesThrough_partway hk hk' hlength
  refine Envelope.addMove_split _ (map_isSome_partway hlength) hpasses ?_
  rw [hmachine]
  exact hpasses.toMachine s.frame

/-- The way to a point partway depends on the position only. -/
theorem partway_congr {s s' : State ℝ} (h : s'.work = s.work) (k : ℝ)
    (targets : List (Option ℝ)) : s'.partway k targets = s.partway k targets := by
  rw [partway, partway, h]

end State

/-- The pose after a move that ends with some axis feeds. -/
noncomputable def Pose.moved (p : Pose ℝ) (targets : List (Option ℝ)) (feeds : Option (List ℝ)) :
    Pose ℝ :=
  let work := targets.zipWith (fun target here => target.getD here) p.work
  let machine := p.frame.toMachine work
  { p with
    work
    machine
    axisFeeds := feeds
    envelope := p.envelope.addMove targets p.work work p.machine machine }

/-- **The pieces of a move end in the pose of the whole**, if they end with the same feeds. -/
theorem Pose.moved_moved {s : State ℝ} {k : ℝ} (hk : 0 < k) (hk' : k < 1)
    {targets : List (Option ℝ)} (hlength : targets.length = s.work.length)
    (hmachine : s.machine = s.frame.toMachine s.work) (feeds : Option (List ℝ)) :
    (s.pose.moved (s.partway k targets) feeds).moved targets feeds =
      s.pose.moved targets feeds := by
  have hmid : State.work { s with work := s.destination (s.partway k targets) } =
      s.destination (s.partway k targets) := rfl
  have hfinish : targets.zipWith (fun target here => target.getD here)
      (s.destination (s.partway k targets)) = s.destination targets :=
    State.destination_of_partway hmid
  have henvelope := State.envelope_split hk hk' hlength hmachine
  rw [← hfinish] at henvelope
  refine Pose.mk.injEq .. ▸
    ⟨rfl, hfinish, congrArg s.frame.toMachine hfinish, rfl, rfl, rfl, rfl, ?_⟩
  refine henvelope.trans ?_
  rw [hfinish]
  rfl

namespace MoveOrder

/-! ### Orders of pieces -/

/-- A straight move outside inverse-time mode. -/
structure Straight (o : MoveOrder ℝ) (units : Units) (feed : Option ℝ) : Prop where
  travel : o.travel = none
  units : o.state.settings.units = units
  mode : o.state.settings.inverseFeed = false
  feed : o.feed = feed

/-- The length of a straight move. -/
theorem Straight.distance {o : MoveOrder ℝ} {units : Units} {feed : Option ℝ}
    (h : o.Straight units feed) : o.distance = Scalar.norm o.travels := by
  rw [MoveOrder.distance, h.travel]
  rfl

/-- A feed move from rest reaches its feed within the way that the slowest acceleration takes to
it. -/
theorem Straight.rampWay_le {c : Config ℝ} {o : MoveOrder ℝ} {units : Units} {f a ramp : ℝ}
    (h : o.Straight units (some f)) (hrest : o.state.axisFeeds = none) (hf : 0 < f) (ha : 0 < a)
    (hacceleration : ∀ axis, a ≤ c.accelerationIn units axis)
    (hramp : ramp ∈ {r | ∃ (axis : Nat) (d : ℝ), o.travels[axis]? = some d ∧
      o.axisRamp c axis (f * d / o.distance) = r}) :
    (Scalar.norm o.entryFeeds / Scalar.sixty + f / Scalar.sixty) / 2 * ramp ≤
      (f / 60) ^ 2 / (2 * a) := by
  have hentry : o.entryFeeds = o.travels.map fun _ => 0 := by
    rw [MoveOrder.entryFeeds, hrest]
    rfl
  have hnorm : Scalar.norm o.entryFeeds = 0 := by
    rw [hentry, Scalar.norm, Exact.sum_eq]
    change Real.sqrt _ = 0
    simp
  obtain ⟨axis, d, hd, rfl⟩ := hramp
  have hfeedAt : Timing.feedAt o.entryFeeds axis = 0 := by
    rw [Timing.feedAt, hentry, List.getElem?_map, hd]
    rfl
  have hmem := List.mem_of_getElem? hd
  have hnonneg : 0 ≤ d := o.state.axisTravels_nonneg _ d hmem
  have hle : d ≤ o.distance := by
    rw [h.distance]
    exact (le_abs_self d).trans (Exact.abs_le_norm_of_mem hmem)
  have hdistance : 0 ≤ o.distance := hnonneg.trans hle
  have hshare : |f * d / o.distance| ≤ f := by
    rw [abs_of_nonneg (by positivity)]
    exact div_le_of_le_mul₀ hdistance hf.le (by gcongr)
  have haxis : o.axisRamp c axis (f * d / o.distance) ≤ f / 60 / a := by
    rw [axisRamp, hfeedAt, sub_zero, h.units, Exact.sixty_eq]
    gcongr
    exact hacceleration axis
  rw [hnorm, Exact.sixty_eq, zero_div, zero_add]
  calc f / 60 / 2 * o.axisRamp c axis (f * d / o.distance)
      ≤ f / 60 / 2 * (f / 60 / a) := by gcongr
    _ = (f / 60) ^ 2 / (2 * a) := by field_simp

/-- The time of a move from its duration. -/
theorem time_of_duration {c : Config ℝ} {o : MoveOrder ℝ} {t : ℝ} {feeds : Option (List ℝ)}
    (h : o.duration c = (t, feeds)) : o.time c = max t c.minMoveTime := by
  rw [← Exact.max_eq]
  exact congrArg (fun d => Scalar.max d.1 c.minMoveTime) h

/-- A straight move `o`, and the moves `o₁` and `o₂` that lead along it one after the other, with
a part `k` of the way for the first of them. -/
structure Pieces (c : Config ℝ) (k : ℝ) (units : Units) (feed : Option ℝ)
    (o o₁ o₂ : MoveOrder ℝ) : Prop where
  whole : o.Straight units feed
  first : o₁.Straight units feed
  second : o₂.Straight units feed
  startFirst : o₁.state.pose = o.state.pose
  targetsFirst : o₁.targets = o.state.partway k o.targets
  startSecond : o₂.state.pose = (o₁.next c).pose
  targetsSecond : o₂.targets = o.targets

namespace Pieces

variable {c : Config ℝ} {k : ℝ} {units : Units} {feed : Option ℝ} {o o₁ o₂ : MoveOrder ℝ}
  (h : Pieces c k units feed o o₁ o₂) (hk : 0 < k) (hk' : k < 1)

include h

/-- The second piece starts partway. -/
theorem work_second : o₂.state.work = o.state.destination (o.state.partway k o.targets) := by
  have hwork : o₂.state.work = o₁.state.destination o₁.targets := congrArg Pose.work h.startSecond
  have hwork₁ : o₁.state.work = o.state.work := congrArg Pose.work h.startFirst
  rw [hwork, h.targetsFirst, State.destination, State.destination, hwork₁]

include hk in
theorem travels_first : o₁.travels = scale k o.travels := by
  have hwork : o₁.state.work = o.state.work := congrArg Pose.work h.startFirst
  rw [travels, travels, h.targetsFirst, ← State.axisTravels_partway hk, State.axisTravels,
    State.axisTravels, State.destination, State.destination, hwork]

include hk' in
theorem travels_second : o₂.travels = scale (1 - k) o.travels := by
  rw [travels, travels, h.targetsSecond]
  exact State.axisTravels_of_partway hk' h.work_second

include hk in
theorem distance_first : o₁.distance = k * o.distance := by
  rw [h.first.distance, h.whole.distance, h.travels_first hk, norm_scale hk]

include hk' in
theorem distance_second : o₂.distance = (1 - k) * o.distance := by
  rw [h.second.distance, h.whole.distance, h.travels_second hk', norm_scale (sub_pos.2 hk')]

include hk hk' in
/-- The pieces end with the feeds of the whole and are not faster, and they take as long if the
ramp of a feed move ends within the first of them. -/
theorem durations (hdistance : 0 < o.distance) (hfeed : ∀ f, feed = some f → 0 < f) :
    ∃ feeds t t₁ t₂, o.duration c = (t, some feeds) ∧ o₁.duration c = (t₁, some feeds) ∧
      o₂.duration c = (t₂, some feeds) ∧ t ≤ t₁ + t₂ ∧
      ∀ f, feed = some f →
        (Scalar.norm o.entryFeeds / Scalar.sixty + f / Scalar.sixty) / 2 *
          Timing.longestRamp c units o.entryFeeds (Timing.shares o.travels o.distance f) ≤
            o₁.distance → t = t₁ + t₂ := by
  obtain ⟨feeds, t, t₁, t₂, hwhole, hfirst, hsecond, hle, heq⟩ :=
    Timing.duration_split c hk hk' h.whole.mode h.first.mode h.second.mode
      (h.first.units.trans h.whole.units.symm) (h.second.units.trans h.whole.units.symm)
      o.state.axisFeeds (o.state.axisTravels_nonneg _) hdistance hfeed
  have hstart : o₁.state.axisFeeds = o.state.axisFeeds := congrArg Pose.axisFeeds h.startFirst
  have hfirst' : o₁.duration c = (t₁, some feeds) := by
    change Timing.duration c o₁.state.settings o₁.state.axisFeeds o₁.travels o₁.distance o₁.feed = _
    rw [h.travels_first hk, h.distance_first hk, hstart, h.first.feed]
    exact hfirst
  have hbetween : o₂.state.axisFeeds = some feeds :=
    (congrArg Pose.axisFeeds h.startSecond).trans (congrArg Prod.snd hfirst')
  refine ⟨feeds, t, t₁, t₂, ?_, hfirst', ?_, hle, ?_⟩
  · change Timing.duration c o.state.settings o.state.axisFeeds o.travels o.distance o.feed = _
    rw [h.whole.feed]
    exact hwhole
  · change Timing.duration c o₂.state.settings o₂.state.axisFeeds o₂.travels o₂.distance o₂.feed = _
    rw [h.travels_second hk', h.distance_second hk', hbetween, h.second.feed]
    exact hsecond
  · intro f hf hramp
    rw [h.distance_first hk, ← h.whole.units] at hramp
    exact heq f hf hramp

include hk hk' in
/-- The pieces end in the pose of the whole. -/
theorem pose_next (hlength : o.targets.length = o.state.work.length)
    (hmachine : o.state.machine = o.state.frame.toMachine o.state.work)
    (hfirst : (o₁.duration c).2 = (o.duration c).2)
    (hsecond : (o₂.duration c).2 = (o.duration c).2) : (o₂.next c).pose = (o.next c).pose := by
  have hnext (o : MoveOrder ℝ) :
      (o.next c).pose = o.state.pose.moved o.targets (o.duration c).2 := rfl
  rw [hnext, hnext, h.startSecond, hnext, h.startFirst, h.targetsFirst, h.targetsSecond, hfirst,
    hsecond]
  exact Pose.moved_moved hk hk' hlength hmachine _

include hk hk' in
/-- The pieces take at least as long as the whole. -/
theorem time_le (hc : c.validate = .ok ()) (hdistance : 0 < o.distance)
    (hfeed : ∀ f, feed = some f → 0 < f) : o.time c ≤ o₁.time c + o₂.time c := by
  obtain ⟨feeds, t, t₁, t₂, hwhole, hfirst, hsecond, hle, -⟩ := h.durations hk hk' hdistance hfeed
  rw [time_of_duration hwhole, time_of_duration hfirst, time_of_duration hsecond]
  -- the shortest time of a move counts once for the whole and at least once for the pieces
  have hleast := Config.minMoveTime_nonneg hc
  refine max_le ?_ ?_
  · exact hle.trans (add_le_add (le_max_left _ _) (le_max_left _ _))
  · linarith [le_max_right t₁ c.minMoveTime, le_max_right t₂ c.minMoveTime]

include hk hk' in
/-- The pieces of a feed move take as long as the whole if its ramp ends within the first. -/
theorem time_eq (hc : c.validate = .ok ()) (hleast : c.minMoveTime = 0)
    (hlength : o.travels.length = c.axisCount) (hdistance : 0 < o.distance)
    (hfeed : ∀ f, feed = some f → 0 < f) {f ramp : ℝ} (hf : o.feed = some f)
    (hgreatest : IsGreatest {r | ∃ (axis : Nat) (d : ℝ), o.travels[axis]? = some d ∧
      o.axisRamp c axis (f * d / o.distance) = r} ramp)
    (hramp : (Scalar.norm o.entryFeeds / Scalar.sixty + f / Scalar.sixty) / 2 * ramp ≤
      o₁.distance) : o.time c = o₁.time c + o₂.time c := by
  obtain ⟨feeds, t, t₁, t₂, hwhole, hfirst, hsecond, -, heq⟩ := h.durations hk hk' hdistance hfeed
  have hlongest := Timing.isGreatest_longestRamp hc o.state.settings.units hlength o.entryFeeds
    o.distance f
  obtain rfl := hgreatest.unique hlongest
  rw [h.whole.units] at hramp
  have hsum := heq f (h.whole.feed.symm.trans hf) hramp
  have hnonneg {o : MoveOrder ℝ} {t : ℝ} (ht : o.duration c = (t, some feeds)) : 0 ≤ t :=
    (Timing.duration_nonneg ..).trans_eq (congrArg Prod.fst ht)
  rw [time_of_duration hwhole, time_of_duration hfirst, time_of_duration hsecond, hleast,
    max_eq_left (hnonneg hwhole), max_eq_left (hnonneg hfirst), max_eq_left (hnonneg hsecond),
    hsum]

end Pieces

end MoveOrder

namespace State

/-! ### Lines -/

/-- A line that does nothing but a straight move, outside inverse-time mode: before it moves, it
changes at most settings, and the program goes on after it. -/
structure OnlyMoves (s : State ℝ) (b : Block ℝ) (motion : Motion) (targets : List (Option ℝ))
    (units : Units) (feed : Option ℝ) : Prop where
  asked : s.askedMotion? b = some motion
  straight : motion = .rapid ∨ motion = .linear
  targets : (s.prepare b).blockTargets b = targets
  same : s.SameButSettings (s.prepare b)
  units : (s.prepare b).settings.units = units
  mode : (s.prepare b).settings.inverseFeed = false
  feed : (s.prepare b).feedOf? motion = feed
  goesOn : endsProgram (b.codes 'M') = false

namespace OnlyMoves

variable {s : State ℝ} {b : Block ℝ} {motion : Motion} {targets : List (Option ℝ)} {units : Units}
  {feed : Option ℝ} (h : s.OnlyMoves b motion targets units feed) (c : Config ℝ)

include h

/-- The move of the line is a straight one. -/
theorem moveOrder_straight : (s.moveOrder c b motion).Straight units feed := by
  refine ⟨?_, h.units, h.mode, ?_⟩
  · rcases h.straight with rfl | rfl <;> rfl
  · rw [← h.feed]
    rcases h.straight with rfl | rfl <;> rfl

/-- The move of the line goes from where the machine is to its targets. -/
theorem travels_moveOrder :
    (s.moveOrder c b motion).travels = s.axisTravels (s.destination targets) := by
  have hwork : (s.moveOrder c b motion).state.work = s.work := congrArg Pose.work h.same.pose
  have htargets : (s.moveOrder c b motion).targets = targets := h.targets
  rw [MoveOrder.travels, htargets, axisTravels, axisTravels, destination, destination, hwork]

/-- The line makes its move, ends in the pose that this leads to, and takes its time. -/
theorem evaluate : s.orders c b = [s.moveOrder c b motion] ∧
    (DryRun.evaluate c s b).state.pose = ((s.moveOrder c b motion).next c).pose ∧
    (DryRun.evaluate c s b).result.time = (s.moveOrder c b motion).time c := by
  obtain ⟨horders, hstate, -⟩ := evaluate_moveOrder c h.asked (h.straight.imp_right .inl)
  rw [finish, h.goesOn] at hstate
  refine ⟨horders, congrArg pose hstate, ?_⟩
  obtain ⟨settings, catalogue, hprepare⟩ := h.same
  have hbefore : (s.prepare b).totalTime = s.totalTime := by rw [hprepare]
  change (DryRun.evaluate c s b).state.totalTime - s.totalTime = _
  rw [hstate, ← hbefore]
  exact add_sub_cancel_left _ _

end OnlyMoves

/-- The moves of two lines that lead along the way of another line are its pieces. -/
theorem OnlyMoves.pieces {c : Config ℝ} {s : State ℝ} {k : ℝ} {b b₁ b₂ : Block ℝ}
    {motion : Motion} {targets : List (Option ℝ)} {units : Units} {feed : Option ℝ}
    (h : s.OnlyMoves b motion targets units feed)
    (h₁ : s.OnlyMoves b₁ motion (s.partway k targets) units feed)
    (h₂ : (DryRun.evaluate c s b₁).state.OnlyMoves b₂ motion targets units feed) :
    MoveOrder.Pieces c k units feed (s.moveOrder c b motion) (s.moveOrder c b₁ motion)
      ((DryRun.evaluate c s b₁).state.moveOrder c b₂ motion) where
  whole := h.moveOrder_straight c
  first := h₁.moveOrder_straight c
  second := h₂.moveOrder_straight c
  startFirst := h₁.same.pose.trans h.same.pose.symm
  targetsFirst := by
    have hwork : (s.prepare b).work = s.work := congrArg Pose.work h.same.pose
    change (s.prepare b₁).blockTargets b₁ =
      (s.prepare b).partway k ((s.prepare b).blockTargets b)
    rw [h₁.targets, h.targets, partway_congr hwork]
  startSecond := h₂.same.pose.trans (h₁.evaluate c).2.1
  targetsSecond := h₂.targets.trans h.targets.symm

/-- **Splitting a straight move never makes it faster.** In a state whose lists fit an accepted
configuration and whose two positions agree, as is the case after every run, let a line do nothing
but a rapid move or a feed move to another point, outside inverse-time mode, and let two lines lead
there through a point partway, naming the same axes at the same feed and in the same units. The two
lines take at least as long as the one and end in the same pose, that is with the same positions,
axis feeds and envelope. If no shortest time of a move is set and the ramp of a feed move ends
within the first piece, they take as long. -/
theorem split_not_faster {c : Config ℝ} (hc : c.validate = .ok ()) {s : State ℝ}
    (hshaped : s.pose.Shaped c) (hconsistent : s.pose.Consistent) {k : ℝ} (hk : 0 < k)
    (hk' : k < 1) {b b₁ b₂ : Block ℝ} {motion : Motion} {targets : List (Option ℝ)} {units : Units}
    {feed : Option ℝ} (h : s.OnlyMoves b motion targets units feed)
    (h₁ : s.OnlyMoves b₁ motion (s.partway k targets) units feed)
    (h₂ : (evaluate c s b₁).state.OnlyMoves b₂ motion targets units feed)
    (hne : s.destination targets ≠ s.work) :
    (evaluate c s b).result.time ≤
        (evaluate c s b₁).result.time +
          (evaluate c (evaluate c s b₁).state b₂).result.time ∧
      (evaluate c (evaluate c s b₁).state b₂).state.pose = (evaluate c s b).state.pose ∧
      (c.minMoveTime = 0 → ∀ o o₁ f ramp, s.orders c b = [o] → s.orders c b₁ = [o₁] →
        o.feed = some f →
        IsGreatest {r | ∃ (axis : Nat) (d : ℝ), o.travels[axis]? = some d ∧
          o.axisRamp c axis (f * d / o.distance) = r} ramp →
        (Scalar.norm o.entryFeeds / Scalar.sixty + f / Scalar.sixty) / 2 * ramp ≤ o₁.distance →
        (evaluate c s b).result.time =
          (evaluate c s b₁).result.time +
            (evaluate c (evaluate c s b₁).state b₂).result.time) := by
  have hpieces := h.pieces h₁ h₂
  obtain ⟨horders, hpose, htime⟩ := h.evaluate c
  obtain ⟨horders₁, -, htime₁⟩ := h₁.evaluate c
  obtain ⟨-, hpose₂, htime₂⟩ := h₂.evaluate c
  have hprepared : (s.moveOrder c b motion).state.pose.Shaped c := h.same.pose.symm ▸ hshaped
  have hlength : (s.moveOrder c b motion).targets.length = c.axisCount :=
    hprepared.length_leg (.words _ b)
  have hdistance : 0 < (s.moveOrder c b motion).distance := by
    have htargets : targets.length = c.axisCount :=
      (congrArg List.length h.targets).symm.trans hlength
    rw [hpieces.whole.distance, h.travels_moveOrder]
    exact norm_axisTravels_pos hshaped.work (hshaped.length_destination htargets) hne
  have hfeed : ∀ f, feed = some f → 0 < f := fun f hf => feedOf?_pos (h.feed.trans hf)
  rw [htime, htime₁, htime₂, hpose, hpose₂]
  refine ⟨hpieces.time_le hk hk' hc hdistance hfeed, ?_, ?_⟩
  · obtain ⟨feeds, t, t₁, t₂, hwhole, hfirst, hsecond, -, -⟩ :=
      hpieces.durations hk hk' hdistance hfeed
    have hagree : (s.moveOrder c b motion).state.pose.Consistent := h.same.pose.symm ▸ hconsistent
    refine hpieces.pose_next hk hk' (hlength.trans hprepared.work.symm) hagree.both.2 ?_ ?_
    · rw [hfirst, hwhole]
    · rw [hsecond, hwhole]
  · intro hleast o o₁ f ramp ho ho₁ hf hgreatest hramp
    obtain rfl := List.singleton_inj.1 (horders.symm.trans ho)
    obtain rfl := List.singleton_inj.1 (horders₁.symm.trans ho₁)
    exact hpieces.time_eq hk hk' hc hleast (hprepared.length_axisTravels hlength) hdistance hfeed hf
      hgreatest hramp

/-- A feed move along two axes. -/
noncomputable def diagonal : Block ℝ :=
  .ofWords [⟨'G', Scalar.ofNat 1⟩, ⟨'X', Scalar.ofNat 30⟩, ⟨'Y', Scalar.ofNat 40⟩,
    ⟨'F', Scalar.ofNat 600⟩]

/-- Half of its way. -/
noncomputable def halfDiagonal : Block ℝ :=
  .ofWords [⟨'G', Scalar.ofNat 1⟩, ⟨'X', Scalar.ofNat 15⟩, ⟨'Y', Scalar.ofNat 20⟩,
    ⟨'F', Scalar.ofNat 600⟩]

/-- A plain line in absolute coordinates that gives a feed does nothing but its move. -/
theorem Plain.onlyMoves {s : State ℝ} {b : Block ℝ} (h : Plain b .linear) {axes : List Char}
    {work : List ℝ} {settings : Settings ℝ} (hs : s.Stands axes work settings)
    (hnamed : anyNamed (axisWords axes b) = true) (hincremental : settings.incremental = false)
    (hmode : settings.inverseFeed = false) {f : ℝ}
    (hfeed : (b.get? 'F').filter (0 ≤ ·) = some f) (hf : 0 < f) :
    s.OnlyMoves b .linear ((axisWords axes b).zipWith (fun word _ => word) work) settings.units
      (some f) := by
  have hprepared := h.stands_prepare_of_feed hs hfeed
  refine ⟨h.askedMotion? hs hnamed, .inr rfl,
    hprepared.blockTargets hincremental h.not_mem_codes, h.same s, ?_, ?_, hprepared.feed? hf, ?_⟩
  · rw [hprepared.settings]
  · rw [hprepared.settings]
    exact hmode
  · rw [h.switches]
    rfl

/-- From the origin of the standard machine the diagonal takes as long as its two halves: its ramp
ends within the first one. -/
theorem split_not_faster_diagonal :
    ∃ s₀ s₁ : State ℝ, start? .standard = .ok s₀ ∧
      s₁ = (evaluate .standard s₀ halfDiagonal).state ∧
      (evaluate .standard s₀ diagonal).result.time =
        (evaluate .standard s₀ halfDiagonal).result.time +
          (evaluate .standard s₁ diagonal).result.time ∧
      (evaluate .standard s₁ diagonal).state.pose =
        (evaluate .standard s₀ diagonal).state.pose := by
  have hdiagonal : Plain diagonal .linear :=
    plain_ofWords (Exact.toCode_ofNat (by decide)) rfl (by simp)
  have hhalf : Plain halfDiagonal .linear :=
    plain_ofWords (Exact.toCode_ofNat (by decide)) rfl (by simp)
  have hpos : (0 : ℝ) < Scalar.ofNat 600 := by rw [Exact.ofNat_eq]; norm_num
  have hfeed : (diagonal.get? 'F').filter (0 ≤ ·) = some (Scalar.ofNat 600) := by
    simp [diagonal, Block.get?, Block.ofWords]
  have hfeed' : (halfDiagonal.get? 'F').filter (0 ≤ ·) = some (Scalar.ofNat 600) := by
    simp [halfDiagonal, Block.get?, Block.ofWords]
  have h : (start .standard).OnlyMoves diagonal .linear
      [some (Scalar.ofNat 30), some (Scalar.ofNat 40), none] .mm (some (Scalar.ofNat 600)) :=
    hdiagonal.onlyMoves stands_start_standard rfl rfl rfl hfeed hpos
  have h₁ : (start .standard).OnlyMoves halfDiagonal .linear
      [some (Scalar.ofNat 15), some (Scalar.ofNat 20), none] .mm (some (Scalar.ofNat 600)) :=
    hhalf.onlyMoves stands_start_standard rfl rfl rfl hfeed' hpos
  have hmiddle := hhalf.stands_evaluate stands_start_standard rfl rfl (.inr (.inl rfl)) .standard
  have h₂ : (evaluate .standard (start .standard) halfDiagonal).state.OnlyMoves diagonal .linear
      [some (Scalar.ofNat 30), some (Scalar.ofNat 40), none] .mm (some (Scalar.ofNat 600)) :=
    hdiagonal.onlyMoves hmiddle rfl rfl rfl hfeed hpos
  have hpartway : (start .standard).partway (1 / 2)
      [some (Scalar.ofNat 30), some (Scalar.ofNat 40), none] =
        [some (Scalar.ofNat 15), some (Scalar.ofNat 20), none] := by
    rw [partway, work_start_standard]
    simp only [List.zipWith_cons_cons, List.zipWith_nil_left, Option.map_some, Option.map_none,
      Exact.ofNat_eq]
    norm_num
  have hne : (start .standard : State ℝ).destination
      [some (Scalar.ofNat 30), some (Scalar.ofNat 40), none] ≠ (start .standard).work := by
    rw [destination, work_start_standard]
    simp
  obtain ⟨-, hpose, htime⟩ := split_not_faster Exact.standard_validate
    (Pose.shaped_start Exact.standard_validate) (.inl rfl) (by norm_num) (by norm_num) h
    (hpartway ▸ h₁) h₂ hne
  refine ⟨_, _, start?_of_validate Exact.standard_validate, rfl, ?_, hpose⟩
  obtain ⟨horders, -, -⟩ := h.evaluate .standard
  obtain ⟨horders₁, -, -⟩ := h₁.evaluate .standard
  have hstraight := h.moveOrder_straight .standard
  have hrest : ((start .standard).moveOrder .standard diagonal .linear).state.axisFeeds = none :=
    congrArg Pose.axisFeeds h.same.pose
  have htravels := h.travels_moveOrder .standard
  have hdistance₁ : 15 ≤ ((start .standard).moveOrder .standard halfDiagonal .linear).distance := by
    rw [(h₁.moveOrder_straight .standard).distance, h₁.travels_moveOrder, destination,
      axisTravels, work_start_standard]
    change 15 ≤ Scalar.norm [|Scalar.ofNat 15 - 0|, |Scalar.ofNat 20 - 0|, |0 - 0|]
    refine le_trans ?_ (Exact.abs_le_norm_of_mem List.mem_cons_self)
    norm_num
  generalize (start .standard).moveOrder .standard diagonal .linear = o at *
  have hlength : o.travels.length = Config.axisCount (.standard : Config ℝ) := by
    rw [htravels, destination, axisTravels, work_start_standard]
    rfl
  have hgreatest := Timing.isGreatest_longestRamp Exact.standard_validate o.state.settings.units
    hlength o.entryFeeds o.distance (Scalar.ofNat 600)
  have hway := hstraight.rampWay_le (a := Scalar.ofNat 500) hrest hpos (by simp) (fun _ => le_rfl)
    hgreatest.1
  refine htime rfl o _ _ _ horders horders₁ hstraight.feed hgreatest (hway.trans ?_)
  refine le_trans ?_ hdistance₁
  norm_num

end State

end DryRun

import DryRun.Proofs.Bounds
import DryRun.Proofs.Checked
import DryRun.Proofs.Shape

/-!
# Every index is in range

For a shaped state and an accepted configuration the evaluation with checked indices always
has a result, and it is that of the evaluator (`Checked.evaluate_eq`). So no line, whatever
its words, makes a machine read or write outside one of its lists, and no limit is asked for
an axis that has none.

Two lemmas about loops carry the proofs: `Checked.forAxes_eq` for a loop whose state after
`k` axes is known, and `Checked.collect_eq` for a loop that puts a list together.
-/

namespace DryRun

variable {α β : Type}

namespace Checked

/-! ### Loops over axes -/

/-- A write at an index that exists. -/
theorem write_eq {xs : List β} {index : Nat} (h : index < xs.length) (x : β) :
    write xs index x = some (xs.set index x) := if_pos h

/-- A loop runs through if each of its steps leads from one known state to the next. -/
theorem forAxes_eq {n : Nat} {body : β → Nat → Option β} {start finish : β} (state : Nat → β)
    (hstart : state 0 = start) (hfinish : state n = finish)
    (h : ∀ k, k < n → body (state k) k = some (state (k + 1))) :
    forAxes n start body = some finish := by
  rw [forAxes, ← hstart, ← hfinish]
  clear hfinish
  induction n with
  | zero => rfl
  | succ n ih =>
      rw [List.range_succ, List.foldlM_append, ih fun k hk => h k (Nat.lt_succ_of_lt hk)]
      simp [h n (Nat.lt_succ_self n)]

/-- A loop puts a list together if each of its steps gives the entry of that list. -/
theorem collect_eq {n : Nat} {entry : Nat → Option β} (xs : List β) (hlength : xs.length = n)
    (h : ∀ k, k < n → entry k = xs[k]?) : collect n entry = some xs := by
  rw [collect]
  induction n generalizing xs with
  | zero =>
      obtain rfl := List.length_eq_zero_iff.mp hlength
      rfl
  | succ n ih =>
      have hne : xs ≠ [] := List.ne_nil_of_length_eq_add_one hlength
      have hdrop : xs.dropLast.length = n := by simp [hlength]
      have hlast : xs[n]? = some (xs.getLast hne) := by
        rw [List.getLast_eq_getElem, List.getElem?_eq_getElem (by omega)]
        simp [hlength]
      rw [List.range_succ, List.mapM_append, ih xs.dropLast hdrop]
      · simp only [List.mapM_cons, List.mapM_nil, h n (Nat.lt_succ_self n), hlast,
          Option.pure_def, Option.bind_eq_bind, Option.bind_some, Option.some.injEq]
        exact List.dropLast_concat_getLast hne
      · intro k hk
        rw [h k (Nat.lt_succ_of_lt hk), List.getElem?_dropLast, if_pos (by omega)]

/-- A list whose first `k` entries are those of another one. -/
theorem getElem?_take_append_drop {xs ys : List β} {k : Nat} (hk : k ≤ ys.length)
    (i : Nat) : (ys.take k ++ xs.drop k)[i]? = if i < k then ys[i]? else xs[i]? := by
  rw [List.getElem?_append, List.length_take, Nat.min_eq_left hk]
  split
  · next hi => rw [List.getElem?_take_of_lt hi]
  · next hi => rw [List.getElem?_drop, Nat.add_sub_cancel' (Nat.le_of_not_lt hi)]

/-- The next entry is already the new one. -/
theorem take_append_drop_succ {xs ys : List β} {k : Nat} (hk : k < ys.length)
    (h : ys[k]? = xs[k]?) : ys.take (k + 1) ++ xs.drop (k + 1) = ys.take k ++ xs.drop k := by
  refine List.ext_getElem? fun i => ?_
  rw [getElem?_take_append_drop (by omega), getElem?_take_append_drop (by omega)]
  by_cases hi : i = k
  · simp [hi, h]
  · have hlt : i < k + 1 ↔ i < k := by omega
    simp [hlt]

/-- The next entry is written. -/
theorem write_take_append_drop {xs ys : List β} {k : Nat} {y : β} (hk : k < xs.length)
    (hy : ys[k]? = some y) :
    write (ys.take k ++ xs.drop k) k y = some (ys.take (k + 1) ++ xs.drop (k + 1)) := by
  have hys : k < ys.length := (List.getElem?_eq_some_iff.mp hy).1
  have hlength : k < (ys.take k ++ xs.drop k).length := by simp; omega
  rw [write_eq hlength, Option.some.injEq]
  refine List.ext_getElem? fun i => ?_
  rw [List.getElem?_set, getElem?_take_append_drop (by omega),
    getElem?_take_append_drop (by omega)]
  by_cases hi : i = k
  · subst hi
    rw [if_pos rfl, if_pos hlength, if_pos (Nat.lt_succ_self _), hy]
  · have hlt : i < k + 1 ↔ i < k := by omega
    simp [hlt, Ne.symm hi]

/-- Only an axis that there is can be named. -/
theorem lt_length_of_join_eq_some {words : List (Option α)} {axis : Nat} {word : α}
    (h : words[axis]?.join = some word) : axis < words.length := by
  rw [Option.join_eq_some_iff] at h
  exact (List.getElem?_eq_some_iff.mp h).1

/-- Writing for each named axis gives the list that has the new values there and the old
ones elsewhere. -/
theorem writeNamed_eq {words : List (Option α)} {value : Nat → α → Option β}
    {xs : List β} (ys : List β) (hxs : xs.length = words.length)
    (hys : ys.length = words.length)
    (hnamed : ∀ (axis : Nat) (word : α), words[axis]?.join = some word →
      value axis word = ys[axis]?)
    (hother : ∀ axis : Nat, words[axis]?.join = none → ys[axis]? = xs[axis]?) :
    writeNamed words value xs = some ys := by
  -- after `k` axes the first `k` entries are the new ones
  refine forAxes_eq (fun k => ys.take k ++ xs.drop k) rfl ?_ ?_
  · simp [← hys, hxs]
  intro k hk
  cases hword : words[k]?.join with
  | none =>
      rw [take_append_drop_succ (by omega) (hother k hword)]
  | some word =>
      have hy : ys[k]? = some ys[k] := List.getElem?_eq_getElem (by omega)
      simp only [hnamed k word hword, hy, Option.bind_eq_bind, Option.bind_some]
      exact write_take_append_drop (by omega) hy

variable [Scalar α]

/-! ### Limits are given for every axis -/

/-- A limit without a fault is given for every axis. -/
theorem at?_of_fault?_eq_none {l : Limit α} {field : String} {n axis : Nat}
    (h : l.fault? field n = none) (haxis : axis < n) : l.at? axis = some (l.forAxis axis) := by
  cases l with
  | uniform value => rfl
  | perAxis values =>
      have hlength : values.length = n := by
        simp only [Limit.fault?] at h
        split at h
        · assumption
        · cases h
      have hget : values[axis]? = some values[axis] := List.getElem?_eq_getElem (by omega)
      simp only [Limit.at?, Limit.forAxis, hget, Option.getD_some]

/-- An accepted configuration limits the feed of every axis. -/
theorem maxFeed_at? {c : Config α} (hc : c.validate = .ok ()) {axis : Nat}
    (haxis : axis < c.axisCount) : c.maxFeed.at? axis = some (c.maxFeed.forAxis axis) := by
  have h := Config.validate_eq_ok.mp hc
  simp only [Config.fault?, Option.or_eq_none_iff] at h
  exact at?_of_fault?_eq_none h.1.1.1.2 haxis

/-- An accepted configuration limits the acceleration of every axis. -/
theorem acceleration_at? {c : Config α} (hc : c.validate = .ok ()) {axis : Nat}
    (haxis : axis < c.axisCount) :
    c.acceleration.at? axis = some (c.acceleration.forAxis axis) := by
  have h := Config.validate_eq_ok.mp hc
  simp only [Config.fault?, Option.or_eq_none_iff] at h
  exact at?_of_fault?_eq_none h.1.1.2 haxis

/-- The checked feed limit is the one that the evaluator reads. -/
theorem maxFeed_eq {c : Config α} (hc : c.validate = .ok ()) (units : Units) {axis : Nat}
    (haxis : axis < c.axisCount) : maxFeed c units axis = some (c.maxFeedIn units axis) := by
  rw [maxFeed, maxFeed_at? hc haxis]
  rfl

/-- The checked acceleration is the one that the evaluator reads. -/
theorem acceleration_eq {c : Config α} (hc : c.validate = .ok ()) (units : Units) {axis : Nat}
    (haxis : axis < c.axisCount) :
    acceleration c units axis = some (c.accelerationIn units axis) := by
  rw [acceleration, acceleration_at? hc haxis]
  rfl

/-! ### Actions access no index out of range -/

section Actions

variable {c : Config α} {s : State α}

/-- The system that a line selects exists. -/
theorem offsetSystem?_lt (hs : s.pose.Shaped c) {b : Block α} {index : Nat}
    (h : s.offsetSystem? b = some index) : index < systemCount := by
  have hactive : s.frame.active < systemCount := hs.frame.active
  simp only [State.offsetSystem?] at h
  split at h
  · simp only [selectedSystem?] at h
    split at h
    · obtain rfl := Option.some.inj h
      exact hactive
    · split at h
      · obtain rfl := Option.some.inj h
        exact hactive
      · exact List.mem_range.mp (List.mem_of_find?_eq_some h)
  · cases h

/-- Setting offsets accesses no index out of range. -/
theorem setOffsets_eq (hs : s.pose.Shaped c) {words : List (Option α)}
    (hwords : words.length = c.axisCount) (fromPosition : Bool) {index : Nat}
    (hindex : index < systemCount) :
    setOffsets s fromPosition index words = some (s.setOffsets fromPosition index words) := by
  have hsystems : s.frame.systems.length = systemCount := hs.frame.systems
  have hoffset : s.frame.offset.length = c.axisCount := hs.frame.offset
  have hmachine : s.machine.length = c.axisCount := hs.machine
  have hsystem : index < s.frame.systems.length := by omega
  have hlength : s.frame.systems[index].length = c.axisCount :=
    hs.frame.system _ (List.getElem_mem hsystem)
  have hset : s.frame.systems.set index (s.newOffsets fromPosition words s.frame.systems[index]) =
      s.frame.systems.modify index (s.newOffsets fromPosition words) := by
    rw [List.modify_eq_take_cons_drop hsystem, List.set_eq_take_append_cons_drop, if_pos hsystem]
  rw [setOffsets, List.getElem?_eq_getElem hsystem, Option.bind_eq_bind, Option.bind_some,
    writeNamed_eq (s.newOffsets fromPosition words s.frame.systems[index])]
  · simp only [Option.bind_eq_bind, Option.bind_some, write_eq hsystem, hset]
    rfl
  · omega
  · simp only [State.newOffsets, List.length_mapIdx]
    omega
  · intro axis word hword
    have haxis : axis < c.axisCount := by
      rw [← hwords]
      exact lt_length_of_join_eq_some hword
    have hm : s.machine[axis]? = some s.machine[axis] := List.getElem?_eq_getElem (by omega)
    have ho : s.frame.offset[axis]? = some s.frame.offset[axis] :=
      List.getElem?_eq_getElem (by omega)
    have hold : s.frame.systems[index][axis]? = some s.frame.systems[index][axis] :=
      List.getElem?_eq_getElem (by omega)
    rw [State.newOffsets, List.getElem?_mapIdx, hold, Option.map_some, hword]
    cases fromPosition with
    | false => rfl
    | true =>
        simp only [State.originOffset, Frame.overrideAt, hm, ho]
        cases s.frame.offsetEnabled <;> rfl
  · intro axis hword
    simp [State.newOffsets, hword]

/-- Homing axes accesses no index out of range. -/
theorem homeAxes_eq (hs : s.pose.Shaped c) {words : List (Option α)}
    (hwords : words.length = c.axisCount) : homeAxes s words = some (s.homeAxes words) := by
  have hmachine : s.machine.length = c.axisCount := hs.machine
  rw [homeAxes, writeNamed_eq (s.machine.mapIdx fun axis here =>
    if (words[axis]?.join).isSome then 0 else here)]
  · rfl
  · omega
  · simp only [List.length_mapIdx]
    omega
  · intro axis word hword
    have haxis : axis < words.length := lt_length_of_join_eq_some hword
    have hm : s.machine[axis]? = some s.machine[axis] := List.getElem?_eq_getElem (by omega)
    simp only [List.getElem?_mapIdx, hm, hword, Option.map_some, Option.isSome_some, if_true]
  · intro axis hword
    simp [hword]

/-- Shifting the origin accesses no index out of range. -/
theorem setOrigin_eq (hs : s.pose.Shaped c) {words : List (Option α)}
    (hwords : words.length = c.axisCount) :
    setOrigin s words = some (s.applyOrigin words .set) := by
  have hmachine : s.machine.length = c.axisCount := hs.machine
  have hoffset : s.frame.offset.length = c.axisCount := hs.frame.offset
  have hactive : s.frame.active < s.frame.systems.length := by
    rw [show s.frame.systems.length = systemCount from hs.frame.systems]
    exact hs.frame.active
  have hlength : s.frame.systems[s.frame.active].length = c.axisCount :=
    hs.frame.system _ (List.getElem_mem hactive)
  rw [setOrigin, writeNamed_eq (s.shiftedOffset words)]
  · rfl
  · omega
  · simp only [State.shiftedOffset, List.length_mapIdx]
    omega
  · intro axis word hword
    have haxis : axis < words.length := lt_length_of_join_eq_some hword
    have hm : s.machine[axis]? = some s.machine[axis] := List.getElem?_eq_getElem (by omega)
    have ho : s.frame.offset[axis]? = some s.frame.offset[axis] :=
      List.getElem?_eq_getElem (by omega)
    have hx : s.frame.systems[s.frame.active][axis]? =
        some s.frame.systems[s.frame.active][axis] := List.getElem?_eq_getElem (by omega)
    rw [State.shiftedOffset, List.getElem?_mapIdx, ho, Option.map_some, hword, hm,
      List.getElem?_eq_getElem hactive]
    simp only [Frame.component, Option.bind_eq_bind, Option.bind_some, hx]
    rfl
  · intro axis hword
    simp [State.shiftedOffset, hword]

/-- An action accesses no index out of range. -/
theorem act_eq (hs : s.pose.Shaped c) (b : Block α) (a : Action) :
    act s b a = some (s.act b a) := by
  have hwords : (axisWords s.axes b).length = c.axisCount :=
    (length_axisWords _ _).trans hs.length_axes
  cases a with
  | setSystem =>
      simp only [act, State.act, State.setSystem]
      cases h : s.offsetSystem? b with
      | none => rfl
      | some index => exact setOffsets_eq hs hwords _ (offsetSystem?_lt hs h)
  | storeHome => rfl
  | storeSecondaryHome => rfl
  | homeAxes => exact homeAxes_eq hs hwords
  | origin command =>
      cases command with
      | set => exact setOrigin_eq hs hwords
      | clear | suspend | restore => rfl

end Actions

/-! ### Timing accesses no index out of range -/

section Timing

variable {c : Config α} {travels : List α}

/-- Inverse time accesses no index out of range. -/
theorem inverseTime_eq (hc : c.validate = .ok ()) (htravels : travels.length = c.axisCount)
    (units : Units) (feed : α) :
    inverseTime c units travels feed = some (Timing.inverseTime c units travels feed) := by
  rw [inverseTime, collect_eq (travels.mapIdx fun axis d =>
    d / c.maxFeedIn units axis * Scalar.sixty) List.length_mapIdx]
  · rfl
  · intro axis haxis
    have hd : travels[axis]? = some travels[axis] := List.getElem?_eq_getElem haxis
    rw [List.getElem?_mapIdx, hd, maxFeed_eq hc units (by omega)]
    rfl

/-- The axis feeds at a given feed access no index out of range. -/
theorem feeds_some (units : Units) (travel f : α) :
    feeds c units travels travel (some f) = some (Timing.shares travels travel f) := by
  refine collect_eq _ ?_ ?_
  · exact List.length_map _
  · intro axis haxis
    simp only [Timing.shares, List.getElem?_map, List.getElem?_eq_getElem haxis]
    rfl

/-- The axis feeds of a rapid move access no index out of range. -/
theorem feeds_none (hc : c.validate = .ok ()) (htravels : travels.length = c.axisCount)
    (units : Units) (travel : α) :
    feeds c units travels travel none = some (Timing.rapidFeeds c units travels) := by
  refine collect_eq _ ?_ ?_
  · exact List.length_mapIdx
  · intro axis haxis
    simp only [Timing.rapidFeeds, List.getElem?_mapIdx, List.getElem?_eq_getElem haxis,
      Option.bind_eq_bind, Option.bind_some, Option.map_some,
      maxFeed_eq hc units (htravels ▸ haxis)]
    split <;> rfl

/-- The ramps access no index out of range. -/
theorem ramps_eq (hc : c.validate = .ok ()) {feeds : List α} (hfeeds : feeds.length = c.axisCount)
    (units : Units) (last : List α) :
    ramps c units last feeds = some (feeds.mapIdx fun axis new =>
      Timing.rampTime (Timing.feedAt last axis) new (c.accelerationIn units axis)) := by
  refine collect_eq _ ?_ ?_
  · exact List.length_mapIdx
  · intro axis haxis
    simp only [List.getElem?_mapIdx, List.getElem?_eq_getElem haxis, Option.bind_eq_bind,
      Option.bind_some, Option.map_some, acceleration_eq hc units (hfeeds ▸ haxis)]
    rfl

/-- The time of a feed move accesses no index out of range. -/
theorem timed_some (hc : c.validate = .ok ()) (htravels : travels.length = c.axisCount)
    (units : Units) (last : List α) (travel f : α) :
    timed c units last travels travel (some f) =
      some (Timing.feedTime c units last travels travel f, Timing.shares travels travel f) := by
  have hfeeds : (Timing.shares travels travel f).length = c.axisCount :=
    (List.length_map _).trans htravels
  simp only [timed, feeds_some, Option.bind_eq_bind, Option.bind_some, ramps_eq hc hfeeds]
  rfl

/-- The time of a rapid move accesses no index out of range. -/
theorem timed_none (hc : c.validate = .ok ()) (htravels : travels.length = c.axisCount)
    (units : Units) (last : List α) (travel : α) :
    timed c units last travels travel none =
      some (Timing.rapidTime c units last travels, Timing.rapidFeeds c units travels) := by
  have hfeeds : (Timing.rapidFeeds c units travels).length = c.axisCount :=
    List.length_mapIdx.trans htravels
  simp only [timed, feeds_none hc htravels, Option.bind_eq_bind, Option.bind_some,
    ramps_eq hc hfeeds, rapidTimes]
  rw [collect_eq (travels.mapIdx fun axis d =>
    Timing.rapidAxisTime (Timing.feedAt last axis)
      (Timing.feedAt (Timing.rapidFeeds c units travels) axis) (c.accelerationIn units axis) d)
    List.length_mapIdx]
  · rfl
  · intro axis haxis
    have hfeed : (Timing.rapidFeeds c units travels)[axis]? =
        some (Timing.rapidFeeds c units travels)[axis] := List.getElem?_eq_getElem (by omega)
    simp only [List.getElem?_mapIdx, List.getElem?_eq_getElem haxis, hfeed, Timing.feedAt,
      Timing.rapidAxisTime, Option.map_some, Option.bind_some, Option.getD_some]
    rfl

/-- The duration of a move accesses no index out of range. -/
theorem duration_eq (hc : c.validate = .ok ()) (htravels : travels.length = c.axisCount)
    (settings : Settings α) (last : Option (List α)) (travel : α) (feed : Option α) :
    duration c settings last travels travel feed =
      some (Timing.duration c settings last travels travel feed) := by
  simp only [duration, Timing.duration]
  split
  · rfl
  · cases feed.filter (0 < ·) with
    | none =>
        simp only [timed_none hc htravels]
        rfl
    | some f =>
        cases settings.inverseFeed with
        | true =>
            simp only [inverseTime_eq hc htravels]
            rfl
        | false =>
            simp only [timed_some hc htravels]
            rfl

end Timing

/-! ### Moves access no index out of range -/

section Moves

variable {c : Config α} {s : State α} {targets : List (Option α)}

omit [Scalar α] in
/-- The end of a move accesses no index out of range. -/
theorem destination_eq (hs : s.pose.Shaped c) (ht : targets.length = c.axisCount) :
    destination s targets = some (s.destination targets) := by
  have haxes : s.axes.length = c.axisCount := hs.length_axes
  have hwork : s.work.length = c.axisCount := hs.work
  refine collect_eq _ ?_ ?_
  · exact (hs.length_destination ht).trans haxes.symm
  · intro axis haxis
    have htarget : targets[axis]? = some targets[axis] := List.getElem?_eq_getElem (by omega)
    have hhere : s.work[axis]? = some s.work[axis] := List.getElem?_eq_getElem (by omega)
    simp only [State.destination, List.getElem?_zipWith, htarget, hhere, Option.join_some]
    cases targets[axis] <;> rfl

/-- Two values observed on the next axis extend what was observed on the axes before it. -/
theorem widen_widen {b : Bounds α} {f : Nat → List α} {k : Nat} {x y : α} (hk : f k = [x, y]) :
    ((b.observe fun axis => if axis < k then f axis else []).widen k x).widen k y =
      b.observe fun axis => if axis < k + 1 then f axis else [] := by
  simp only [Bounds.widen, Bounds.observe_observe]
  congr 1
  funext axis
  by_cases haxis : axis = k
  · simp [haxis, hk]
  · have hlt : axis < k + 1 ↔ axis < k := by omega
    simp [haxis, hlt]

omit [Scalar α] in
/-- Nothing to observe on the next axis leaves what was observed on the axes before it. -/
theorem before_succ_of_nil {f : Nat → List α} {k : Nat} (hk : f k = []) :
    (fun axis => if axis < k + 1 then f axis else []) =
      fun axis => if axis < k then f axis else [] := by
  funext axis
  by_cases haxis : axis = k
  · simp [haxis, hk]
  · have hlt : axis < k + 1 ↔ axis < k := by omega
    simp [hlt]

/-- Recording a move accesses no index out of range. -/
theorem addMove_eq {n : Nat} {e : Envelope α} (he : e.Shaped n) (ht : targets.length = n)
    {work work' machine machine' : List α} (hw : work.length = n) (hw' : work'.length = n)
    (hm : machine.length = n) (hm' : machine'.length = n) :
    addMove n e targets work work' machine machine' =
      some (e.addMove targets work work' machine machine') := by
  have hmoved := he.moved
  let marks := e.moved.zipWith (fun moved target => moved || target.isSome) targets
  have hmarks : marks.length = n := by simp [marks, hmoved, ht]
  have hpoints (start finish : List α) :
      (fun axis => if axis < n then movePoints targets start finish axis else []) =
        movePoints targets start finish := by
    funext axis
    split
    · rfl
    · next haxis =>
        have hnone : targets[axis]?.join = none := by
          rw [List.getElem?_eq_none (by omega), Option.join_none]
        rw [movePoints_of_unnamed hnone]
  -- after `k` axes their points are observed and their marks are set
  refine forAxes_eq (fun k => ⟨
    e.work.observe fun axis => if axis < k then movePoints targets work work' axis else [],
    e.machine.observe fun axis => if axis < k then movePoints targets machine machine' axis else [],
    marks.take k ++ e.moved.drop k⟩) ?_ ?_ ?_
  · simp [Bounds.observe_nil]
  · rw [hpoints, hpoints, List.take_of_length_le (by omega), List.drop_of_length_le (by omega),
      List.append_nil]
    rfl
  intro k hk
  have htarget : targets[k]? = some targets[k] := List.getElem?_eq_getElem (by omega)
  have hold : e.moved[k]? = some e.moved[k] := List.getElem?_eq_getElem (by omega)
  have hmark : marks[k]? = some (e.moved[k] || targets[k].isSome) := by
    simp only [marks, List.getElem?_zipWith, hold, htarget]
  cases htk : targets[k] with
  | none =>
      have hnone : targets[k]?.join = none := by rw [htarget, htk, Option.join_some]
      rw [htk, Option.isSome_none, Bool.or_false, ← hold] at hmark
      simp only [hnone, before_succ_of_nil (movePoints_of_unnamed hnone _ _),
        take_append_drop_succ (show k < marks.length by omega) hmark]
  | some target =>
      have hsome : targets[k]?.join = some target := by rw [htarget, htk, Option.join_some]
      have hget (xs : List α) (hxs : xs.length = n) : xs[k]? = some (xs.get ⟨k, by omega⟩) :=
        List.getElem?_eq_getElem (by omega)
      rw [htk, Option.isSome_some, Bool.or_true] at hmark
      simp only [hsome, hget work hw, hget work' hw', hget machine hm, hget machine' hm',
        Option.bind_eq_bind, Option.bind_some,
        write_take_append_drop (show k < e.moved.length by omega) hmark,
        widen_widen (movePoints_of_named hsome (hget work hw) (hget work' hw')),
        widen_widen (movePoints_of_named hsome (hget machine hm) (hget machine' hm'))]
      rfl

/-- A move accesses no index out of range. -/
theorem perform_eq (hc : c.validate = .ok ()) (hs : s.pose.Shaped c)
    (ht : targets.length = c.axisCount) (motion : Motion) (feed travel : Option α)
    (geometry : Geometry α) :
    perform c s motion targets feed travel geometry =
      some (s.perform c motion targets feed travel geometry) := by
  have haxes : s.axes.length = c.axisCount := hs.length_axes
  have hwork : s.work.length = c.axisCount := hs.work
  have hmachine : s.machine.length = c.axisCount := hs.machine
  have henvelope : s.envelope.Shaped c.axisCount := hs.envelope
  have hfinish := hs.length_destination ht
  have htravels := hs.length_axisTravels ht
  simp only [perform, destination_eq hs ht, Option.bind_eq_bind, Option.bind_some,
    duration_eq hc htravels, haxes]
  rw [addMove_eq henvelope ht hwork hfinish hmachine
    ((Frame.length_toMachine _ _).trans hfinish)]
  rfl

/-- A straight move accesses no index out of range. -/
theorem straight_eq (hc : c.validate = .ok ()) (hs : s.pose.Shaped c)
    (ht : targets.length = c.axisCount) (motion : Motion) (feed : Option α)
    (notes : List (Note α)) :
    straight c s motion targets feed notes = some (s.straight c motion targets feed notes) := by
  rw [straight, perform_eq hc hs ht]
  rfl

omit [Scalar α] in
/-- The axis with a label is one of the axes. -/
theorem axisIndex?_lt (hs : s.pose.Shaped c) {label : Char} {axis : Nat}
    (h : s.axisIndex? label = some axis) : axis < c.axisCount := by
  rw [← hs.length_axes]
  exact (List.findIdx?_eq_some_iff_findIdx_eq.mp h).1

/-- The travel along the normal accesses no index out of range. -/
theorem helicalTravel_eq (hs : s.pose.Shaped c) {finish : List α}
    (hfinish : finish.length = c.axisCount) (label : Char) :
    helicalTravel s (s.axisIndex? label) finish =
      some (s.helicalTravel (s.axisIndex? label) finish) := by
  have hwork : s.work.length = c.axisCount := hs.work
  cases h : s.axisIndex? label with
  | none => rfl
  | some axis =>
      have haxis := axisIndex?_lt hs h
      simp only [helicalTravel, State.helicalTravel, State.coordinate,
        List.getElem?_eq_getElem (show axis < finish.length by omega),
        List.getElem?_eq_getElem (show axis < s.work.length by omega)]
      rfl

/-- An arc whose plane and centre are known accesses no index out of range. -/
theorem arcWith_eq (hc : c.validate = .ok ()) (hs : s.pose.Shaped c)
    (ht : targets.length = c.axisCount) (motion : Motion) {first second : Nat}
    (hfirst : first < c.axisCount) (hsecond : second < c.axisCount) (centre : Centre α) :
    arcWith c s motion targets first second centre =
      some (s.arcWith c motion targets first second centre) := by
  have hwork : s.work.length = c.axisCount := hs.work
  have hfinish := hs.length_destination ht
  have hget (xs : List α) (hxs : xs.length = c.axisCount) {axis : Nat}
      (haxis : axis < c.axisCount) : xs[axis]? = some (State.coordinate xs axis) := by
    rw [State.coordinate, List.getElem?_eq_getElem (by omega), Option.getD_some]
  have hset (x : α) : second < (s.work.set first x).length := by
    rw [List.length_set]
    omega
  simp only [arcWith, destination_eq hs ht, Option.bind_eq_bind, Option.bind_some,
    hget s.work hwork hfirst, hget s.work hwork hsecond, hget _ hfinish hfirst,
    hget _ hfinish hsecond, write_eq (show first < s.work.length by omega), write_eq (hset _),
    helicalTravel_eq hs hfinish, perform_eq hc hs ht]
  rfl

/-- An arc accesses no index out of range. -/
theorem arc_eq (hc : c.validate = .ok ()) (hs : s.pose.Shaped c)
    (ht : targets.length = c.axisCount) (b : Block α) (motion : Motion) :
    arc c s b motion targets = some (s.arc c b motion targets) := by
  simp only [arc, State.arc]
  cases hfirst : s.axisIndex? s.settings.plane.first with
  | none => exact straight_eq hc hs ht _ _ _
  | some first =>
      cases hsecond : s.axisIndex? s.settings.plane.second with
      | none => exact straight_eq hc hs ht _ _ _
      | some second =>
          cases State.centre? s.settings.plane b with
          | none => exact straight_eq hc hs ht _ _ _
          | some centre =>
              exact arcWith_eq hc hs ht _ (axisIndex?_lt hs hfirst) (axisIndex?_lt hs hsecond) _

/-- A return to a reference position accesses no index out of range. -/
theorem goHome_eq (hc : c.validate = .ok ()) (hs : s.pose.Shaped c)
    (ht : targets.length = c.axisCount) (motion : Motion) {reference : List α}
    (hreference : reference.length = c.axisCount) :
    goHome c s motion targets reference = some (s.goHome c motion targets reference) := by
  have hlast (f : Frame α) : ((f.toWork reference).map some).length = c.axisCount := by
    simpa using hreference
  have hvia : (s.perform c motion targets none none .line).1.pose.Shaped c := hs.move ht none none
  simp only [goHome, State.goHome]
  split
  · simp only [perform_eq hc hs ht, Option.bind_eq_bind, Option.bind_some,
      perform_eq hc hvia (hlast _)]
    rfl
  · rw [straight_eq hc hs (hlast _)]
    rfl

/-- A motion accesses no index out of range. -/
theorem runMotion?_eq (hc : c.validate = .ok ()) (hs : s.pose.Shaped c)
    (ht : targets.length = c.axisCount) (b : Block α) (motion : Motion) :
    runMotion? c s b motion targets = some (s.runMotion? c b motion targets) := by
  have hhome : s.home.length = c.axisCount := hs.home
  have hsecond : s.secondaryHome.length = c.axisCount := hs.secondaryHome
  cases motion with
  | rapid | linear =>
      simp only [runMotion?, straight_eq hc hs ht]
      rfl
  | arcClockwise | arcCounterclockwise =>
      simp only [runMotion?, arc_eq hc hs ht]
      rfl
  | home =>
      simp only [runMotion?, goHome_eq hc hs ht _ hhome]
      rfl
  | secondaryHome =>
      simp only [runMotion?, goHome_eq hc hs ht _ hsecond]
      rfl
  | unsupported code => rfl

end Moves

/-! ### Lines access no index out of range -/

section Lines

variable {c : Config α} {s : State α}

/-- What a prepared line does accesses no index out of range. -/
theorem step_eq (hc : c.validate = .ok ()) (hs : s.pose.Shaped c) (b : Block α) :
    step c s b = some (s.step c b) := by
  cases ha : Action.ofCodes? (b.codes 'G') with
  | some a =>
      simp only [step, State.step, ha, act_eq hs b a]
      rfl
  | none =>
      have hleg : s.Leg (s.blockTargets b) := .words _ b
      have hselect : (s.selectMotion (b.codes 'G')).pose.Shaped c := hs
      simp only [step, ha]
      rw [State.step_of_no_action c s ha]
      cases hm : s.blockMotion? b with
      | none => rfl
      | some motion =>
          have hrun : runMotion? c (s.selectMotion (b.codes 'G')) b motion
              ((s.selectMotion (b.codes 'G')).blockTargets b) = some _ :=
            runMotion?_eq hc hselect (hs.length_leg hleg) b motion
          simp only [State.moveLine, hrun, Option.bind_eq_bind, Option.bind_some]
          cases (s.selectMotion (b.codes 'G')).runMotion? c b motion (s.blockTargets b) <;> rfl

/-- **No line makes a machine access an index out of range**: the evaluation in which every
access is checked has a result, and it is that of the evaluator. -/
theorem evaluate_eq (hc : c.validate = .ok ()) (hs : s.pose.Shaped c) (b : Block α) :
    evaluate c s b = some (DryRun.evaluate c s b) := by
  simp only [evaluate, step_eq hc (hs.prepare b) b]
  rfl

end Lines

end Checked

end DryRun

import DryRun.Proofs.SkippedMotion

/-!
# The moves that a line orders

The time of a move is computed from four things: the state that the move starts from, its
targets, its feed if it is not a rapid move, and its travel if that is not the straight
distance. A line does not show them. It is read, an arc is resolved and may turn out to be a
straight move, a return passes through a point and starts again from there, and in the end
there are events.

This module lists the moves of a line with all that their times depend on (`State.orders`).
The list is computed from the motion and its legs, without carrying anything out; that the
evaluation makes just these moves, one event for each, is `State.recorded_orders`. So what is
to be said about the timing of a program is said about orders.

## Main results

* `State.arc_eq_perform`: an arc is one move to its end point, whatever becomes of its shape.
* `State.recorded_orders`: the events of a line record its orders, one after the other.
* `State.evaluate_moveOrder`: a line that asks for a straight move or an arc makes one move.
* `State.feed_pos_of_mem_orders`: no order has a feed that is not positive.
* `State.reached_of_mem_orders`: each order starts where the moves before it lead.
-/

namespace DryRun

variable {α : Type}

/-- A move that a line orders. A rapid move has no feed, and a move over the straight distance
has no travel of its own. -/
structure MoveOrder (α : Type) where
  state : State α
  targets : List (Option α)
  feed : Option α
  travel : Option α

variable [Scalar α]

namespace MoveOrder

/-- The distance that each axis travels. -/
def travels (o : MoveOrder α) : List α := o.state.axisTravels (o.state.destination o.targets)

/-- The distance that the move is timed over. -/
def distance (o : MoveOrder α) : α := o.travel.getD (Scalar.norm o.travels)

/-- The axis feeds that the move starts from; at rest they are zero. -/
def entryFeeds (o : MoveOrder α) : List α := o.state.axisFeeds.getD (o.travels.map fun _ => 0)

/-- The time of the move, before the shortest time of a move is applied, and the axis feeds that
it ends with. -/
def duration (c : Config α) (o : MoveOrder α) : α × Option (List α) :=
  o.state.moveDuration c o.targets o.feed o.travel

/-- The time that the move takes. -/
def time (c : Config α) (o : MoveOrder α) : α := o.state.moveTime c o.targets o.feed o.travel

/-- The state after the move. -/
def next (c : Config α) (o : MoveOrder α) : State α := o.state.move c o.targets o.feed o.travel

/-- An event that records an ordered move. -/
structure RecordedBy (c : Config α) (o : MoveOrder α) (e : Event α) : Prop where
  source : e.source = o.state.work
  target : e.target = (o.next c).work
  machineSource : e.machineSource = o.state.machine
  machineTarget : e.machineTarget = (o.next c).machine
  time : e.time = o.time c

/-- A move that is carried out is recorded, with any shape. -/
theorem recordedBy_perform (c : Config α) (s : State α) (motion : Motion)
    (targets : List (Option α)) (feed travel : Option α) (geometry : Geometry α) :
    RecordedBy c ⟨s, targets, feed, travel⟩ (s.perform c motion targets feed travel geometry).2 :=
  ⟨rfl, rfl, rfl, rfl, rfl⟩

end MoveOrder

namespace State

/-! ### The orders of a motion -/

/-- The length that an arc is timed over, if it is not the distance of its ends: its own length,
where the configuration says so and the line describes an arc at all. -/
def arcTravel? (c : Config α) (s : State α) (b : Block α) (motion : Motion)
    (targets : List (Option α)) : Option α :=
  let plane := s.settings.plane
  let finish := s.destination targets
  match s.axisIndex? plane.first, s.axisIndex? plane.second, centre? plane b with
  | some first, some second, some centre =>
    if c.arcLengthTravel then
      some ((s.planeArc first second finish centre (motion = .arcClockwise)).1.length
        (s.helicalTravel (s.axisIndex? plane.normal) finish))
    else none
  | _, _, _ => none

/-- Without the configuration saying so no arc is timed over its length. -/
theorem arcTravel?_of_chord {c : Config α} (hc : c.arcLengthTravel = false) (s : State α)
    (b : Block α) (motion : Motion) (targets : List (Option α)) :
    s.arcTravel? c b motion targets = none := by
  simp only [arcTravel?, hc]
  split <;> rfl

/-- The feed of a motion: only feed moves and arcs have one. -/
def feedOf? (s : State α) : Motion → Option α
  | .linear | .arcClockwise | .arcCounterclockwise => s.feed?
  | .rapid | .home | .secondaryHome | .unsupported _ => none

/-- The travel of a motion, if it is not the straight distance. -/
def travelOf? (c : Config α) (s : State α) (b : Block α) (motion : Motion)
    (targets : List (Option α)) : Option α :=
  if motion.isArc then s.arcTravel? c b motion targets else none

/-- The orders of moves along some legs, each from where the one before it ends. -/
def ordersAlong (c : Config α) (feed travel : Option α) :
    State α → List (List (Option α)) → List (MoveOrder α)
  | _, [] => []
  | s, targets :: legs =>
    ⟨s, targets, feed, travel⟩ :: ordersAlong c feed travel (s.move c targets feed travel) legs

/-- The moves of a motion; one that is not supported has none. -/
def motionOrders (c : Config α) (s : State α) (b : Block α) (motion : Motion)
    (targets : List (Option α)) : List (MoveOrder α) :=
  match motion with
  | .unsupported _ => []
  | _ => ordersAlong c (s.feedOf? motion) (s.travelOf? c b motion targets) s
      (s.legs motion targets)

/-- The moves of a line. -/
def orders (c : Config α) (s : State α) (b : Block α) : List (MoveOrder α) :=
  match s.askedMotion? b with
  | some motion =>
    ((s.prepare b).selectMotion (b.codes 'G')).motionOrders c b motion
      ((s.prepare b).blockTargets b)
  | none => []

/-! ### Motions carry out their orders -/

/-- **An arc is one move to its end point**, at the programmed feed. Its shape, its notes and the
travel that it is timed over are all that its plane and its centre decide. -/
theorem arc_eq_perform (c : Config α) (s : State α) (b : Block α) (motion : Motion)
    (targets : List (Option α)) :
    ∃ geometry notes, s.arc c b motion targets =
      ⟨(s.perform c motion targets s.feed? (s.arcTravel? c b motion targets) geometry).1,
        [(s.perform c motion targets s.feed? (s.arcTravel? c b motion targets) geometry).2],
        notes⟩ := by
  simp only [arc, arcTravel?]
  rcases hfirst : s.axisIndex? s.settings.plane.first with - | first
  · exact ⟨.line, _, rfl⟩
  rcases hsecond : s.axisIndex? s.settings.plane.second with - | second
  · exact ⟨.line, _, rfl⟩
  rcases hcentre : centre? s.settings.plane b with - | centre
  · exact ⟨.line, _, rfl⟩
  · exact ⟨_, _, rfl⟩

/-- What is known of a performed motion: its events record its orders, and it ends where the last
of them does. -/
structure CarriesOut (c : Config α) (s : State α) (orders : List (MoveOrder α))
    (p : Performed α) : Prop where
  events : List.Forall₂ (MoveOrder.RecordedBy c) orders p.events
  state : p.state = (orders.getLast?.map (MoveOrder.next c)).getD s

/-- A motion of one move carries out its order. -/
theorem carriesOut_perform (c : Config α) (s : State α) (motion : Motion)
    (targets : List (Option α)) (feed travel : Option α) (geometry : Geometry α)
    (notes : List (Note α)) :
    CarriesOut c s [⟨s, targets, feed, travel⟩]
      ⟨(s.perform c motion targets feed travel geometry).1,
        [(s.perform c motion targets feed travel geometry).2], notes⟩ :=
  ⟨.cons (MoveOrder.recordedBy_perform c s motion targets feed travel geometry) .nil, rfl⟩

/-- A return to a reference position carries out its orders. The second one starts from the
named point, in the frame that the first one started in. -/
theorem carriesOut_goHome (c : Config α) (s : State α) (motion : Motion)
    (targets : List (Option α)) (reference : List α) :
    CarriesOut c s
      (ordersAlong c none none s ((if anyNamed targets then [targets] else []) ++
        [(s.frame.toWork reference).map some]))
      (s.goHome c motion targets reference) := by
  simp only [goHome]
  by_cases hany : anyNamed targets
  · rw [if_pos hany, if_pos hany]
    exact ⟨.cons (MoveOrder.recordedBy_perform c s motion targets none none .line)
      (.cons (MoveOrder.recordedBy_perform c _ motion _ none none .line) .nil), rfl⟩
  · rw [if_neg hany, if_neg hany]
    exact carriesOut_perform c s motion _ none none .line []

/-- **A motion carries out its orders.** -/
theorem carriesOut_runMotion? {c : Config α} {s : State α} {b : Block α} {motion : Motion}
    {targets : List (Option α)} {p : Performed α}
    (h : s.runMotion? c b motion targets = some p) :
    CarriesOut c s (s.motionOrders c b motion targets) p := by
  cases motion with
  | rapid =>
      obtain rfl := Option.some.inj h
      exact carriesOut_perform c s .rapid targets none none .line []
  | linear =>
      obtain rfl := Option.some.inj h
      exact carriesOut_perform c s .linear targets s.feed? none .line s.feedNotes
  | arcClockwise | arcCounterclockwise =>
      obtain rfl := Option.some.inj h
      obtain ⟨geometry, notes, harc⟩ := arc_eq_perform c s b _ targets
      rw [harc]
      exact carriesOut_perform c s _ targets s.feed? _ geometry notes
  | home =>
      obtain rfl := Option.some.inj h
      exact carriesOut_goHome c s .home targets s.home
  | secondaryHome =>
      obtain rfl := Option.some.inj h
      exact carriesOut_goHome c s .secondaryHome targets s.secondaryHome
  | unsupported code => simp [runMotion?] at h

/-- A motion that is not carried out has no orders. -/
theorem motionOrders_of_skipped {c : Config α} {s : State α} {b : Block α} {motion : Motion}
    {targets : List (Option α)} (h : s.runMotion? c b motion targets = none) :
    s.motionOrders c b motion targets = [] := by
  obtain ⟨code, rfl⟩ := runMotion?_eq_none h
  rfl

/-! ### Lines carry out their orders -/

/-- What a line is asked for is what it does once it is prepared. -/
theorem step_of_asked (c : Config α) {s : State α} {b : Block α} {motion : Motion}
    (h : s.askedMotion? b = some motion) :
    (s.prepare b).step c b = ((s.prepare b).selectMotion (b.codes 'G')).moveLine c b motion
      ((s.prepare b).blockTargets b) := by
  obtain ⟨haction, hmotion⟩ := askedMotion?_eq_some_iff.1 h
  rw [step_of_no_action c _ haction, hmotion]

/-- A line whose motion is carried out ends in the state that the motion leads to, unless it ends
the program, and has the events of the motion. -/
theorem evaluate_of_asked {c : Config α} {s : State α} {b : Block α} {motion : Motion}
    {p : Performed α} (h : s.askedMotion? b = some motion)
    (hp : ((s.prepare b).selectMotion (b.codes 'G')).runMotion? c b motion
      ((s.prepare b).blockTargets b) = some p) :
    (evaluate c s b).state = p.state.finish b ∧ (evaluate c s b).result.events = p.events := by
  constructor <;> simp only [evaluate, step_of_asked c h, moveLine, hp]

/-- A line reports the motion that it asks for. -/
theorem motion_result (c : Config α) (s : State α) (b : Block α) :
    (evaluate c s b).result.motion = s.askedMotion? b := by
  change ((s.prepare b).step c b).motion = _
  rw [askedMotion?]
  have hstep := step_stepped c (s.prepare b) b
  generalize (s.prepare b).step c b = o at hstep
  cases hstep with
  | action a notes ha => simp [ha, idle]
  | motion m p ha hm hp => simp [ha, hm]
  | skipped code notes ha hm => simp [ha, hm]
  | nothing notes ha hm => simp [ha, hm, idle]

/-- A line that is not asked for a motion has no events. -/
theorem events_of_not_asked (c : Config α) {s : State α} {b : Block α}
    (h : s.askedMotion? b = none) : ((s.prepare b).step c b).events = [] := by
  rw [askedMotion?] at h
  have hstep := step_stepped c (s.prepare b) b
  generalize (s.prepare b).step c b = o at hstep
  cases hstep with
  | action a notes ha => rfl
  | motion m p ha hm hp => simp [ha, hm] at h
  | skipped code notes ha hm => rfl
  | nothing notes ha hm => rfl

/-- **The events of a line record its orders**, one after the other. -/
theorem recorded_orders (c : Config α) (s : State α) (b : Block α) :
    List.Forall₂ (MoveOrder.RecordedBy c) (s.orders c b) (evaluate c s b).result.events := by
  change List.Forall₂ _ _ ((s.prepare b).step c b).events
  rw [orders]
  cases hasked : s.askedMotion? b with
  | none =>
      rw [events_of_not_asked c hasked]
      exact .nil
  | some motion =>
      rw [step_of_asked c hasked]
      simp only [moveLine]
      cases hp : ((s.prepare b).selectMotion (b.codes 'G')).runMotion? c b motion
          ((s.prepare b).blockTargets b) with
      | some p => exact (carriesOut_runMotion? hp).events
      | none =>
          rw [motionOrders_of_skipped hp]
          exact .nil

/-! ### Lines of one move -/

/-- The move of a line that asks for a straight move or an arc. -/
def moveOrder (c : Config α) (s : State α) (b : Block α) (motion : Motion) : MoveOrder α :=
  let prepared := (s.prepare b).selectMotion (b.codes 'G')
  let targets := (s.prepare b).blockTargets b
  ⟨prepared, targets, prepared.feedOf? motion, prepared.travelOf? c b motion targets⟩

/-- **A line that asks for a straight move or an arc makes one move**, with one event, and ends
where it leads unless the program ends. -/
theorem evaluate_moveOrder (c : Config α) {s : State α} {b : Block α} {motion : Motion}
    (hasked : s.askedMotion? b = some motion)
    (hmotion : motion = .rapid ∨ motion = .linear ∨ motion.isArc = true) :
    s.orders c b = [s.moveOrder c b motion] ∧
      (evaluate c s b).state = ((s.moveOrder c b motion).next c).finish b ∧
      ∃ e, (evaluate c s b).result.events = [e] ∧ (s.moveOrder c b motion).RecordedBy c e := by
  have hsingle (s : State α) (targets : List (Option α)) : s.motionOrders c b motion targets =
      [⟨s, targets, s.feedOf? motion, s.travelOf? c b motion targets⟩] := by
    rcases hmotion with rfl | rfl | harc
    · rfl
    · rfl
    · cases motion with
      | arcClockwise | arcCounterclockwise => rfl
      | rapid | linear | home | secondaryHome | unsupported _ => cases harc
  have horders : s.orders c b = [s.moveOrder c b motion] := by
    simp only [orders, hasked, hsingle]
    rfl
  refine ⟨horders, ?_, ?_⟩
  · cases hp : ((s.prepare b).selectMotion (b.codes 'G')).runMotion? c b motion
        ((s.prepare b).blockTargets b) with
    | none =>
        have hnone := motionOrders_of_skipped hp
        rw [hsingle] at hnone
        cases hnone
    | some p =>
        rw [(evaluate_of_asked hasked hp).1, (carriesOut_runMotion? hp).state, hsingle]
        rfl
  · have hrecorded := recorded_orders c s b
    rw [horders] at hrecorded
    obtain ⟨e, events, he, hnil, hevents⟩ := List.forall₂_cons_left_iff.1 hrecorded
    obtain rfl := List.forall₂_nil_left_iff.1 hnil
    exact ⟨e, hevents, he⟩

/-! ### Feeds of orders -/

/-- All moves along some legs have the same feed. -/
theorem feed_of_mem_ordersAlong {c : Config α} {feed travel : Option α} {s : State α}
    {legs : List (List (Option α))} {o : MoveOrder α} (h : o ∈ ordersAlong c feed travel s legs) :
    o.feed = feed := by
  induction legs generalizing s with
  | nil => cases h
  | cons targets legs ih =>
      rcases List.mem_cons.1 h with rfl | h
      · rfl
      · exact ih h

/-- The feed of a motion is positive, if it has one. -/
theorem feedOf?_pos {s : State α} {motion : Motion} {f : α} (h : s.feedOf? motion = some f) :
    0 < f := by
  have hfeed : s.feed? = some f := by
    cases motion with
    | linear | arcClockwise | arcCounterclockwise => exact h
    | rapid | home | secondaryHome | unsupported _ => cases h
  rw [feed?] at hfeed
  split at hfeed
  · next hpos => exact Option.some.inj hfeed ▸ hpos
  · cases hfeed

/-- **The feed of an order is positive**, if it has one. -/
theorem feed_pos_of_mem_orders {c : Config α} {s : State α} {b : Block α} {o : MoveOrder α}
    (h : o ∈ s.orders c b) {f : α} (hf : o.feed = some f) : 0 < f := by
  rw [orders] at h
  split at h
  · next motion _ =>
      cases motion with
      | unsupported code => cases h
      | rapid | linear | arcClockwise | arcCounterclockwise | home | secondaryHome =>
          exact feedOf?_pos ((feed_of_mem_ordersAlong h).symm.trans hf)
  · cases h

/-! ### Where orders start -/

/-- Each order of a return to a reference position starts where the moves before it lead, and
moves along a leg. -/
theorem reached_of_mem_return {c : Config α} {s : State α} {motion : Motion}
    {targets : List (Option α)} {reference : List α}
    (href : s.reference? motion = some reference) (hleg : s.Leg targets) {o : MoveOrder α}
    (h : o ∈ ordersAlong c none none s (s.legs motion targets)) :
    ∃ moves, Performs c s moves o.state ∧ o.state.Leg o.targets := by
  simp only [legs, href] at h
  split at h
  · have href' := (reference?_move c s targets none none motion).trans href
    rcases List.mem_cons.1 h with rfl | h
    · exact ⟨[], .done s, hleg⟩
    · obtain rfl := List.mem_singleton.1 h
      exact ⟨_, .single motion none none .line hleg, leg_of_reference? href'⟩
  · obtain rfl := List.mem_singleton.1 h
    exact ⟨[], .done s, leg_of_reference? href⟩

/-- Each order of a motion starts where the moves before it lead, and moves along a leg. -/
theorem reached_of_mem_motionOrders {c : Config α} {s : State α} {b : Block α} {motion : Motion}
    {targets : List (Option α)} (hleg : s.Leg targets) {o : MoveOrder α}
    (h : o ∈ s.motionOrders c b motion targets) :
    ∃ moves, Performs c s moves o.state ∧ o.state.Leg o.targets := by
  cases motion with
  | rapid | linear | arcClockwise | arcCounterclockwise =>
      obtain rfl := List.mem_singleton.1 h
      exact ⟨[], .done s, hleg⟩
  | home | secondaryHome => exact reached_of_mem_return rfl hleg h
  | unsupported code => cases h

/-- **Each order of a line starts where the moves before it lead**, once the line is prepared, and
moves along a leg. -/
theorem reached_of_mem_orders {c : Config α} {s : State α} {b : Block α} {o : MoveOrder α}
    (h : o ∈ s.orders c b) :
    ∃ moves, Performs c ((s.prepare b).selectMotion (b.codes 'G')) moves o.state ∧
      o.state.Leg o.targets := by
  rw [orders] at h
  split at h
  · exact reached_of_mem_motionOrders (.words _ b) h
  · cases h

end State

end DryRun

import DryRun.Event
import DryRun.Proofs.Json.ReadBack

/-!
# Events as texts

An event is handed on as a compact JSON text, and a preview is drawn from what is read there.
The text names its fields, its motion, its modes and the kind of its shape; numbers are spelled
with the digits that they are read back from. A number that is not finite has no spelling, and
nothing else can get lost (`Event.isFinite`): counts and codes are always within the range of
their types (`Event.isInRange`).

The shape of a move is the one part that is not read by its place. Its kind stands among its
other members, so the data of a shape is *kept* as a whole before it is read, which is refused
for a number beyond the range and for data that is nested too deep. What was written of a shape
is neither (`Geometry.canKeep_toJson`).

## Main results

* `Geometry.readsBack`, `Snapshot.readsBack`, `Event.readsBack`: each part of an event comes back
  from its data exactly if its numbers are finite.
* `Event.survives_json`: so does an event from its text, and its text is written again.
-/

namespace DryRun

open Json

namespace Json

/-! ### Data that is kept whole -/

/-- A list can be kept if all its items can. -/
theorem canKeepItems_eq (depth : Nat) (vs : List Json) :
    canKeepItems Float depth vs = vs.all (canKeep Float depth) := by
  induction vs with
  | nil => rfl
  | cons v vs ih => rw [canKeepItems, ih, List.all_cons]

/-- A finite number can be kept. -/
theorem canKeep_ofScalar {x : Float} (h : Scalar.isFinite x) (depth : Nat) :
    canKeep Float depth (ofScalar x).reread = true := by
  have hread : asScalar? (ofScalar x).reread = some x := readsBack_ofScalar.mpr h
  generalize (ofScalar x).reread = v at hread
  cases v with
  | number n => rw [canKeep, hread, Option.isSome_some]
  | null | bool _ | string _ | list _ | object _ | broken => cases hread

/-- A list of finite numbers can be kept, one level deep. -/
theorem canKeep_ofScalars {xs : List Float} (h : xs.all Scalar.isFinite) (depth : Nat) :
    canKeep Float (depth + 1) (ofScalars xs).reread = true := by
  rw [ofScalars, ofList, reread, rereadItems_eq, canKeep, canKeepItems_eq, List.map_map,
    List.all_map, List.all_eq_true]
  intro x hx
  exact canKeep_ofScalar (List.all_eq_true.mp h x hx) depth

end Json

/-- A plane is read back where it was kept. -/
theorem Plane.readsBack_kept (p : Plane) : ReadsBack toJson ofKeptJson? p := by
  cases p <;> rfl

/-! ### Shapes -/

namespace Geometry

/-- Whether all coordinates of a shape are finite. -/
def isFinite {α : Type} [Scalar α] : Geometry α → Bool
  | .line => true
  | .arc centre machineCentre _ _ => centre.all Scalar.isFinite && machineCentre.all Scalar.isFinite

/-- What was written of a shape can be kept: it is nested two levels deep. -/
theorem canKeep_toJson {g : Geometry Float} (h : g.isFinite) (depth : Nat) :
    canKeep Float (depth + 2) g.toJson.reread = true := by
  cases g with
  | line => rfl
  | arc centre machineCentre clockwise plane =>
      rw [isFinite, Bool.and_eq_true] at h
      have hcentre := canKeep_ofScalars h.1 depth
      have hmachine := canKeep_ofScalars h.2 depth
      simp only [toJson, reread, rereadMembers, canKeep, canKeepMembers, Plane.toJson, hcentre,
        hmachine, Bool.and_self]

/-- An arc that was kept is read back if its two centres are. -/
theorem ofKeptJson?_arc_iff (centre machineCentre : List Float) (clockwise : Bool)
    (plane : Plane) :
    ofKeptJson? (toJson (.arc centre machineCentre clockwise plane)).reread =
        some (.arc centre machineCentre clockwise plane) ↔
      ReadsBack ofScalars (asList? asScalar?) centre ∧
        ReadsBack ofScalars (asList? asScalar?) machineCentre := by
  -- The kind is taken off, and what is left are the fields of an arc.
  let members : List (String × Json) :=
    [("center", (ofScalars centre).reread), ("machine_center", (ofScalars machineCentre).reread),
      ("clockwise", .bool clockwise), ("plane", plane.toJson.reread)]
  have hkind : (ofKeptJson? (toJson (.arc centre machineCentre clockwise plane)).reread :
      Option (Geometry Float)) = arcOfJson? (.object members) := rfl
  have hfields : fields? ["center", "machine_center", "clockwise", "plane"] (.object members) = _ :=
    fields?_object rfl (by decide)
  rw [hkind, arcOfJson?]
  constructor
  · intro h
    rw [hfields, Option.bind_eq_bind, Option.bind_some] at h
    obtain ⟨_, hcentre, h⟩ := Option.bind_eq_some_iff.mp h
    obtain ⟨_, hmachine, h⟩ := Option.bind_eq_some_iff.mp h
    obtain ⟨_, -, h⟩ := Option.bind_eq_some_iff.mp h
    obtain ⟨_, -, h⟩ := Option.bind_eq_some_iff.mp h
    cases h
    exact ⟨hcentre, hmachine⟩
  · rintro ⟨hcentre, hmachine⟩
    exact bind_eq_some hfields <| bind_eq_some hcentre <| bind_eq_some hmachine <|
      bind_eq_some (readsBack_bool clockwise) <| bind_eq_some plane.readsBack_kept rfl

/-- **A shape is read back if its coordinates are finite**, wherever the text has room for two more
levels. -/
theorem readsBack {depth : Nat} (hdepth : 2 ≤ depth) (g : Geometry Float) :
    ReadsBack toJson (ofJsonWithin? depth) g ↔ g.isFinite := by
  obtain ⟨depth, rfl⟩ := Nat.exists_eq_add_of_le' hdepth
  cases g with
  | line => exact iff_of_true rfl rfl
  | arc centre machineCentre clockwise plane =>
      have hcentres : (isFinite (.arc centre machineCentre clockwise plane) = true) ↔
          ofKeptJson? (toJson (.arc centre machineCentre clockwise plane)).reread =
            some (.arc centre machineCentre clockwise plane) := by
        rw [ofKeptJson?_arc_iff, readsBack_ofScalars, readsBack_ofScalars, isFinite,
          Bool.and_eq_true]
      rw [ReadsBack, ofJsonWithin?]
      constructor
      · intro h
        exact hcentres.mpr (Option.ite_none_right_eq_some.mp h).2
      · intro h
        rw [if_pos (canKeep_toJson h depth)]
        exact hcentres.mp h

/-- The geometry of an arc can be written, whatever its numbers are. -/
theorem isNormal_toJson (g : Geometry Float) : g.toJson.IsNormal := by
  cases g with
  | line => exact ⟨trivial, trivial⟩
  | arc centre machineCentre clockwise plane =>
      exact ⟨trivial, isNormal_ofScalars centre, isNormal_ofScalars machineCentre, trivial, trivial,
        trivial⟩

end Geometry

/-! ### Snapshots -/

namespace Snapshot

/-- Whether the feed and the spindle speed of a snapshot are finite. -/
def isFinite {α : Type} [Scalar α] (m : Snapshot α) : Bool :=
  Scalar.isFinite m.settings.feed && Scalar.isFinite m.settings.spindleSpeed

/-- Whether the motion and the tool of a snapshot are within the range of their types. -/
def isInRange {α : Type} (m : Snapshot α) : Bool :=
  m.motion.isStorable && m.settings.tool.all (· < Nat.pow 2 32)

theorem nodup_fieldNames : fieldNames.Nodup := by decide

/-- A snapshot is read back if its motion, its tool and its two numbers are. -/
theorem readsBack_iff (m : Snapshot Float) :
    ReadsBack toJson ofJson? m ↔
      ReadsBack Motion.toJson Motion.ofJson? m.motion ∧
      ReadsBack ofScalar asScalar? m.settings.feed ∧
      ReadsBack (ofOption Json.ofNat) (asOption? (asNat? 32)) m.settings.tool ∧
      ReadsBack ofScalar asScalar? m.settings.spindleSpeed := by
  have hfields : (toJson m).reread.fields? fieldNames = _ := fields?_object rfl nodup_fieldNames
  constructor
  · intro h
    rw [ReadsBack, ofJson?, hfields, Option.bind_eq_bind, Option.bind_some] at h
    obtain ⟨_, hmotion, h⟩ := Option.bind_eq_some_iff.mp h
    obtain ⟨_, -, h⟩ := Option.bind_eq_some_iff.mp h
    obtain ⟨_, -, h⟩ := Option.bind_eq_some_iff.mp h
    obtain ⟨_, -, h⟩ := Option.bind_eq_some_iff.mp h
    obtain ⟨_, -, h⟩ := Option.bind_eq_some_iff.mp h
    obtain ⟨_, hfeed, h⟩ := Option.bind_eq_some_iff.mp h
    obtain ⟨_, htool, h⟩ := Option.bind_eq_some_iff.mp h
    obtain ⟨_, -, h⟩ := Option.bind_eq_some_iff.mp h
    obtain ⟨_, -, h⟩ := Option.bind_eq_some_iff.mp h
    obtain ⟨_, hspeed, h⟩ := Option.bind_eq_some_iff.mp h
    obtain ⟨_, -, h⟩ := Option.bind_eq_some_iff.mp h
    cases h
    exact ⟨hmotion, hfeed, htool, hspeed⟩
  · rintro ⟨hmotion, hfeed, htool, hspeed⟩
    rw [ReadsBack, ofJson?]
    exact bind_eq_some hfields <| bind_eq_some hmotion <| bind_eq_some m.settings.plane.readsBack <|
      bind_eq_some m.settings.units.readsBack <| bind_eq_some (readsBack_bool _) <|
      bind_eq_some (readsBack_bool _) <| bind_eq_some hfeed <| bind_eq_some htool <|
      bind_eq_some (readsBack_bool _) <| bind_eq_some m.settings.rotation.readsBack <|
      bind_eq_some hspeed <| bind_eq_some m.settings.coolant.readsBack rfl

/-- A snapshot within its ranges is read back if its numbers are finite. -/
theorem readsBack {m : Snapshot Float} (h : m.isInRange) :
    ReadsBack toJson ofJson? m ↔ m.isFinite := by
  rw [isInRange, Bool.and_eq_true] at h
  obtain ⟨hmotion, htool⟩ := h
  have hread := (readsBack_ofOption_iff rfl
    (fun n => (readsBack_ofNat 32 n).trans decide_eq_true_iff.symm) m.settings.tool).mpr htool
  simp only [readsBack_iff, Motion.readsBack.mpr hmotion, hread, readsBack_ofScalar, true_and,
    isFinite, Bool.and_eq_true]

/-- The modes of an event can be written, whatever their numbers are. -/
theorem isNormal_toJson (m : Snapshot Float) : m.toJson.IsNormal := by
  refine membersNormal_iff.mpr ?_
  simp only [List.forall_mem_cons, List.not_mem_nil, false_implies, implies_true, and_true]
  exact ⟨m.motion.isNormal_toJson, trivial, trivial, trivial, trivial, isNormal_ofScalar _,
    isNormal_ofOption (fun _ => by exact trivial) _, trivial, trivial, isNormal_ofScalar _, trivial⟩

end Snapshot

/-! ### Events -/

namespace Event

/-- Whether all measured numbers of an event are finite. -/
def isFinite {α : Type} [Scalar α] (e : Event α) : Bool :=
  e.modal.isFinite && e.source.all Scalar.isFinite && e.target.all Scalar.isFinite &&
    e.machineSource.all Scalar.isFinite && e.machineTarget.all Scalar.isFinite &&
    e.geometry.isFinite && Scalar.isFinite e.time

/-- Whether the counts and codes of an event are within the range of their types: 64 bits for the
line, 32 bits for a tool, and 32 bits with a sign for the code of a motion. -/
def isInRange {α : Type} (e : Event α) : Bool := e.line < Nat.pow 2 64 && e.modal.isInRange

theorem nodup_fieldNames : fieldNames.Nodup := by decide

/-- An event is read back if each of its fields is. -/
theorem readsBack_iff (e : Event Float) :
    ReadsBack toJson ofJson? e ↔
      ReadsBack Json.ofNat (asNat? 64) e.line ∧
      ReadsBack Snapshot.toJson Snapshot.ofJson? e.modal ∧
      ReadsBack ofScalars (asList? asScalar?) e.source ∧
      ReadsBack ofScalars (asList? asScalar?) e.target ∧
      ReadsBack ofScalars (asList? asScalar?) e.machineSource ∧
      ReadsBack ofScalars (asList? asScalar?) e.machineTarget ∧
      ReadsBack Geometry.toJson (Geometry.ofJsonWithin? (maxDepth - 1)) e.geometry ∧
      ReadsBack ofScalar asScalar? e.time := by
  have hfields : (toJson e).reread.fields? fieldNames = _ := fields?_object rfl nodup_fieldNames
  constructor
  · intro h
    rw [ReadsBack, ofJson?, hfields, Option.bind_eq_bind, Option.bind_some] at h
    obtain ⟨_, hline, h⟩ := Option.bind_eq_some_iff.mp h
    obtain ⟨_, hmodal, h⟩ := Option.bind_eq_some_iff.mp h
    obtain ⟨_, hsource, h⟩ := Option.bind_eq_some_iff.mp h
    obtain ⟨_, htarget, h⟩ := Option.bind_eq_some_iff.mp h
    obtain ⟨_, hmachineSource, h⟩ := Option.bind_eq_some_iff.mp h
    obtain ⟨_, hmachineTarget, h⟩ := Option.bind_eq_some_iff.mp h
    obtain ⟨_, hgeometry, h⟩ := Option.bind_eq_some_iff.mp h
    obtain ⟨_, htime, h⟩ := Option.bind_eq_some_iff.mp h
    cases h
    exact ⟨hline, hmodal, hsource, htarget, hmachineSource, hmachineTarget, hgeometry, htime⟩
  · rintro ⟨hline, hmodal, hsource, htarget, hmachineSource, hmachineTarget, hgeometry, htime⟩
    rw [ReadsBack, ofJson?]
    exact bind_eq_some hfields <| bind_eq_some hline <| bind_eq_some hmodal <|
      bind_eq_some hsource <| bind_eq_some htarget <| bind_eq_some hmachineSource <|
      bind_eq_some hmachineTarget <| bind_eq_some hgeometry <| bind_eq_some htime rfl

/-- **An event within its ranges is read back if its numbers are finite.** -/
theorem readsBack {e : Event Float} (h : e.isInRange) :
    ReadsBack toJson ofJson? e ↔ e.isFinite := by
  rw [isInRange, Bool.and_eq_true, decide_eq_true_eq] at h
  obtain ⟨hline, hmodal⟩ := h
  have hdepth : 2 ≤ maxDepth - 1 := by decide
  simp only [readsBack_iff, (readsBack_ofNat 64 e.line).mpr hline, Snapshot.readsBack hmodal,
    readsBack_ofScalars, readsBack_ofScalar, Geometry.readsBack hdepth, true_and, isFinite,
    Bool.and_eq_true, and_assoc]

/-- The data of an event can be read. -/
theorem isNormal_toJson (e : Event Float) : e.toJson.IsNormal := by
  refine membersNormal_iff.mpr ?_
  simp only [List.forall_mem_cons, List.not_mem_nil, false_implies, implies_true, and_true]
  exact ⟨trivial, e.modal.isNormal_toJson, isNormal_ofScalars _, isNormal_ofScalars _,
    isNormal_ofScalars _, isNormal_ofScalars _, e.geometry.isNormal_toJson, isNormal_ofScalar _⟩

/-- What is read from the text of an event. -/
theorem ofText?_compact (e : Event Float) :
    (Json.ofText? e.toJson.compact).bind ofJson? =
      (ofJson? e.toJson.reread : Option (Event Float)) := by
  rw [compact, ofText?_write e.isNormal_toJson, Option.bind_some]

/-- **Events survive JSON.** An event, its counts and codes within the range of their types, is read
back from its compact text exactly if all its numbers are finite, and then what was read is written
as the same text. -/
theorem survives_json {e : Event Float} (he : e.isInRange) :
    ((Json.ofText? e.toJson.compact).bind ofJson? = some e ↔ e.isFinite) ∧
      (e.isFinite → ((Json.ofText? e.toJson.compact).bind ofJson?).map
        (fun e' : Event Float => e'.toJson.compact) = some e.toJson.compact) := by
  have hread : (Json.ofText? e.toJson.compact).bind ofJson? = some e ↔ e.isFinite := by
    rw [ofText?_compact]
    exact readsBack he
  refine ⟨hread, fun hfinite => ?_⟩
  rw [hread.mpr hfinite, Option.map_some]

/-- A helix in the last line that can be counted, with the least code of a motion, all bits of the
coolant, and positions of different lengths that hold the least and the greatest numbers. -/
def extremeHelix : Event Float where
  line := 0xFFFFFFFFFFFFFFFF
  modal := ⟨.unsupported minCode,
    { State.startSettings (.empty : StartState Float) with
      units := .inch
      plane := .yz
      feed := 0.1
      tool := some 0xFFFFFFFF
      spindleSpeed := -0.0
      coolant := ⟨255⟩ }⟩
  source := []
  target := [5e-324, -0.0, 1.7976931348623157e308]
  machineSource := [1e21, 123456.789]
  machineTarget := [0, 0, 0, -1e-7]
  geometry := .arc [0.1, 2.5] [] true .zx
  time := 1e300

/-- An event with numbers at the ends of their ranges is read back, and is written again as it was.
-/
theorem survives_json_extremeHelix :
    extremeHelix.isInRange ∧ extremeHelix.isFinite ∧
      (Json.ofText? extremeHelix.toJson.compact).bind ofJson? = some extremeHelix ∧
      ((Json.ofText? extremeHelix.toJson.compact).bind ofJson?).map
        (fun e : Event Float => e.toJson.compact) = some extremeHelix.toJson.compact := by
  have hrange : extremeHelix.isInRange := by decide +kernel
  have hfinite : extremeHelix.isFinite := by decide +kernel
  obtain ⟨hread, htext⟩ := survives_json hrange
  exact ⟨hrange, hfinite, hread.mpr hfinite, htext hfinite⟩

end Event

end DryRun

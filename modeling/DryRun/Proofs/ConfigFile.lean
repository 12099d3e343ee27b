import DryRun.Config.File
import DryRun.Proofs.Admissible
import DryRun.Proofs.Folder
import DryRun.Proofs.Json.ReadBack
import DryRun.Proofs.Run
import DryRun.Proofs.Text.Utf8

/-!
# Saved configurations

A configuration is saved only if it has no fault, and loaded only if it has none. Between the two it
is a text, and a text does not hold everything that passes the check for faults. The limits, the
shortest time of a move and the feed of the start state are checked to be finite, and so come back;
the positions, the offsets and the spindle speed of the start state are checked for their number
only. An infinite one is written as null, which is no position at all and stands for a spindle
speed that is not given. What a text can hold is `Config.isStorable`.

Whether a configuration is saved at all is up to the folder (`Folder.canWrite`): the extension of a
path says nothing about the directories along it.

## Main results

* `StartState.readsBack`, `Config.readsBack`: what comes back from its data.
* `Config.load_of_save`: where a configuration is saved, and what is loaded from there.
-/

namespace DryRun

open Json

namespace StartState

/-- Whether data can hold a start state: all its numbers are finite, and its codes within the
range of their types. -/
def isStorable {α : Type} [Scalar α] (s : StartState α) : Bool :=
  s.motion.all Motion.isStorable &&
    s.systems.all (·.all (·.all Scalar.isFinite)) &&
    s.offset.all (·.all Scalar.isFinite) &&
    s.references.all (fun r => r.1.all Scalar.isFinite && r.2.all Scalar.isFinite) &&
    s.machine.all (·.all Scalar.isFinite) &&
    s.spindleSpeed.all Scalar.isFinite &&
    s.tool.all (· < Nat.pow 2 32)

theorem nodup_fieldNames : fieldNames.Nodup := by decide

/-- A start state is read back if each of its fields is. -/
theorem readsBack_iff (s : StartState Float) :
    ReadsBack toJson ofJson? s ↔
      ReadsBack (ofOption Units.toJson) (asOption? Units.ofJson?) s.units ∧
      ReadsBack (ofOption .bool) (asOption? asBool?) s.incremental ∧
      ReadsBack (ofOption Plane.toJson) (asOption? Plane.ofJson?) s.plane ∧
      ReadsBack (ofOption .bool) (asOption? asBool?) s.inverseFeed ∧
      ReadsBack (ofOption Motion.toJson) (asOption? Motion.ofJson?) s.motion ∧
      ReadsBack (ofOption Json.ofNat) (asOption? (asNat? 64)) s.system ∧
      ReadsBack (ofOption (ofList ofScalars)) (asOption? (asList? (asList? asScalar?))) s.systems ∧
      ReadsBack (ofOption ofScalars) (asOption? (asList? asScalar?)) s.offset ∧
      ReadsBack (ofOption .bool) (asOption? asBool?) s.offsetEnabled ∧
      ReadsBack (ofOption fun r => .list [ofScalars r.1, ofScalars r.2])
        (asOption? (asPair? (asList? asScalar?))) s.references ∧
      ReadsBack (ofOption ofScalars) (asOption? (asList? asScalar?)) s.machine ∧
      ReadsBack (ofOption ofScalar) (asOption? asScalar?) s.feed ∧
      ReadsBack (ofOption .bool) (asOption? asBool?) s.spindle ∧
      ReadsBack (ofOption Rotation.toJson) (asOption? Rotation.ofJson?) s.rotation ∧
      ReadsBack (ofOption ofScalar) (asOption? asScalar?) s.spindleSpeed ∧
      ReadsBack (ofOption Coolant.toJson) (asOption? Coolant.ofJson?) s.coolant ∧
      ReadsBack (ofOption Json.ofNat) (asOption? (asNat? 32)) s.tool := by
  have hfields : (toJson s).reread.fields? fieldNames = _ := fields?_object rfl nodup_fieldNames
  -- Each field is read only after those before it, so a state that was read has them all.
  constructor
  · intro h
    rw [ReadsBack, ofJson?, hfields, Option.bind_eq_bind, Option.bind_some] at h
    obtain ⟨_, hunits, h⟩ := Option.bind_eq_some_iff.mp h
    obtain ⟨_, hincremental, h⟩ := Option.bind_eq_some_iff.mp h
    obtain ⟨_, hplane, h⟩ := Option.bind_eq_some_iff.mp h
    obtain ⟨_, hinverseFeed, h⟩ := Option.bind_eq_some_iff.mp h
    obtain ⟨_, hmotion, h⟩ := Option.bind_eq_some_iff.mp h
    obtain ⟨_, hsystem, h⟩ := Option.bind_eq_some_iff.mp h
    obtain ⟨_, hsystems, h⟩ := Option.bind_eq_some_iff.mp h
    obtain ⟨_, hoffset, h⟩ := Option.bind_eq_some_iff.mp h
    obtain ⟨_, hoffsetEnabled, h⟩ := Option.bind_eq_some_iff.mp h
    obtain ⟨_, hreferences, h⟩ := Option.bind_eq_some_iff.mp h
    obtain ⟨_, hmachine, h⟩ := Option.bind_eq_some_iff.mp h
    obtain ⟨_, hfeed, h⟩ := Option.bind_eq_some_iff.mp h
    obtain ⟨_, hspindle, h⟩ := Option.bind_eq_some_iff.mp h
    obtain ⟨_, hrotation, h⟩ := Option.bind_eq_some_iff.mp h
    obtain ⟨_, hspindleSpeed, h⟩ := Option.bind_eq_some_iff.mp h
    obtain ⟨_, hcoolant, h⟩ := Option.bind_eq_some_iff.mp h
    obtain ⟨_, htool, h⟩ := Option.bind_eq_some_iff.mp h
    cases h
    exact ⟨hunits, hincremental, hplane, hinverseFeed, hmotion, hsystem, hsystems, hoffset,
      hoffsetEnabled, hreferences, hmachine, hfeed, hspindle, hrotation, hspindleSpeed, hcoolant,
      htool⟩
  · rintro ⟨hunits, hincremental, hplane, hinverseFeed, hmotion, hsystem, hsystems, hoffset,
      hoffsetEnabled, hreferences, hmachine, hfeed, hspindle, hrotation, hspindleSpeed, hcoolant,
      htool⟩
    rw [ReadsBack, ofJson?]
    exact bind_eq_some hfields <| bind_eq_some hunits <| bind_eq_some hincremental <|
      bind_eq_some hplane <| bind_eq_some hinverseFeed <| bind_eq_some hmotion <|
      bind_eq_some hsystem <| bind_eq_some hsystems <| bind_eq_some hoffset <|
      bind_eq_some hoffsetEnabled <| bind_eq_some hreferences <| bind_eq_some hmachine <|
      bind_eq_some hfeed <| bind_eq_some hspindle <| bind_eq_some hrotation <|
      bind_eq_some hspindleSpeed <| bind_eq_some hcoolant <| bind_eq_some htool rfl

/-- **A start state is read back if data can hold it.** -/
theorem readsBack {s : StartState Float} {n : Nat} (hs : s.fault? n = none) :
    ReadsBack toJson ofJson? s ↔ s.isStorable := by
  have hadmissible := fault?_eq_none.mp hs
  have hbool (x : Option Bool) : ReadsBack (ofOption .bool) (asOption? asBool?) x :=
    (readsBack_ofOption rfl x).mpr fun b _ => readsBack_bool b
  have hunits := (readsBack_ofOption rfl s.units).mpr fun u _ => u.readsBack
  have hplane := (readsBack_ofOption rfl s.plane).mpr fun p _ => p.readsBack
  have hrotation := (readsBack_ofOption rfl s.rotation).mpr fun r _ => r.readsBack
  have hcoolant := (readsBack_ofOption rfl s.coolant).mpr fun c _ => c.readsBack
  have hsystem : ReadsBack (ofOption Json.ofNat) (asOption? (asNat? 64)) s.system := by
    refine (readsBack_ofOption rfl s.system).mpr fun n hn => (readsBack_ofNat 64 n).mpr ?_
    exact Nat.lt_trans (hadmissible.system n hn) (by decide)
  have hfeed : ReadsBack (ofOption ofScalar) (asOption? asScalar?) s.feed :=
    (readsBack_ofOption rfl s.feed).mpr fun x hx =>
      readsBack_ofScalar.mpr (hadmissible.feed x hx).1
  have hmotion := readsBack_ofOption_iff rfl (fun _ => Motion.readsBack) s.motion
  have hsystems := readsBack_ofOption_iff rfl (readsBack_ofList_iff readsBack_ofScalars) s.systems
  have hvector (x : Option (List Float)) := readsBack_ofOption_iff rfl readsBack_ofScalars x
  have hreferences := readsBack_ofOption_iff rfl (fun r : List Float × List Float =>
    (readsBack_pair r).trans (by
      rw [readsBack_ofScalars, readsBack_ofScalars, ← Bool.and_eq_true])) s.references
  have hspeed := readsBack_ofOption_iff rfl (fun _ => readsBack_ofScalar) s.spindleSpeed
  have htool := readsBack_ofOption_iff rfl
    (fun n => (readsBack_ofNat 32 n).trans decide_eq_true_iff.symm) s.tool
  rw [readsBack_iff]
  simp only [hunits, hbool, hplane, hmotion, hsystem, hsystems, hvector, hreferences, hfeed,
    hrotation, hspeed, hcoolant, htool, true_and, isStorable, Bool.and_eq_true, and_assoc]

/-- The data of a start state can be read. -/
theorem isNormal_toJson (s : StartState Float) : s.toJson.IsNormal := by
  have hpair (r : List Float × List Float) : (list [ofScalars r.1, ofScalars r.2]).IsNormal :=
    ⟨isNormal_ofScalars r.1, isNormal_ofScalars r.2, trivial⟩
  refine membersNormal_iff.mpr ?_
  simp only [List.forall_mem_cons, List.not_mem_nil, false_implies, implies_true, and_true]
  refine ⟨?_, ?_, ?_, ?_, isNormal_ofOption Motion.isNormal_toJson _, ?_,
    isNormal_ofOption (isNormal_ofList isNormal_ofScalars) _,
    isNormal_ofOption isNormal_ofScalars _,
    ?_, isNormal_ofOption hpair _, isNormal_ofOption isNormal_ofScalars _,
    isNormal_ofOption isNormal_ofScalar _, ?_, ?_, isNormal_ofOption isNormal_ofScalar _, ?_, ?_⟩
  all_goals exact isNormal_ofOption (fun _ => by exact trivial) _

end StartState

/-! ### Configurations -/

namespace Limit

/-- A limit without a fault is read back. -/
theorem readsBack {l : Limit Float} {field : String} {n : Nat} (h : l.fault? field n = none) :
    ReadsBack toJson ofJson? l := by
  have hadmissible := fault?_eq_none.mp h
  cases l with
  | uniform value =>
      have hread : (ofJson? (ofScalar value).reread : Option (Limit Float)) =
          (asScalar? (ofScalar value).reread).map .uniform := by
        rw [ofScalar]
        split <;> rfl
      have hvalue : asScalar? (ofScalar value).reread = some value :=
        readsBack_ofScalar.mpr hadmissible.1
      rw [ReadsBack, toJson, hread, hvalue, Option.map_some]
  | perAxis values =>
      have hfinite : values.all Scalar.isFinite :=
        List.all_eq_true.mpr fun x hx => (hadmissible.2 x hx).1
      have hvalues := (readsBack_ofScalars values).mpr hfinite
      exact congrArg (Option.map Limit.perAxis) hvalues

/-- The limits of an axis can be written, whatever their numbers are. -/
theorem isNormal_toJson (l : Limit Float) : l.toJson.IsNormal := by
  cases l with
  | uniform value => exact isNormal_ofScalar value
  | perAxis values => exact isNormal_ofList isNormal_ofScalar values

end Limit

namespace Config

/-- Whether data can hold a configuration. -/
def isStorable {α : Type} [Scalar α] (c : Config α) : Bool := c.start.all StartState.isStorable

/-- The data of a configuration can be read. -/
theorem isNormal_toJson (c : Config Float) : c.toJson.IsNormal := by
  refine membersNormal_iff.mpr ?_
  simp only [List.forall_mem_cons, List.not_mem_nil, false_implies, implies_true, and_true]
  exact ⟨isNormal_ofList (fun _ => by exact trivial) _, c.maxFeed.isNormal_toJson,
    c.acceleration.isNormal_toJson, isNormal_ofScalar _, trivial,
    isNormal_ofOption StartState.isNormal_toJson _⟩

theorem nodup_fieldNames : fieldNames.Nodup := by decide

/-- A configuration is read back if each of its fields is. -/
theorem readsBack_iff (c : Config Float) :
    ReadsBack toJson ofJson? c ↔
      ReadsBack (ofList ofChar) (asList? asChar?) c.axes ∧
      ReadsBack Limit.toJson Limit.ofJson? c.maxFeed ∧
      ReadsBack Limit.toJson Limit.ofJson? c.acceleration ∧
      ReadsBack ofScalar asScalar? c.minMoveTime ∧
      ReadsBack .bool asBool? c.arcLengthTravel ∧
      ReadsBack (ofOption StartState.toJson) (asOption? StartState.ofJson?) c.start := by
  have hfields : (toJson c).reread.fields? fieldNames = _ := fields?_object rfl nodup_fieldNames
  constructor
  · intro h
    rw [ReadsBack, ofJson?, hfields, Option.bind_eq_bind, Option.bind_some] at h
    obtain ⟨_, haxes, h⟩ := Option.bind_eq_some_iff.mp h
    obtain ⟨_, hmaxFeed, h⟩ := Option.bind_eq_some_iff.mp h
    obtain ⟨_, hacceleration, h⟩ := Option.bind_eq_some_iff.mp h
    obtain ⟨_, hminMoveTime, h⟩ := Option.bind_eq_some_iff.mp h
    obtain ⟨_, harcLengthTravel, h⟩ := Option.bind_eq_some_iff.mp h
    obtain ⟨_, hstart, h⟩ := Option.bind_eq_some_iff.mp h
    cases h
    exact ⟨haxes, hmaxFeed, hacceleration, hminMoveTime, harcLengthTravel, hstart⟩
  · rintro ⟨haxes, hmaxFeed, hacceleration, hminMoveTime, harcLengthTravel, hstart⟩
    rw [ReadsBack, ofJson?]
    exact bind_eq_some hfields <| bind_eq_some haxes <| bind_eq_some hmaxFeed <|
      bind_eq_some hacceleration <| bind_eq_some hminMoveTime <| bind_eq_some harcLengthTravel <|
      bind_eq_some hstart rfl

/-- **A configuration without a fault is read back if data can hold its start state.** -/
theorem readsBack {c : Config Float} (hc : c.fault? = none) :
    ReadsBack toJson ofJson? c ↔ c.isStorable := by
  simp only [fault?, Option.or_eq_none_iff] at hc
  obtain ⟨⟨⟨⟨-, hmaxFeed⟩, hacceleration⟩, htime⟩, hstart⟩ := hc
  have haxes := (readsBack_ofList c.axes).mpr fun label _ => readsBack_ofChar label
  have hfinite : Scalar.isFinite c.minMoveTime := (minMoveTimeFault?_eq_none.mp htime).1
  rw [readsBack_iff, readsBack_ofOption rfl, isStorable, Option.all_eq_true]
  simp only [haxes, Limit.readsBack hmaxFeed, Limit.readsBack hacceleration,
    readsBack_ofScalar.mpr hfinite, readsBack_bool, true_and]
  refine forall₂_congr fun s hs => StartState.readsBack (n := c.axisCount) ?_
  rw [hs] at hstart
  exact hstart

/-! ### Files -/

section Files

variable {c : Config Float} {path : String} {folder saved : Folder}

/-- The text of a configuration is accepted as this configuration if data can hold it. -/
theorem ofFileText_fileText (hc : c.fault? = none) :
    ofFileText c.fileText = .ok c ↔ c.isStorable := by
  have htext : (ofText? c.fileText : Option (Config Float)) = ofJson? c.toJson.reread := by
    rw [ofText?, fileText, Json.pretty, ofText?_write c.isNormal_toJson, Option.bind_some]
  rw [← readsBack hc, ReadsBack, ofFileText, htext]
  cases hread : (ofJson? c.toJson.reread : Option (Config Float)) with
  | none => simp only [reduceCtorEq]
  | some c' =>
      constructor
      · intro h
        simp only at h
        split at h
        · cases h
        · exact congrArg some (Except.ok.inj h)
      · intro h
        cases h
        simp only [hc]

/-- An accepted configuration is saved if its text is written. -/
theorem save_eq_ok_iff (hc : c.fault? = none) :
    c.save folder path = .ok saved ↔ folder.write path (Text.encode c.fileText) = .ok saved := by
  rw [save, hc]
  cases folder.write path (Text.encode c.fileText) with
  | error fault => simp only [reduceCtorEq]
  | ok folder => simp only [Except.ok.injEq]

/-- A configuration is saved exactly where a file can be written. -/
theorem exists_save_iff (hc : c.fault? = none) :
    (∃ saved, c.save folder path = .ok saved) ↔ folder.canWrite path := by
  simp only [save_eq_ok_iff hc, Folder.exists_write_iff]

/-- What was saved is loaded unchanged if data can hold it. -/
theorem load_read_eq_ok_iff (hc : c.fault? = none) (hpath : Path.extension? path = some "json")
    (hsaved : c.save folder path = .ok saved) :
    load path (saved.read path) = .ok c ↔ c.isStorable := by
  have htext : FileContent.text (saved.read path) = .ok c.fileText := by
    rw [Folder.read_of_write ((save_eq_ok_iff hc).mp hsaved), FileContent.text,
      Text.decode?_encode]
    exact congrArg Except.ok String.ofList_toList
  rw [load, if_pos hpath, htext]
  exact ofFileText_fileText hc

end Files

/-- **Saved configurations load back unchanged**: a configuration without a fault is saved at every
path with the extension `json` where the folder lets a file be written, and at no other, and
what was saved is loaded again exactly if data can hold the start state. -/
theorem load_of_save {c : Config Float} (hc : c.validate = .ok ()) {path : String}
    (hpath : Path.extension? path = some "json") (folder : Folder) :
    ((∃ saved, c.save folder path = .ok saved) ↔ folder.canWrite path) ∧
      ∀ saved, c.save folder path = .ok saved →
        (load path (saved.read path) = .ok c ↔ c.isStorable) := by
  have hfault := validate_eq_ok.mp hc
  exact ⟨exists_save_iff hfault, fun saved hsaved => load_read_eq_ok_iff hfault hpath hsaved⟩

/-- A machine with a limit for each axis, taken over in the middle of a program. -/
def resumed : Config Float :=
  { standard with
    maxFeed := .perAxis [1000, 800.5, 1e300]
    minMoveTime := 0.1
    start := some { StartState.empty with
      units := some .inch
      motion := some (.unsupported 810)
      systems := some [[0.1, -2, 5e-324]]
      references := some ([1, 2, 3], [0, 0, -0.0])
      feed := some 120
      spindleSpeed := some 12000
      coolant := some ⟨255⟩
      tool := some 3 } }

/-- This machine is loaded as it was saved. -/
theorem load_of_save_resumed :
    ∃ saved, resumed.save Folder.empty "machine.json" = .ok saved ∧
      load "machine.json" (saved.read "machine.json") = .ok resumed := by
  have hc : resumed.validate = .ok () := validate_eq_ok.mpr (by decide +kernel)
  have hpath : Path.extension? "machine.json" = some "json" := by decide
  obtain ⟨hsave, hload⟩ := load_of_save hc hpath Folder.empty
  obtain ⟨saved, hsaved⟩ := hsave.mpr (by decide)
  exact ⟨saved, hsaved, (hload saved hsaved).mpr (by decide +kernel)⟩

/-- A machine whose position is no number. -/
def strayed : Config Float :=
  { standard with start := some { StartState.empty with machine := some [0 / 0, 0, 0] } }

/-- Not every path with the extension can be written, and what data cannot hold is not loaded
again. -/
theorem exists_not_load_of_save :
    ((standard : Config Float).validate = .ok () ∧
      Path.extension? "nodir/machine.json" = some "json" ∧
      ¬∃ saved, (standard : Config Float).save Folder.empty "nodir/machine.json" = .ok saved) ∧
    strayed.validate = .ok () ∧ Path.extension? "machine.json" = some "json" ∧
      ∃ saved, strayed.save Folder.empty "machine.json" = .ok saved ∧
        load "machine.json" (saved.read "machine.json") ≠ .ok strayed := by
  have hstandard : (standard : Config Float).fault? = none := by decide +kernel
  have hstrayed : strayed.fault? = none := by decide +kernel
  obtain ⟨saved, hsaved⟩ := (exists_save_iff hstrayed).mpr
    (show Folder.empty.canWrite "machine.json" by decide)
  refine ⟨⟨validate_eq_ok.mpr hstandard, by decide, ?_⟩, validate_eq_ok.mpr hstrayed, by decide,
    saved, hsaved, ?_⟩
  · rw [exists_save_iff hstandard]
    decide
  · rw [Ne, load_read_eq_ok_iff hstrayed (by decide) hsaved]
    decide +kernel

end Config

end DryRun

import DryRun.Number.Double
import DryRun.Report

/-!
# Reports for people

A report is a line for each fact. Times are given in hours, minutes and seconds as well as in
seconds with one decimal place, coordinates with three places, and rates as short as they
can be.
-/

namespace DryRun

/-- A number with at least two digits. -/
def twoDigits (n : Nat) : String := if n < 10 then "0" ++ toString n else toString n

/-- The most seconds that a time can be counted in: as many as 64 bits hold. -/
def maxSeconds : Int := 0xFFFFFFFFFFFFFFFF

/-- Seconds as hours, minutes and seconds, to the nearest second. What is not a finite
positive time is no time. -/
def durationText {α : Type} [Scalar α] (seconds : α) : String :=
  let total :=
    if Scalar.isFinite seconds && decide (0 < seconds) then
      (Scalar.roundBetween 0 maxSeconds seconds).toNat
    else 0
  toString (total / 3600) ++ ":" ++ twoDigits (total / 60 % 60) ++ ":" ++ twoDigits (total % 60)

namespace Report

/-- A heading with the extent of each axis below it. -/
def boxLines (title : String) (b : BoundingBox Float) : List String :=
  (title ++ ":") :: (b.min.entries.zip b.max.entries).map fun (low, high) =>
    "  " ++ low.1.toUpper.toString ++ ": " ++ Double.fixed 3 low.2 ++ " .. " ++
      Double.fixed 3 high.2

/-- The flagged lines, below a heading that counts them. -/
def flaggedLines (r : Report Float) : List String :=
  if r.hasFlagged then
    ("Invalid lines (" ++ toString r.flagged.toList.length ++ "):") ::
      r.flagged.toList.map ("  " ++ ·)
  else []

/-- The lines of a report. -/
def textLines (r : Report Float) : List String :=
  ["Estimated time: " ++ durationText r.totalTime ++ " (" ++ Double.fixed 1 r.totalTime ++ " s)",
    "Lines: " ++ toString r.lines,
    "Units: " ++ r.units.name] ++
  boxLines "Work bounds" r.box ++
  boxLines "Machine bounds" r.machineBox ++
  ["Tools: " ++ ", ".intercalate (r.tools.toList.map fun t => "T" ++ toString t),
    "Feed rates: " ++ ", ".intercalate (r.feedRates.values.map Scalar.text),
    "Spindle speeds: " ++ ", ".intercalate (r.spindleSpeeds.values.map Scalar.text),
    "Tool selects: " ++ toString r.toolSelects ++ ", tool changes: " ++ toString r.toolChanges] ++
  flaggedLines r

/-- The text of a report; every line ends with a line feed. -/
def text (r : Report Float) : String := String.join (r.textLines.map (· ++ "\n"))

end Report

end DryRun

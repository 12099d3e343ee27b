import DryRun.Arc
import DryRun.Block
import DryRun.Block.Comment
import DryRun.Block.Data
import DryRun.Block.Scan
import DryRun.Bounds
import DryRun.CommandLine
import DryRun.CommandLine.Arguments
import DryRun.Config
import DryRun.Config.File
import DryRun.DistinctValues
import DryRun.Evaluate
import DryRun.Evaluate.Action
import DryRun.Evaluate.Modal
import DryRun.Evaluate.Motion
import DryRun.Event
import DryRun.Fault
import DryRun.Folder
import DryRun.Frame
import DryRun.Json
import DryRun.Json.Decode
import DryRun.Json.Reader
import DryRun.Machine
import DryRun.Main
import DryRun.Motion
import DryRun.Move
import DryRun.Number.Decimal
import DryRun.Number.Double
import DryRun.Number.Scalar
import DryRun.OrderedSet
import DryRun.Plane
import DryRun.Proofs.Admissible
import DryRun.Proofs.Announcement
import DryRun.Proofs.ArcAsLine
import DryRun.Proofs.AxisCycle
import DryRun.Proofs.Bounds
import DryRun.Proofs.Catalogue
import DryRun.Proofs.Checked
import DryRun.Proofs.CodeSpelling
import DryRun.Proofs.Comments
import DryRun.Proofs.ConfigFile
import DryRun.Proofs.DistanceMode
import DryRun.Proofs.DistinctValues
import DryRun.Proofs.Divisors
import DryRun.Proofs.Envelope
import DryRun.Proofs.EventText
import DryRun.Proofs.Folder
import DryRun.Proofs.FrameConsistency
import DryRun.Proofs.FrameConversion
import DryRun.Proofs.FrameIndependence
import DryRun.Proofs.Grammar
import DryRun.Proofs.Homogeneity
import DryRun.Proofs.Indexing
import DryRun.Proofs.InverseTime
import DryRun.Proofs.Json.Numbers
import DryRun.Proofs.Json.ReadBack
import DryRun.Proofs.Json.RoundTrip
import DryRun.Proofs.Kinematics
import DryRun.Proofs.Labels
import DryRun.Proofs.LetterCase
import DryRun.Proofs.Line
import DryRun.Proofs.LineTime
import DryRun.Proofs.Lockstep
import DryRun.Proofs.MachinePath
import DryRun.Proofs.MachineWords
import DryRun.Proofs.MoveOrders
import DryRun.Proofs.Number.Angles
import DryRun.Proofs.Number.Differences
import DryRun.Proofs.Number.Growth
import DryRun.Proofs.Number.Laws
import DryRun.Proofs.Number.OfDecimal
import DryRun.Proofs.Number.Packing
import DryRun.Proofs.Number.Real
import DryRun.Proofs.Number.Rounded
import DryRun.Proofs.Number.Rounding
import DryRun.Proofs.Number.Shortest
import DryRun.Proofs.Number.Tenths
import DryRun.Proofs.OffsetCommands
import DryRun.Proofs.Operation
import DryRun.Proofs.Orders
import DryRun.Proofs.PhysicalTimes
import DryRun.Proofs.PlainLines
import DryRun.Proofs.PlaneSymmetry
import DryRun.Proofs.RadiusCentre
import DryRun.Proofs.Reading
import DryRun.Proofs.Records
import DryRun.Proofs.ReferenceReturn
import DryRun.Proofs.RenamedMachine
import DryRun.Proofs.Restart
import DryRun.Proofs.Run
import DryRun.Proofs.Shape
import DryRun.Proofs.SkippedMotion
import DryRun.Proofs.Spelling
import DryRun.Proofs.SplitMoves
import DryRun.Proofs.StickyMotion
import DryRun.Proofs.Streaming
import DryRun.Proofs.SweptAngle
import DryRun.Proofs.Text.Utf8
import DryRun.Proofs.TimeGrowth
import DryRun.Proofs.TimeIndependence
import DryRun.Proofs.TimeLedger
import DryRun.Proofs.TwoPhases
import DryRun.Proofs.UnitInvariance
import DryRun.Proofs.WordOrder
import DryRun.Report
import DryRun.Report.Text
import DryRun.Spindle
import DryRun.State
import DryRun.Text.CharClass
import DryRun.Text.Utf8
import DryRun.Timing
import DryRun.Units
import DryRun.Word

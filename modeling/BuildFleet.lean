import BuildFleet.CommandLine.Basic
import BuildFleet.CommandLine.Grammar
import BuildFleet.CommandLine.Program
import BuildFleet.Decimal
import BuildFleet.Device.Adb
import BuildFleet.Device.Bridge
import BuildFleet.Device.Error
import BuildFleet.Device.Process
import BuildFleet.Device.Reply
import BuildFleet.Device.Script
import BuildFleet.Dictionary
import BuildFleet.Document.Datum
import BuildFleet.Document.Source
import BuildFleet.Document.Untyped
import BuildFleet.FileTree
import BuildFleet.Host.Basic
import BuildFleet.Host.Document
import BuildFleet.Instant
import BuildFleet.Json.Basic
import BuildFleet.Json.Number
import BuildFleet.Json.Parser
import BuildFleet.Json.Printer
import BuildFleet.Json.Source
import BuildFleet.Json.Token
import BuildFleet.Main
import BuildFleet.Path
import BuildFleet.Registry
import BuildFleet.Report
import BuildFleet.Run
import BuildFleet.RunId
import BuildFleet.Span
import BuildFleet.Step.Catalog
import BuildFleet.Step.Context
import BuildFleet.Step.Failure
import BuildFleet.Step.Install
import BuildFleet.Step.Outcome
import BuildFleet.Step.Params
import BuildFleet.Step.State
import BuildFleet.Table.Basic
import BuildFleet.Table.Builtin
import BuildFleet.Table.Document
import BuildFleet.Table.File
import BuildFleet.Terminal
import BuildFleet.Text.Blank
import BuildFleet.Text.Utf8
import BuildFleet.Timer
import BuildFleet.Yaml.Cursor
import BuildFleet.Yaml.Layout
import BuildFleet.Yaml.Node
import BuildFleet.Yaml.Plain
import BuildFleet.Yaml.Printer
import BuildFleet.Yaml.Source
import BuildFleet.Yaml.Tag
import BuildFleet.Yaml.Token
import BuildFleet.Proofs.Lifecycle
import BuildFleet.Proofs.Recording
import BuildFleet.Proofs.InstallCourse
import BuildFleet.Proofs.RunCourse
import BuildFleet.Proofs.RunEvents
import BuildFleet.Proofs.RunAuthority
import BuildFleet.Proofs.RunRefusal
import BuildFleet.Proofs.TypedReading
import BuildFleet.Proofs.TypedValues
import BuildFleet.Proofs.JsonDocuments
import BuildFleet.Proofs.YamlDocuments
import BuildFleet.Proofs.SoundTables
import BuildFleet.Proofs.KnownHosts
import BuildFleet.Proofs.Settling
import BuildFleet.Proofs.AdbCommands
import BuildFleet.Proofs.LongerLimits
import BuildFleet.Proofs.Utf8Text
import BuildFleet.Proofs.FirstFaults
import BuildFleet.Proofs.WorkerAddressing
import BuildFleet.Proofs.WorkerLookup
import BuildFleet.Proofs.FailureMarkers
import BuildFleet.Proofs.StepNotes
import BuildFleet.Proofs.CallAgreement
import BuildFleet.Proofs.AdbLimits
import BuildFleet.Proofs.ToldLimits
import BuildFleet.Proofs.LineReading
import BuildFleet.Proofs.RunLine
import BuildFleet.Proofs.AlikeReadings
import BuildFleet.Proofs.RearrangedTables
import BuildFleet.Proofs.RearrangedDocuments
import BuildFleet.Proofs.PathSegments
import BuildFleet.Proofs.ShownRoots

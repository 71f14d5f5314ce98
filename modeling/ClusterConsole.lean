import ClusterConsole.Background.Errand
import ClusterConsole.Background.Ledger
import ClusterConsole.Background.News
import ClusterConsole.Background.Queue
import ClusterConsole.Background.Run
import ClusterConsole.Background.SettingsWatch
import ClusterConsole.Background.Stage
import ClusterConsole.Benchmark.Archive
import ClusterConsole.Benchmark.Course
import ClusterConsole.Benchmark.Load
import ClusterConsole.Benchmark.Report
import ClusterConsole.Benchmark.Runner
import ClusterConsole.Benchmark.Settings
import ClusterConsole.Benchmark.SettingsText
import ClusterConsole.Cluster.Access
import ClusterConsole.Cluster.Document
import ClusterConsole.Cluster.Gateway
import ClusterConsole.Cluster.Object
import ClusterConsole.Cluster.Portal
import ClusterConsole.Cluster.Rows
import ClusterConsole.Cluster.Server
import ClusterConsole.Cluster.Shape
import ClusterConsole.Console.Action
import ClusterConsole.Console.Hearing
import ClusterConsole.Console.Hotkey
import ClusterConsole.Console.Key
import ClusterConsole.Console.LiveView
import ClusterConsole.Console.Requests
import ClusterConsole.Console.Sitting
import ClusterConsole.Console.State
import ClusterConsole.Console.Step
import ClusterConsole.Console.Views
import ClusterConsole.Forwarding.Mapping
import ClusterConsole.Forwarding.Registry
import ClusterConsole.Forwarding.Session
import ClusterConsole.Forwarding.Tunnel
import ClusterConsole.Launch.Arguments
import ClusterConsole.Launch.Preferences
import ClusterConsole.Main
import ClusterConsole.Number.Binary64
import ClusterConsole.Number.Decimal
import ClusterConsole.Proofs.Background.Account
import ClusterConsole.Proofs.Background.Backdrop
import ClusterConsole.Proofs.Background.Dispatch
import ClusterConsole.Proofs.Background.Front
import ClusterConsole.Proofs.Background.Lookout
import ClusterConsole.Proofs.Background.Mirror
import ClusterConsole.Proofs.Background.Queueing
import ClusterConsole.Proofs.Background.Readings
import ClusterConsole.Proofs.Benchmark.Bookkeeping
import ClusterConsole.Proofs.Benchmark.Filing
import ClusterConsole.Proofs.Benchmark.Holdover
import ClusterConsole.Proofs.Benchmark.HotReload
import ClusterConsole.Proofs.Benchmark.Layers
import ClusterConsole.Proofs.Benchmark.ReadBack
import ClusterConsole.Proofs.Benchmark.ReportNames
import ClusterConsole.Proofs.Benchmark.Series
import ClusterConsole.Proofs.Benchmark.Shelf
import ClusterConsole.Proofs.Benchmark.SingleFlight
import ClusterConsole.Proofs.Benchmark.Slot
import ClusterConsole.Proofs.Benchmark.Spending
import ClusterConsole.Proofs.Benchmark.Stock
import ClusterConsole.Proofs.Benchmark.Tally
import ClusterConsole.Proofs.Benchmark.Verdict
import ClusterConsole.Proofs.Benchmark.Workers
import ClusterConsole.Proofs.Cluster.KeyOrder
import ClusterConsole.Proofs.Cluster.Paging
import ClusterConsole.Proofs.Cluster.PortalCourse
import ClusterConsole.Proofs.Cluster.PortalTrust
import ClusterConsole.Proofs.Cluster.Runnable
import ClusterConsole.Proofs.Console.Attendance
import ClusterConsole.Proofs.Console.Bearing
import ClusterConsole.Proofs.Console.Census
import ClusterConsole.Proofs.Console.Consent
import ClusterConsole.Proofs.Console.Deed
import ClusterConsole.Proofs.Console.Descent
import ClusterConsole.Proofs.Console.Desk
import ClusterConsole.Proofs.Console.ForwardsView
import ClusterConsole.Proofs.Console.Keyboard
import ClusterConsole.Proofs.Console.Letters
import ClusterConsole.Proofs.Console.Navigation
import ClusterConsole.Proofs.Console.Opened
import ClusterConsole.Proofs.Console.OwnView
import ClusterConsole.Proofs.Console.Passage
import ClusterConsole.Proofs.Console.Seated
import ClusterConsole.Proofs.Console.Sitting
import ClusterConsole.Proofs.Console.StatusLine
import ClusterConsole.Proofs.Forwarding.Census
import ClusterConsole.Proofs.Forwarding.Changes
import ClusterConsole.Proofs.Forwarding.DefaultPort
import ClusterConsole.Proofs.Forwarding.Exchange
import ClusterConsole.Proofs.Forwarding.Life
import ClusterConsole.Proofs.Forwarding.Lookup
import ClusterConsole.Proofs.Forwarding.Moves
import ClusterConsole.Proofs.Forwarding.NoOrphans
import ClusterConsole.Proofs.Forwarding.Onward
import ClusterConsole.Proofs.Forwarding.PortGrammar
import ClusterConsole.Proofs.Forwarding.Reporting
import ClusterConsole.Proofs.Forwarding.StaleReports
import ClusterConsole.Proofs.Forwarding.Telling
import ClusterConsole.Proofs.Number.BitOrder
import ClusterConsole.Proofs.Number.Nearest
import ClusterConsole.Proofs.Number.Reading
import ClusterConsole.Proofs.Number.Rounding
import ClusterConsole.Proofs.Number.Written
import ClusterConsole.Proofs.Resource.AgeGroups
import ClusterConsole.Proofs.Resource.Label
import ClusterConsole.Proofs.Snapshot.AgeColumn
import ClusterConsole.Proofs.Snapshot.AgeReading
import ClusterConsole.Proofs.Snapshot.Arrangement
import ClusterConsole.Proofs.Snapshot.Comparison
import ClusterConsole.Proofs.Snapshot.Departures
import ClusterConsole.Proofs.Snapshot.Diff
import ClusterConsole.Proofs.Snapshot.Index
import ClusterConsole.Proofs.Snapshot.NumberReading
import ClusterConsole.Proofs.Snapshot.Succession
import ClusterConsole.Proofs.Storage.Listing
import ClusterConsole.Proofs.Storage.Overwriting
import ClusterConsole.Proofs.Text.Casing
import ClusterConsole.Proofs.Text.Lines
import ClusterConsole.Proofs.Text.Trimming
import ClusterConsole.Proofs.Watching.Carriage
import ClusterConsole.Proofs.Watching.ChangeLog
import ClusterConsole.Proofs.Watching.OneCycle
import ClusterConsole.Proofs.Watching.Requests
import ClusterConsole.Proofs.Watching.Rest
import ClusterConsole.Proofs.Watching.Timetable
import ClusterConsole.Proofs.Watching.Traffic
import ClusterConsole.Proofs.Watching.Vigil
import ClusterConsole.Resource.Age
import ClusterConsole.Resource.Kind
import ClusterConsole.Resource.Name
import ClusterConsole.Resource.Scope
import ClusterConsole.Screen.Frame
import ClusterConsole.Screen.Strip
import ClusterConsole.Screen.Style
import ClusterConsole.Screen.Wrap
import ClusterConsole.Snapshot.Entry
import ClusterConsole.Snapshot.Sorting
import ClusterConsole.Snapshot.Table
import ClusterConsole.Status.Failure
import ClusterConsole.Status.Notice
import ClusterConsole.Storage.Files
import ClusterConsole.Storage.Path
import ClusterConsole.Storage.Watch
import ClusterConsole.Text.Blank
import ClusterConsole.Text.Cut
import ClusterConsole.Text.Quoted
import ClusterConsole.Text.Width
import ClusterConsole.Time.Calendar
import ClusterConsole.Watching.PollLoop
import ClusterConsole.Watching.Timeline
import ClusterConsole.Watching.Watcher
import ClusterConsole.Web.Address
import ClusterConsole.Web.Url
import ClusterConsole.Yaml.Cursor
import ClusterConsole.Yaml.Node
import ClusterConsole.Yaml.Record
import ClusterConsole.Yaml.Scalar
import ClusterConsole.Yaml.Token

import IncludeTrace.Main
import IncludeTrace.Package.Program
import IncludeTrace.Session.Script
import IncludeTrace.Proofs.Graph.Growth
import IncludeTrace.Proofs.Transcript.Trail
import IncludeTrace.Proofs.Transcript.Parents
import IncludeTrace.Proofs.Transcript.Fault
import IncludeTrace.Proofs.Transcript.Independence
import IncludeTrace.Proofs.Graph.Forest
import IncludeTrace.Proofs.Transcript.Written
import IncludeTrace.Proofs.Transcript.RoundTrip
import IncludeTrace.Proofs.Session.Steps
import IncludeTrace.Proofs.Graph.History
import IncludeTrace.Proofs.Session.Result
import IncludeTrace.Proofs.Session.Course
import IncludeTrace.Proofs.Session.Flags
import IncludeTrace.Proofs.Database.Flags
import IncludeTrace.Proofs.Session.Service
import IncludeTrace.Proofs.Session.Turns
import IncludeTrace.Proofs.Text.Utf8
import IncludeTrace.Proofs.Graph.Arcs
import IncludeTrace.Proofs.Json.Texts
import IncludeTrace.Proofs.Json.RoundTrip
import IncludeTrace.Proofs.Export.NodeLink
import IncludeTrace.Proofs.Path.Normal
import IncludeTrace.Proofs.Path.Spelling
import IncludeTrace.Proofs.Graph.Shown
import IncludeTrace.Proofs.Transcript.Separators
import IncludeTrace.Proofs.Text.Casing
import IncludeTrace.Proofs.Export.Dot
import IncludeTrace.Proofs.Export.XmlGraphs
import IncludeTrace.Proofs.Path.Faithful
import IncludeTrace.Proofs.Database.Listing
import IncludeTrace.Proofs.Command.Wrappers
import IncludeTrace.Proofs.Database.Wrappers
import IncludeTrace.Proofs.CommandLine.Attempts
import IncludeTrace.Proofs.Database.Trace
import IncludeTrace.Proofs.CommandLine.Work
import IncludeTrace.Proofs.CommandLine.Program
import IncludeTrace.Proofs.Graph.Outline
import IncludeTrace.Proofs.Graph.Reached
import IncludeTrace.Proofs.Graph.Limit
import IncludeTrace.Proofs.Transcript.Drawn
import IncludeTrace.Proofs.Path.Respelling
import IncludeTrace.Proofs.Transcript.Noise
import IncludeTrace.Proofs.Command.Directives
import IncludeTrace.Proofs.Path.Change
import IncludeTrace.Proofs.Path.Names
import IncludeTrace.Proofs.Path.Directory
import IncludeTrace.Proofs.Graph.Canonical
import IncludeTrace.Proofs.Command.Output
import IncludeTrace.Proofs.Command.Needed
import IncludeTrace.Proofs.Command.Working
import IncludeTrace.Proofs.Command.Quoting
import IncludeTrace.Proofs.Database.Units
import IncludeTrace.Proofs.Database.Opening
import IncludeTrace.Proofs.Database.Asking
import IncludeTrace.Proofs.Command.DriverQuoting
import IncludeTrace.Proofs.Database.Output
import IncludeTrace.Proofs.Database.Files
import IncludeTrace.Proofs.World.Writing
import IncludeTrace.Proofs.Export.Untouched

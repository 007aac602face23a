import RouteScaffold.Name
import RouteScaffold.Path
import RouteScaffold.Document.Json
import RouteScaffold.Document.Yaml
import RouteScaffold.Spec.Load
import RouteScaffold.Spec.Tour
import RouteScaffold.Routing.RouteTable
import RouteScaffold.RoutingModule.Parts
import RouteScaffold.Expansion
import RouteScaffold.ArtifactWriter
import RouteScaffold.Override
import RouteScaffold.Config.Load
import RouteScaffold.EnvFile
import RouteScaffold.Log.Filter
import RouteScaffold.Pattern.Search
import RouteScaffold.Git.Workspace
import RouteScaffold.Git.InMemory
import RouteScaffold.Run.Stage
import RouteScaffold.RunError.Report
import RouteScaffold.CommandLine.Help
import RouteScaffold.Session
import RouteScaffold.Shell
import RouteScaffold.Main
import RouteScaffold.Proofs.Schema.Entries
import RouteScaffold.Proofs.Names
import RouteScaffold.Proofs.Schema.Admissible
import RouteScaffold.Proofs.Schema.Described
import RouteScaffold.Proofs.Routing.FreeName
import RouteScaffold.Proofs.Routing.Attempts
import RouteScaffold.Proofs.Schema.Accepted
import RouteScaffold.Proofs.Routing.Table
import RouteScaffold.Proofs.Routing.Elements
import RouteScaffold.Proofs.Routing.Trails
import RouteScaffold.Proofs.Routing.Agreement
import RouteScaffold.Proofs.Routing.PathJoin
import RouteScaffold.Proofs.Routing.FullPaths
import RouteScaffold.Proofs.Routing.BindingNames
import RouteScaffold.Proofs.Routing.Icons
import RouteScaffold.Proofs.Splitting
import RouteScaffold.Proofs.Routing.FirstUse
import RouteScaffold.Proofs.RoutingModule.Lines
import RouteScaffold.Proofs.RoutingModule.TopNames
import RouteScaffold.Proofs.RoutingModule.BoundNames
import RouteScaffold.Proofs.Outcomes
import RouteScaffold.Proofs.ToolOutput
import RouteScaffold.Proofs.Tour.DepthFirst
import RouteScaffold.Proofs.Expansion.Planner
import RouteScaffold.Proofs.Expansion.Paths
import RouteScaffold.Proofs.Specifiers
import RouteScaffold.Proofs.Expansion.Imports
import RouteScaffold.Proofs.RoutingModule.Scope
import RouteScaffold.Proofs.Script.Value
import RouteScaffold.Proofs.Script.Token
import RouteScaffold.Proofs.Script.Syntax
import RouteScaffold.Proofs.Script.Evaluation
import RouteScaffold.Proofs.RoutingModule.Program
import RouteScaffold.Proofs.RoutingModule.RoutesObject
import RouteScaffold.Proofs.RoutingModule.Reader
import RouteScaffold.Proofs.RoutingModule.Lockstep
import RouteScaffold.Proofs.RoutingModule.ReadBack
import RouteScaffold.Proofs.RoutingModule.Nodes
import RouteScaffold.Proofs.RoutingModule.Closed
import RouteScaffold.Proofs.Run.WrittenPaths
import RouteScaffold.Proofs.Document.DistinctKeys
import RouteScaffold.Proofs.Schema.Diagnosed
import RouteScaffold.Proofs.Routing.NameForms
import RouteScaffold.Proofs.RoutingModule.RoutesListed
import RouteScaffold.Proofs.Routing.Extension
import RouteScaffold.Proofs.Writing.Interleavings
import RouteScaffold.Proofs.Writing.Failures
import RouteScaffold.Proofs.Writing.Polling
import RouteScaffold.Proofs.Files.Places
import RouteScaffold.Proofs.Files.Effects
import RouteScaffold.Proofs.Joining
import RouteScaffold.Proofs.Configurations
import RouteScaffold.Proofs.Patterns
import RouteScaffold.Proofs.References
import RouteScaffold.Proofs.Script.StringLiteral
import RouteScaffold.Proofs.Script.Children
import RouteScaffold.Proofs.Titles
import RouteScaffold.Proofs.Templates
import RouteScaffold.Proofs.RoutingModule.IconPackage
import RouteScaffold.Proofs.Files.Kept
import RouteScaffold.Proofs.Files.Inside
import RouteScaffold.Proofs.Files.Tracked
import RouteScaffold.Proofs.Files.Equipped
import RouteScaffold.Proofs.Files.Passable
import RouteScaffold.Proofs.Files.Told
import RouteScaffold.Proofs.Files.Sound
import RouteScaffold.Proofs.Writing.OnDisk
import RouteScaffold.Proofs.Files.Repeated
import RouteScaffold.Proofs.Files.Entries
import RouteScaffold.Proofs.Files.Removed
import RouteScaffold.Proofs.Files.Cleared
import RouteScaffold.Proofs.Files.Folder
import RouteScaffold.Proofs.Expansion.Written
import RouteScaffold.Proofs.Expansion.Shape
import RouteScaffold.Proofs.Files.Looking
import RouteScaffold.Proofs.Run.Rejection
import RouteScaffold.Proofs.Run.Course
import RouteScaffold.Proofs.Files.Changes
import RouteScaffold.Proofs.Run.Work
import RouteScaffold.Proofs.Run.StageEffects
import RouteScaffold.Proofs.Run.Order
import RouteScaffold.Proofs.Run.Parts
import RouteScaffold.Proofs.Run.Placement
import RouteScaffold.Proofs.Run.Sources
import RouteScaffold.Proofs.Run.Unhindered
import RouteScaffold.Proofs.Run.Directories
import RouteScaffold.Proofs.Run.Reread
import RouteScaffold.Proofs.Run.Made
import RouteScaffold.Proofs.Run.Again
import RouteScaffold.Proofs.Git.Documented
import RouteScaffold.Proofs.Git.Staging
import RouteScaffold.Proofs.Git.InMemory
import RouteScaffold.Proofs.Git.History
import RouteScaffold.Proofs.Statuses

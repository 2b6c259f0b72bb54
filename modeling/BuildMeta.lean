import BuildMeta.Binary64.Basic
import BuildMeta.Binary64.Decimal
import BuildMeta.Build.Command
import BuildMeta.Build.Configure
import BuildMeta.Build.Coverage
import BuildMeta.Build.Describe
import BuildMeta.Build.Drawing
import BuildMeta.Build.Event
import BuildMeta.Build.External
import BuildMeta.Build.Generator
import BuildMeta.Build.Hooks
import BuildMeta.Build.PcFile
import BuildMeta.Build.Reuse
import BuildMeta.Build.Session
import BuildMeta.Build.SharedName
import BuildMeta.Build.Switches
import BuildMeta.Build.TestReport
import BuildMeta.Build.TestTask
import BuildMeta.Build.Toolchain
import BuildMeta.BuildConfig.Basic
import BuildMeta.BuildConfig.Make
import BuildMeta.CommandLine.Basic
import BuildMeta.CommandLine.Help
import BuildMeta.CommandLine.Parse
import BuildMeta.Compiler.Info
import BuildMeta.Compiler.Pair
import BuildMeta.Datum
import BuildMeta.Digraph.Basic
import BuildMeta.Digraph.Cycles
import BuildMeta.Digraph.Dot
import BuildMeta.Digraph.Order
import BuildMeta.EnvCommand
import BuildMeta.Failure
import BuildMeta.FileTree
import BuildMeta.Flags.BuildFlags
import BuildMeta.Flags.Partition
import BuildMeta.Flags.Style
import BuildMeta.Host
import BuildMeta.InstallConfig
import BuildMeta.Json.Document
import BuildMeta.Json.Token
import BuildMeta.Main
import BuildMeta.Notice
import BuildMeta.Options.Defaults
import BuildMeta.Options.Evaluate
import BuildMeta.Options.Store
import BuildMeta.Path
import BuildMeta.Path.Style
import BuildMeta.Pkg.Command
import BuildMeta.Pkg.Contents
import BuildMeta.Pkg.Finding
import BuildMeta.Pkg.Package
import BuildMeta.Pkg.Query
import BuildMeta.Pkg.Requirement
import BuildMeta.Pkg.Search
import BuildMeta.Pkg.Settings
import BuildMeta.Pkg.Substitute
import BuildMeta.Pkg.Version
import BuildMeta.Proofs.Build.Applications
import BuildMeta.Proofs.Build.Distribution
import BuildMeta.Proofs.Build.Session
import BuildMeta.Proofs.Build.Thresholds
import BuildMeta.Proofs.BuildConfig.BuildOrder
import BuildMeta.Proofs.BuildConfig.Capability
import BuildMeta.Proofs.BuildConfig.Entries
import BuildMeta.Proofs.BuildConfig.Externals
import BuildMeta.Proofs.BuildConfig.Failures
import BuildMeta.Proofs.BuildConfig.Faithful
import BuildMeta.Proofs.BuildConfig.LoadOrder
import BuildMeta.Proofs.BuildConfig.Locality
import BuildMeta.Proofs.BuildConfig.Membership
import BuildMeta.Proofs.BuildConfig.Steps
import BuildMeta.Proofs.Cycle
import BuildMeta.Proofs.Digraph.Agreement
import BuildMeta.Proofs.Digraph.Components
import BuildMeta.Proofs.Digraph.CycleSearch
import BuildMeta.Proofs.Digraph.Cycles
import BuildMeta.Proofs.Digraph.DefaultRoots
import BuildMeta.Proofs.Digraph.Drawing
import BuildMeta.Proofs.Digraph.LevelOrder
import BuildMeta.Proofs.Digraph.Levels
import BuildMeta.Proofs.Digraph.Reach
import BuildMeta.Proofs.Digraph.Reduction
import BuildMeta.Proofs.Digraph.TopologicalOrder
import BuildMeta.Proofs.Digraph.Walk
import BuildMeta.Proofs.EnvCommand.CompilerChoice
import BuildMeta.Proofs.EnvCommand.KeptPrefix
import BuildMeta.Proofs.EnvCommand.Settings
import BuildMeta.Proofs.Flags.LinkParts
import BuildMeta.Proofs.Host.InstallDir
import BuildMeta.Proofs.InstallConfig.Selection
import BuildMeta.Proofs.Options.Evaluation
import BuildMeta.Proofs.Options.References
import BuildMeta.Proofs.Options.Repeating
import BuildMeta.Proofs.Options.Sequence
import BuildMeta.Proofs.Options.Solution
import BuildMeta.Proofs.Options.Storing
import BuildMeta.Proofs.Outcome
import BuildMeta.Proofs.Path.Joining
import BuildMeta.Proofs.Pkg.Bounds
import BuildMeta.Proofs.Pkg.Comparison
import BuildMeta.Proofs.Pkg.Continuation
import BuildMeta.Proofs.Pkg.Dependencies
import BuildMeta.Proofs.Pkg.FlagQueries
import BuildMeta.Proofs.Pkg.LinkOrder
import BuildMeta.Proofs.Pkg.LinkTokens
import BuildMeta.Proofs.Pkg.OnePass
import BuildMeta.Proofs.Pkg.Parts
import BuildMeta.Proofs.Pkg.Reading
import BuildMeta.Proofs.Pkg.RoundTrip
import BuildMeta.Proofs.Pkg.SearchOrder
import BuildMeta.Proofs.Pkg.Shadowing
import BuildMeta.Proofs.Pkg.SpecLists
import BuildMeta.Proofs.Pkg.Substitution
import BuildMeta.Proofs.Repo.Loaded
import BuildMeta.Proofs.Repo.Members
import BuildMeta.Proofs.Repo.PlusPackages
import BuildMeta.Proofs.Repo.Survey
import BuildMeta.Proofs.Repo.Verified
import BuildMeta.Proofs.Repo.Versions
import BuildMeta.Proofs.Rule.Delivery
import BuildMeta.Proofs.Rule.Groups
import BuildMeta.Proofs.Rule.KeyEnd
import BuildMeta.Proofs.Rule.LineForm
import BuildMeta.Proofs.Rule.RoundTrip
import BuildMeta.Proofs.TestRun.OneWorker
import BuildMeta.Proofs.TestRun.Skipping
import BuildMeta.Proofs.TestRun.Verdict
import BuildMeta.Proofs.Text.Cut
import BuildMeta.Proofs.Text.Digits
import BuildMeta.Proofs.Text.Lower
import BuildMeta.Proofs.Text.Matching
import BuildMeta.Proofs.Text.PatternReading
import BuildMeta.Proofs.Text.Plain
import BuildMeta.Proofs.Text.Sort
import BuildMeta.Proofs.Text.Template
import BuildMeta.Proofs.VersionOrder
import BuildMeta.Repo.Component
import BuildMeta.Repo.Context
import BuildMeta.Repo.Include
import BuildMeta.Repo.Layout
import BuildMeta.Repo.Listing
import BuildMeta.Repo.Release
import BuildMeta.Repo.SourceUnit
import BuildMeta.Repo.Verify
import BuildMeta.Rule.Basic
import BuildMeta.Rule.Format
import BuildMeta.Rule.Line
import BuildMeta.Rule.Reader
import BuildMeta.Shell
import BuildMeta.Table
import BuildMeta.TestRun.Command
import BuildMeta.TestRun.Policy
import BuildMeta.TestRun.Pool
import BuildMeta.TestRun.Runner
import BuildMeta.Text.Case
import BuildMeta.Text.Classes
import BuildMeta.Text.Cut
import BuildMeta.Text.Encoding
import BuildMeta.Text.Format
import BuildMeta.Text.Integer
import BuildMeta.Text.Pattern.Basic
import BuildMeta.Text.Pattern.Match
import BuildMeta.Text.Pattern.Reader
import BuildMeta.Text.Quote
import BuildMeta.Text.ShellWords
import BuildMeta.Ufid
import BuildMeta.Ufid.Choice
import BuildMeta.Ufid.Switches
import BuildMeta.Uplid
import BuildMeta.VersionOrder
import BuildMeta.Workload
import BuildMeta.Workload.Basic
import BuildMeta.Workload.Graphs
import BuildMeta.Workload.Hosts
import BuildMeta.Workload.Packages
import BuildMeta.Workload.Repositories
import BuildMeta.Workload.Rules

import NetworkCompiler.CommandLine.Arguments
import NetworkCompiler.CommandLine.CommandError
import NetworkCompiler.CommandLine.Commands
import NetworkCompiler.CommandLine.OutputGuard
import NetworkCompiler.CommandLine.Platform
import NetworkCompiler.CommandLine.Session
import NetworkCompiler.Compilation.Scripts
import NetworkCompiler.ConfigUnit.Basic
import NetworkCompiler.ConfigUnit.Catalogue
import NetworkCompiler.ConfigUnit.Execution
import NetworkCompiler.ConfigUnit.Json
import NetworkCompiler.ConfigUnit.RunSummary
import NetworkCompiler.ConfigUnit.Script
import NetworkCompiler.Decimal.Shortest
import NetworkCompiler.Dictionary
import NetworkCompiler.Digest.Checksums
import NetworkCompiler.Failure
import NetworkCompiler.FileTree.Path
import NetworkCompiler.FileTree.Tree
import NetworkCompiler.Firewall.Endpoint
import NetworkCompiler.Firewall.Kind
import NetworkCompiler.Firewall.Plan
import NetworkCompiler.Firewall.Ruleset
import NetworkCompiler.Firewall.Table
import NetworkCompiler.Firewall.Zone
import NetworkCompiler.InputError
import NetworkCompiler.Interface
import NetworkCompiler.Ipv4.Block
import NetworkCompiler.Ipv4.FreeBlock
import NetworkCompiler.Json.Comments
import NetworkCompiler.Json.Number
import NetworkCompiler.Json.Printer
import NetworkCompiler.Json.Reader
import NetworkCompiler.Json.Typed
import NetworkCompiler.Json.Value
import NetworkCompiler.Mac
import NetworkCompiler.Machine
import NetworkCompiler.Main
import NetworkCompiler.Mode
import NetworkCompiler.Network.Compiled
import NetworkCompiler.Network.Description
import NetworkCompiler.Network.Graph
import NetworkCompiler.Network.GraphConstruction
import NetworkCompiler.Network.GraphJson
import NetworkCompiler.Network.InterfaceEntries
import NetworkCompiler.Network.Loading
import NetworkCompiler.Network.MachineEntries
import NetworkCompiler.Proofs.CommandLine.KeptInput
import NetworkCompiler.Proofs.CommandLine.Outputs
import NetworkCompiler.Proofs.CommandLine.Places
import NetworkCompiler.Proofs.ConfigUnit.Conduct
import NetworkCompiler.Proofs.ConfigUnit.FileContent
import NetworkCompiler.Proofs.ConfigUnit.Keys
import NetworkCompiler.Proofs.ConfigUnit.Labels
import NetworkCompiler.Proofs.ConfigUnit.Order
import NetworkCompiler.Proofs.ConfigUnit.Runnable
import NetworkCompiler.Proofs.ConfigUnit.Runs
import NetworkCompiler.Proofs.ConfigUnit.ScriptParsing
import NetworkCompiler.Proofs.ConfigUnit.ScriptReading
import NetworkCompiler.Proofs.ConfigUnit.SecondRun
import NetworkCompiler.Proofs.ConfigUnit.Simulation
import NetworkCompiler.Proofs.ConfigUnit.Summaries
import NetworkCompiler.Proofs.ConfigUnit.Turns
import NetworkCompiler.Proofs.Dictionary
import NetworkCompiler.Proofs.Digest.Checksums
import NetworkCompiler.Proofs.FileTree.Following
import NetworkCompiler.Proofs.FileTree.Growth
import NetworkCompiler.Proofs.FileTree.Leaves
import NetworkCompiler.Proofs.Firewall.Administrators
import NetworkCompiler.Proofs.Firewall.ChainNames
import NetworkCompiler.Proofs.Firewall.DeclaredChains
import NetworkCompiler.Proofs.Firewall.DocumentWords
import NetworkCompiler.Proofs.Firewall.Forwarding
import NetworkCompiler.Proofs.Firewall.Grants
import NetworkCompiler.Proofs.Firewall.LoadableTables
import NetworkCompiler.Proofs.Firewall.OpenPorts
import NetworkCompiler.Proofs.Firewall.OwnTraffic
import NetworkCompiler.Proofs.Firewall.Plans
import NetworkCompiler.Proofs.Firewall.Redirections
import NetworkCompiler.Proofs.Firewall.Resolution
import NetworkCompiler.Proofs.Firewall.RouterChains
import NetworkCompiler.Proofs.Firewall.Throttling
import NetworkCompiler.Proofs.Firewall.Tokens
import NetworkCompiler.Proofs.Firewall.Translations
import NetworkCompiler.Proofs.Firewall.Traversal
import NetworkCompiler.Proofs.Interface
import NetworkCompiler.Proofs.Ipv4.Addresses
import NetworkCompiler.Proofs.Ipv4.Blocks
import NetworkCompiler.Proofs.Ipv4.Words
import NetworkCompiler.Proofs.Json.Comments
import NetworkCompiler.Proofs.Json.CommentsAsBlanks
import NetworkCompiler.Proofs.Json.Tokens
import NetworkCompiler.Proofs.Lists
import NetworkCompiler.Proofs.Mac
import NetworkCompiler.Proofs.Network.Consistency
import NetworkCompiler.Proofs.Network.DeclaredMacs
import NetworkCompiler.Proofs.Network.Graphs
import NetworkCompiler.Proofs.Network.InnerInterfaces
import NetworkCompiler.Proofs.Network.Machines
import NetworkCompiler.Proofs.Network.Names
import NetworkCompiler.Proofs.Network.Ports
import NetworkCompiler.Proofs.Network.Subnets
import NetworkCompiler.Proofs.Network.Targets
import NetworkCompiler.Proofs.Provision.FoldedNames
import NetworkCompiler.Proofs.Provision.HandedOut
import NetworkCompiler.Proofs.Provision.InnerLinks
import NetworkCompiler.Proofs.Provision.LeaseAssignments
import NetworkCompiler.Proofs.Provision.LeaseFiles
import NetworkCompiler.Proofs.Provision.MachineUnits
import NetworkCompiler.Proofs.Provision.NameRecords
import NetworkCompiler.Proofs.Provision.Preconditions
import NetworkCompiler.Proofs.Provision.RenderedAddresses
import NetworkCompiler.Proofs.Provision.ReservationNames
import NetworkCompiler.Proofs.Provision.Reservations
import NetworkCompiler.Proofs.Provision.RouterLinks
import NetworkCompiler.Proofs.Provision.UnitLabels
import NetworkCompiler.Proofs.Report.LateFailures
import NetworkCompiler.Proofs.Report.Verification
import NetworkCompiler.Proofs.Results
import NetworkCompiler.Proofs.Script.Differences
import NetworkCompiler.Proofs.Script.EntryPaths
import NetworkCompiler.Proofs.Script.FixedPoint
import NetworkCompiler.Proofs.Script.Grammar
import NetworkCompiler.Proofs.Script.IgnoredSections
import NetworkCompiler.Proofs.Script.Reading
import NetworkCompiler.Proofs.Script.RoundTrip
import NetworkCompiler.Proofs.Script.SectionTrees
import NetworkCompiler.Proofs.Script.UnchangedSections
import NetworkCompiler.Proofs.Shell.Documents
import NetworkCompiler.Proofs.Shell.Execution
import NetworkCompiler.Proofs.Shell.FileWriting
import NetworkCompiler.Proofs.Shell.Lines
import NetworkCompiler.Proofs.Shell.QuotedWords
import NetworkCompiler.Proofs.Shell.Trees
import NetworkCompiler.Proofs.Shell.WordReading
import NetworkCompiler.Proofs.Text.Reading
import NetworkCompiler.Proofs.Text.Words
import NetworkCompiler.Proofs.Topology.Assignments
import NetworkCompiler.Proofs.Topology.CheckedInputs
import NetworkCompiler.Proofs.Topology.Claims
import NetworkCompiler.Proofs.Topology.Construction
import NetworkCompiler.Proofs.Topology.DeclaredAddresses
import NetworkCompiler.Proofs.Topology.FirstFit
import NetworkCompiler.Proofs.Topology.HardwareAddresses
import NetworkCompiler.Proofs.Topology.Independence
import NetworkCompiler.Proofs.Topology.Insertion
import NetworkCompiler.Proofs.Topology.Placements
import NetworkCompiler.Proofs.Topology.Policies
import NetworkCompiler.Proofs.Topology.Subnets
import NetworkCompiler.Provision.Context
import NetworkCompiler.Provision.Identity
import NetworkCompiler.Provision.Leases
import NetworkCompiler.Provision.Links
import NetworkCompiler.Provision.Names
import NetworkCompiler.Provision.Profile
import NetworkCompiler.Report.Event
import NetworkCompiler.Report.Json
import NetworkCompiler.Report.Overview
import NetworkCompiler.Report.Verification
import NetworkCompiler.Role
import NetworkCompiler.Script.Diff
import NetworkCompiler.Script.DiffReport
import NetworkCompiler.Script.DiffTerminal
import NetworkCompiler.Script.Node
import NetworkCompiler.Script.Parser
import NetworkCompiler.Script.Printer
import NetworkCompiler.Secrets.Reader
import NetworkCompiler.Settings.Basic
import NetworkCompiler.Settings.Reader
import NetworkCompiler.Shell.Arithmetic
import NetworkCompiler.Shell.Builtin
import NetworkCompiler.Shell.Command
import NetworkCompiler.Shell.Condition
import NetworkCompiler.Shell.Expansion
import NetworkCompiler.Shell.Interpreter
import NetworkCompiler.Shell.Pattern
import NetworkCompiler.Shell.Printf
import NetworkCompiler.Shell.Process
import NetworkCompiler.Shell.Remote
import NetworkCompiler.Shell.Statement
import NetworkCompiler.Shell.Token
import NetworkCompiler.Shell.Word
import NetworkCompiler.Terminal.Style
import NetworkCompiler.Text.Numeral
import NetworkCompiler.Text.Split
import NetworkCompiler.Text.Utf8
import NetworkCompiler.Text.Visible
import NetworkCompiler.Toml.Reader
import NetworkCompiler.Toml.Scalar
import NetworkCompiler.Topology.Addresses
import NetworkCompiler.Topology.Basic
import NetworkCompiler.Topology.Construction
import NetworkCompiler.Traffic
import NetworkCompiler.Xml.Element

import SplitBuild.ArcGraph
import SplitBuild.AssetTable
import SplitBuild.BuildGraph
import SplitBuild.Bundle
import SplitBuild.Bundle.Groups
import SplitBuild.Bundle.Validation
import SplitBuild.Command
import SplitBuild.Context
import SplitBuild.Decimal.Binary64
import SplitBuild.Decimal.Shortest
import SplitBuild.Diagnostic
import SplitBuild.Disk
import SplitBuild.Failure
import SplitBuild.FilePath
import SplitBuild.FileStore
import SplitBuild.FileTree
import SplitBuild.Json.Document
import SplitBuild.Json.Numeral
import SplitBuild.Json.Printer
import SplitBuild.Json.Reader
import SplitBuild.Json.Record
import SplitBuild.Json.Relaxed
import SplitBuild.Json.Value
import SplitBuild.Keyed
import SplitBuild.LogTarget
import SplitBuild.Main
import SplitBuild.Manifest.Component
import SplitBuild.Manifest.Fragment
import SplitBuild.Manifest.Root
import SplitBuild.Manifest.Tag
import SplitBuild.Module
import SplitBuild.Module.Adjacency
import SplitBuild.Module.Graph
import SplitBuild.Names
import SplitBuild.Options
import SplitBuild.OutputDirectory
import SplitBuild.Patch
import SplitBuild.Patch.Framework
import SplitBuild.Path
import SplitBuild.Pattern
import SplitBuild.Pattern.Program
import SplitBuild.Pattern.Reader
import SplitBuild.Pattern.Search
import SplitBuild.Pipeline
import SplitBuild.Placement
import SplitBuild.Placement.Walk
import SplitBuild.Project
import SplitBuild.Project.Routing
import SplitBuild.Script.LoadSite
import SplitBuild.Script.Loads
import SplitBuild.Script.Marker
import SplitBuild.Script.RuntimeBundle
import SplitBuild.Subpackage
import SplitBuild.Text.Blank
import SplitBuild.Text.Edit
import SplitBuild.Text.Letters
import SplitBuild.Text.Search
import SplitBuild.Text.Utf8
import SplitBuild.Proofs.Module.Adjacency
import SplitBuild.Proofs.Module.Edges
import SplitBuild.Proofs.Placement.Reach
import SplitBuild.Proofs.Classification
import SplitBuild.Proofs.Keyed
import SplitBuild.Proofs.Placement.Compat
import SplitBuild.Proofs.Placement.Colocation
import SplitBuild.Proofs.Placement.Residence
import SplitBuild.Proofs.Placement.VendorBundle
import SplitBuild.Proofs.Script.Items
import SplitBuild.Proofs.Script.Regions
import SplitBuild.Proofs.Script.Resolution
import SplitBuild.Proofs.Json.Quoting
import SplitBuild.Proofs.Script.Comments
import SplitBuild.Proofs.Script.Sites
import SplitBuild.Proofs.Script.Parts
import SplitBuild.Proofs.Manifest.Merge
import SplitBuild.Proofs.Script.Lookup
import SplitBuild.Proofs.Manifest.Listing
import SplitBuild.Proofs.Manifest.Patch
import SplitBuild.Proofs.Manifest.Outcome
import SplitBuild.Proofs.Manifest.Assets
import SplitBuild.Proofs.Pipeline.Stages
import SplitBuild.Proofs.Pipeline.SecondRun
import SplitBuild.Proofs.Manifest.Contents
import SplitBuild.Proofs.Placement.Order
import SplitBuild.Proofs.Manifest.Placeholders
import SplitBuild.Proofs.Placement.References
import SplitBuild.Proofs.Pipeline.Independence
import SplitBuild.Proofs.Bundle.Groups
import SplitBuild.Proofs.Pipeline.Turns
import SplitBuild.Proofs.Text.ByteOrder
import SplitBuild.Proofs.Bundle.Reports
import SplitBuild.Proofs.Json.Numerals
import SplitBuild.Proofs.Json.Layout
import SplitBuild.Proofs.Json.Numbers
import SplitBuild.Proofs.Json.RoundTrip
import SplitBuild.Proofs.Json.Record
import SplitBuild.Proofs.Exchange.Records
import SplitBuild.Proofs.Exchange.Subpackages
import SplitBuild.Proofs.AssetTable
import SplitBuild.Proofs.Path.Segments
import SplitBuild.Proofs.Path.Relative
import SplitBuild.Proofs.Script.Leftovers
import SplitBuild.Proofs.Manifest.Separately
import SplitBuild.Proofs.Manifest.BestEffort
import SplitBuild.Proofs.FilePath.Components
import SplitBuild.Proofs.FilePath.Resolution
import SplitBuild.Proofs.FileTree.Entries
import SplitBuild.Proofs.FileTree.Calls
import SplitBuild.Proofs.FileTree.Programs
import SplitBuild.Proofs.OutputDirectory.Places
import SplitBuild.Proofs.OutputDirectory.RoundTrip
import SplitBuild.Proofs.Manifest.Declarations
import SplitBuild.Proofs.Patch
import SplitBuild.Proofs.Path.Directories
import SplitBuild.Proofs.Path.NormalForm
import SplitBuild.Proofs.Placement.Rounds

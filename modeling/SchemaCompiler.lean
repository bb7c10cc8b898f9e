import SchemaCompiler.Name.Identifier
import SchemaCompiler.Name.Slug
import SchemaCompiler.Text.UnprintableTable
import SchemaCompiler.Number.Binary64
import SchemaCompiler.Number.Shortest
import SchemaCompiler.Json.Writer
import SchemaCompiler.Json.Reader
import SchemaCompiler.Order.Table
import SchemaCompiler.Text.Quoted
import SchemaCompiler.Schema.Merge
import SchemaCompiler.Schema.Document
import SchemaCompiler.Reading.Basic
import SchemaCompiler.Reading.Document
import SchemaCompiler.Writing.Document
import SchemaCompiler.Registry.Walk
import SchemaCompiler.Registry.Graph
import SchemaCompiler.Usage.Exposure
import SchemaCompiler.Code.Documentation
import SchemaCompiler.Code.Expression
import SchemaCompiler.Key.Position
import SchemaCompiler.Key.StorageKey
import SchemaCompiler.Constraint.Pattern
import SchemaCompiler.Constraint.Range
import SchemaCompiler.Constraint.Rules
import SchemaCompiler.Registry.Expansion
import SchemaCompiler.Resource.Attribute
import SchemaCompiler.Resource.Schema
import SchemaCompiler.Client.Conversion
import SchemaCompiler.Code.Layout
import SchemaCompiler.Code.TokenLayout
import SchemaCompiler.Code.Item
import SchemaCompiler.Client.Address
import SchemaCompiler.Generation.Run
import SchemaCompiler.Yaml.BlockScalar
import SchemaCompiler.Yaml.LineScalar
import SchemaCompiler.Text.Numeral
import SchemaCompiler.Yaml.Tag
import SchemaCompiler.CommandLine.Arguments
import SchemaCompiler.CommandLine.Style
import SchemaCompiler.CommandLine.Table
import SchemaCompiler.Loading.Directory
import SchemaCompiler.Loading.Document
import SchemaCompiler.CommandLine.Report
import SchemaCompiler.CommandLine.Run
import SchemaCompiler.Main
import SchemaCompiler.Proofs.Schema.Merge
import SchemaCompiler.Proofs.Schema.AdditiveMerge
import SchemaCompiler.Proofs.Registry.ExpandedWalk
import SchemaCompiler.Proofs.Registry.References
import SchemaCompiler.Proofs.Registry.CycleDetection
import SchemaCompiler.Proofs.Registry.Walker
import SchemaCompiler.Proofs.Resource.CheckedConversion
import SchemaCompiler.Proofs.Resource.Elements
import SchemaCompiler.Proofs.Resource.Termination
import SchemaCompiler.Proofs.Client.Names
import SchemaCompiler.Proofs.Generation.Scope
import SchemaCompiler.Proofs.Generation.Files
import SchemaCompiler.Proofs.Generation.Paths
import SchemaCompiler.Proofs.Schema.Soundness
import SchemaCompiler.Proofs.Order.Overlay
import SchemaCompiler.Proofs.Schema.Combination
import SchemaCompiler.Proofs.Reading.Records
import SchemaCompiler.Proofs.Reading.Soundness
import SchemaCompiler.Proofs.Schema.Composition
import SchemaCompiler.Proofs.Reading.Members
import SchemaCompiler.Proofs.Writing.Node
import SchemaCompiler.Proofs.Writing.Document
import SchemaCompiler.Proofs.Schema.KeyedTree
import SchemaCompiler.Proofs.Schema.Validation
import SchemaCompiler.Proofs.Schema.KeyedGrowth
import SchemaCompiler.Proofs.Schema.KeyedAgreement
import SchemaCompiler.Proofs.Schema.ObjectInvariant
import SchemaCompiler.Proofs.Json.Numbers
import SchemaCompiler.Proofs.Json.Strings
import SchemaCompiler.Proofs.Json.Text
import SchemaCompiler.Proofs.Writing.Text
import SchemaCompiler.Proofs.Key.Collisions
import SchemaCompiler.Proofs.Resource.Levels
import SchemaCompiler.Proofs.Resource.Groups
import SchemaCompiler.Proofs.Client.Structs
import SchemaCompiler.Proofs.Generation.Secrets
import SchemaCompiler.Proofs.Order.Table
import SchemaCompiler.Proofs.Schema.Arrangement
import SchemaCompiler.Proofs.Registry.Arrangement
import SchemaCompiler.Proofs.Key.Arrangement
import SchemaCompiler.Proofs.Client.Arrangement
import SchemaCompiler.Proofs.Resource.Arrangement
import SchemaCompiler.Proofs.Schema.Reordering
import SchemaCompiler.Proofs.Generation.Reordering
import SchemaCompiler.Proofs.Code.Evaluation
import SchemaCompiler.Proofs.Client.KeyMethods
import SchemaCompiler.Proofs.Client.Addresses
import SchemaCompiler.Proofs.Generation.Declarations
import SchemaCompiler.Proofs.Generation.Imports
import SchemaCompiler.Proofs.Client.Reach
import SchemaCompiler.Proofs.Generation.Selection
import SchemaCompiler.Proofs.Registry.Inlining
import SchemaCompiler.Proofs.Client.Obstacles
import SchemaCompiler.Proofs.Client.Requests
import SchemaCompiler.Proofs.Client.Termination
import SchemaCompiler.Proofs.Registry.Nesting
import SchemaCompiler.Proofs.Resource.Mirror
import SchemaCompiler.Proofs.Generation.Entries
import SchemaCompiler.Proofs.Client.Closure
import SchemaCompiler.Proofs.Resource.Exposures
import SchemaCompiler.Proofs.Name.Spelling
import SchemaCompiler.Proofs.Code.Lines
import SchemaCompiler.Proofs.Generation.ModuleTree
import SchemaCompiler.Proofs.Client.StructNames
import SchemaCompiler.Proofs.Generation.Bindings
import SchemaCompiler.Proofs.Registry.Mentions
import SchemaCompiler.Proofs.Registry.Steps
import SchemaCompiler.Proofs.Registry.TwoPasses
import SchemaCompiler.Proofs.Code.Identifiers
import SchemaCompiler.Proofs.Generation.Tallies
import SchemaCompiler.Proofs.Registry.Cycles
import SchemaCompiler.Proofs.Registry.Reachability
import SchemaCompiler.Proofs.Resource.AttributeCode
import SchemaCompiler.Proofs.Resource.FiniteNumbers
import SchemaCompiler.Proofs.Client.Counts
import SchemaCompiler.Proofs.Generation.Accounting
import SchemaCompiler.Proofs.Schema.ValueEdits
import SchemaCompiler.Proofs.Registry.Pruning
import SchemaCompiler.Proofs.Schema.Mismatch
import SchemaCompiler.Proofs.Order.Repetition
import SchemaCompiler.Proofs.Schema.Repetition
import SchemaCompiler.Proofs.Key.Policies
import SchemaCompiler.Proofs.Schema.ItemizedInput
import SchemaCompiler.Proofs.Client.BoundPlaceholders
import SchemaCompiler.Proofs.Constraint.Requirements
import SchemaCompiler.Proofs.Resource.Requirements
import SchemaCompiler.Proofs.Constraint.MergedPattern
import SchemaCompiler.Proofs.Name.Stability
import SchemaCompiler.Proofs.Name.Validity
import SchemaCompiler.Proofs.Generation.Apartness
import SchemaCompiler.Proofs.Generation.Slugs
import SchemaCompiler.Proofs.Generation.Dependencies

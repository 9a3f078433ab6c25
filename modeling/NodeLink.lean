import NodeLink.Bundling.Bundler
import NodeLink.CommandLine.Directory
import NodeLink.Document.Codec
import NodeLink.Document.Cursor
import NodeLink.Drawing.Command
import NodeLink.Graph.Adjacency
import NodeLink.Graph.Index
import NodeLink.Graph.Interner
import NodeLink.Main
import NodeLink.Proofs.Source.Pieces
import NodeLink.Proofs.Source.Partition
import NodeLink.Proofs.Source.Places
import NodeLink.Proofs.Source.TokenRules
import NodeLink.Proofs.Source.MaximalMunch
import NodeLink.Proofs.Document.Grammar
import NodeLink.Proofs.Document.Progress
import NodeLink.Proofs.Document.Soundness
import NodeLink.Proofs.Document.Completeness
import NodeLink.Proofs.Document.Derivation
import NodeLink.Proofs.Document.Diagnostics
import NodeLink.Proofs.Document.Locations
import NodeLink.Proofs.Document.Overflow
import NodeLink.Proofs.Document.Lockstep
import NodeLink.Proofs.Document.Recovery
import NodeLink.Proofs.Document.Mentions
import NodeLink.Proofs.Document.Phase
import NodeLink.Proofs.Document.Failure
import NodeLink.Proofs.Document.FirstError
import NodeLink.Proofs.Document.Cursor
import NodeLink.Proofs.Document.Turns
import NodeLink.Proofs.Bundling.Regular
import NodeLink.Proofs.Bundling.Shape
import NodeLink.Proofs.Bundling.Restriction
import NodeLink.Proofs.Double.Finite
import NodeLink.Proofs.Double.Order
import NodeLink.Proofs.Double.Rounding
import NodeLink.Proofs.Double.Nearest
import NodeLink.Proofs.Double.Arithmetic
import NodeLink.Proofs.Double.Operations
import NodeLink.Proofs.Random.Draws
import NodeLink.Proofs.Graph.FirstDeclarations
import NodeLink.Proofs.Graph.Interning
import NodeLink.Proofs.Graph.UnknownEnds
import NodeLink.Proofs.Graph.Safety
import NodeLink.Proofs.Graph.Reachable
import NodeLink.Proofs.Graph.Attachment
import NodeLink.Proofs.Graph.Content
import NodeLink.Proofs.Graph.Index
import NodeLink.Proofs.Graph.Renaming
import NodeLink.Proofs.Graph.Enclosure
import NodeLink.Proofs.Graph.Displacement
import NodeLink.Proofs.Double.Within
import NodeLink.Proofs.Geometry.Bounded
import NodeLink.Proofs.Geometry.Turns
import NodeLink.Proofs.Bundling.Growth
import NodeLink.Proofs.Bundling.Finiteness
import NodeLink.Proofs.Bundling.Independence
import NodeLink.Proofs.Drawing.Fitting
import NodeLink.Proofs.Json.Reading
import NodeLink.Proofs.Document.Interchange
import NodeLink.Proofs.Drawing.Escaping
import NodeLink.Proofs.Drawing.Markup
import NodeLink.Proofs.Bundling.Sizes
import NodeLink.Proofs.Double.Whole
import NodeLink.Proofs.Drawing.Commands
import NodeLink.Proofs.Graph.WellFormed
import NodeLink.Proofs.CommandLine.Snapshot
import NodeLink.Proofs.Document.Lines
import NodeLink.Proofs.Graph.StoredPaths
import NodeLink.Proofs.Graph.Balance
import NodeLink.Proofs.Graph.Adjacency
import NodeLink.Proofs.Bundling.Lists
import NodeLink.Proofs.Bundling.Accesses
import NodeLink.Proofs.Exact.Straight
import NodeLink.Proofs.Exact.Resampling
import NodeLink.Proofs.Drawing.Hits
import NodeLink.Proofs.Bundling.Isolated
import NodeLink.Proofs.Exact.Extended
import NodeLink.Proofs.Bundling.Measures
import NodeLink.Proofs.Bundling.Exchange
import NodeLink.Proofs.Double.Commuting
import NodeLink.Proofs.Bundling.BothWays

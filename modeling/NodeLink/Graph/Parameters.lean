import NodeLink.Document.Basic
import NodeLink.Geometry.Scalar
import NodeLink.Random.Stream

/-! # Layout parameters

The constants of the layout with the switch for bundled edges, and overrides that replace
some of them.  Parameters are resolved in three layers: the defaults, the switch written in
the document, and the overrides of the caller. -/

namespace NodeLink

open NodeLink.Random (Stream)

/-- The constants of the layout. -/
structure Parameters (α : Type) where
  /-- Whether edges are bundled. -/
  bundle : Bool
  /-- The number of ticks of a whole layout. -/
  maxTicks : Nat
  /-- Nodes farther apart do not repel each other; attraction sees no greater distance. -/
  maxRepulsiveDistance : α
  /-- The length that edges strive for. -/
  optimalDistance : α
  /-- The share of the force by which a node moves in a tick. -/
  damping : α
  /-- The most that a coordinate of a node changes in a tick. -/
  maxVertexDisplacement : α
  /-- Half the side of the square in which nodes are first placed. -/
  initialSpread : Option α
  deriving DecidableEq, Repr, Inhabited

/-- Replacements for some of the constants of the layout. -/
structure Overrides (α : Type) where
  bundle : Option Bool := none
  maxTicks : Option Nat := none
  maxRepulsiveDistance : Option α := none
  optimalDistance : Option α := none
  damping : Option α := none
  maxVertexDisplacement : Option α := none
  initialSpread : Option α := none
  deriving DecidableEq, Repr, Inhabited

variable {α : Type}

/-- The default constants. -/
def Parameters.default [Scalar α] : Parameters α where
  bundle := false
  maxTicks := 500
  maxRepulsiveDistance := Scalar.ofNat 6
  optimalDistance := Scalar.ofNat 2
  damping := Scalar.ratio 1 100
  maxVertexDisplacement := Scalar.ratio 1 2
  initialSpread := none

/-- The two ends of the range from which coordinates are first drawn, in either order. -/
def Parameters.placementRange [Scalar α] (parameters : Parameters α) : α × α :=
  match parameters.initialSpread with
  | some spread => (-(Scalar.abs spread), Scalar.abs spread)
  | none => (-parameters.maxRepulsiveDistance, parameters.maxVertexDisplacement)

/-- The constants with the overrides in place of those that they replace. -/
def Overrides.applyTo (overrides : Overrides α) (base : Parameters α) : Parameters α where
  bundle := overrides.bundle.getD base.bundle
  maxTicks := overrides.maxTicks.getD base.maxTicks
  maxRepulsiveDistance := overrides.maxRepulsiveDistance.getD base.maxRepulsiveDistance
  optimalDistance := overrides.optimalDistance.getD base.optimalDistance
  damping := overrides.damping.getD base.damping
  maxVertexDisplacement := overrides.maxVertexDisplacement.getD base.maxVertexDisplacement
  initialSpread := overrides.initialSpread.or base.initialSpread

/-- The constants for a document: the defaults, its own switch, then the overrides. -/
def Parameters.resolve [Scalar α] (document : Document) (overrides : Overrides α) :
    Parameters α :=
  overrides.applyTo { (Parameters.default : Parameters α) with bundle := document.bundle }

/-- What a compilation is given beside the source. -/
structure CompileOptions (α : Type) where
  parameters : Overrides α := {}
  /-- The seed of the random numbers. -/
  seed : Option Nat := none
  deriving DecidableEq, Repr, Inhabited

/-- The random numbers of a compilation: those of its seed, or `fresh` ones if it has none. -/
def CompileOptions.stream (options : CompileOptions α) (fresh : Stream) : Stream :=
  match options.seed with
  | some seed => Stream.ofSeed (UInt64.ofNat seed)
  | none => fresh

end NodeLink

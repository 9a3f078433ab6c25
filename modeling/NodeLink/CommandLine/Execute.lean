import NodeLink.CommandLine.Arguments
import NodeLink.Drawing.Svg
import NodeLink.Graph.Interner
import NodeLink.Graph.Snapshot

/-! # One compilation from the command line

A source is compiled with the settings of the arguments, which go before those of the config
file, and written as a drawing if one is asked for, else as a snapshot in JSON.  The config file is
a JSON record with layout overrides, bundling parameters, a seed and a drawing size; every field may
be left out. -/

namespace NodeLink.CommandLine

open NodeLink.Json (Decoder Shape Problem)
open NodeLink.Random (Stream)

/-! ### Config files -/

/-- The settings of a config file. -/
structure Config where
  parameters : Overrides Float := {}
  bundling : BundlingParameters Float := BundlingParameters.default
  seed : Option Nat := none
  width : Option Float := none
  height : Option Float := none

/-- A config file, from the defaults. -/
def configShape : Shape Config where
  start := {}
  members :=
    [overridesMember fun parameters c => { c with parameters },
     .of ["bundling"] false (bundlingShape.decode .streamed) fun bundling c =>
       { c with bundling },
     seedMember fun seed c => { c with seed },
     .of ["width"] false (Decoder.nullable Decoder.double) fun width c => { c with width },
     .of ["height"] false (Decoder.nullable Decoder.double) fun height c => { c with height }]
  shortList := true

/-- The settings that a JSON text holds. -/
def Config.ofJson (text : String) : Except Problem Config :=
  Json.decodeText (configShape.decode .streamed) text

/-! ### Compilations -/

/-- What a compilation puts out. -/
inductive Output where
  | json (text : String)
  | svg (text : String)
  deriving DecidableEq, Repr, Inhabited

/-- The width of a drawing unless another one is asked for. -/
def defaultWidth : Float := 800

/-- The height of a drawing unless another one is asked for. -/
def defaultHeight : Float := 600

/-- The overrides for a compilation: those of the config file, bundled if the arguments say
so. -/
def overrides (options : Options) (config : Config) : Overrides Float :=
  if options.bundle then { config.parameters with bundle := some true } else config.parameters

/-- The graph with its edges bundled, if its parameters ask for it. -/
def bundled (graph : Graph Float) (config : Config) : Graph Float :=
  if graph.parameters.bundle then graph.bundleEdges config.bundling else graph

/-- The surface for a drawing. -/
def frame (options : Options) (config : Config) : Frame Float where
  width := (options.width.or config.width).getD defaultWidth
  height := (options.height.or config.height).getD defaultHeight
  radius := defaultRadius

/-- What a compilation is given: the overrides, and the seed of the arguments or else of the config
file. -/
def compileOptions (options : Options) (config : Config) : CompileOptions Float where
  parameters := overrides options config
  seed := options.seed.or config.seed

/-- Compiles a source, the first one of its process; `fresh` are the random numbers if neither the
arguments nor the config file have a seed. -/
def execute (options : Options) (source : String) (config : Config) (fresh : Stream) :
    Except CompileError Output := do
  let (graph, _) := compileIn Interner.interning {} source (compileOptions options config) fresh
  let graph ← graph
  if options.svg.isSome then
    let surface := frame options config
    let (_, commands) := graph.draw surface config.bundling
    return .svg (Svg.render surface.width surface.height none commands)
  else return .json (bundled graph config).snapshot.toJson.pretty

end NodeLink.CommandLine

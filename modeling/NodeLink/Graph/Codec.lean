import NodeLink.Bundling.Force
import NodeLink.Graph.Parameters
import NodeLink.Json.Decode
import NodeLink.Json.Value

/-! # Parameters as JSON

Layout parameters, overrides, compile options and bundling parameters are records in which every
field may be left out.  The damping also goes by the name `c`. -/

namespace NodeLink

open NodeLink.Json (Decoder Member Shape)

/-- The parameters as an object; without a spread of their own that is `null`. -/
def Parameters.toJson (parameters : Parameters Float) : Json :=
  .object
    [("bundle", .bool parameters.bundle), ("max_ticks", .nat parameters.maxTicks),
     ("max_repulsive_distance", .num parameters.maxRepulsiveDistance),
     ("optimal_distance", .num parameters.optimalDistance),
     ("damping", .num parameters.damping),
     ("max_vertex_displacement", .num parameters.maxVertexDisplacement),
     ("initial_spread", Json.option Json.num parameters.initialSpread)]

/-- Parameters, from the defaults. -/
def parametersShape : Shape (Parameters Float) where
  start := Parameters.default
  members :=
    [.of ["bundle"] false Decoder.bool fun bundle p => { p with bundle },
     .of ["max_ticks"] false Decoder.nat32 fun maxTicks p => { p with maxTicks },
     .of ["max_repulsive_distance"] false Decoder.double fun maxRepulsiveDistance p =>
       { p with maxRepulsiveDistance },
     .of ["optimal_distance"] false Decoder.double fun optimalDistance p =>
       { p with optimalDistance },
     .of ["damping", "c"] false Decoder.double fun damping p => { p with damping },
     .of ["max_vertex_displacement"] false Decoder.double fun maxVertexDisplacement p =>
       { p with maxVertexDisplacement },
     .of ["initial_spread"] false (Decoder.nullable Decoder.double) fun initialSpread p =>
       { p with initialSpread }]
  shortList := true

/-- Overrides, from none. -/
def overridesShape : Shape (Overrides Float) where
  start := {}
  members :=
    [.of ["bundle"] false (Decoder.nullable Decoder.bool) fun bundle o => { o with bundle },
     .of ["max_ticks"] false (Decoder.nullable Decoder.nat32) fun maxTicks o =>
       { o with maxTicks },
     .of ["max_repulsive_distance"] false (Decoder.nullable Decoder.double)
       fun maxRepulsiveDistance o => { o with maxRepulsiveDistance },
     .of ["optimal_distance"] false (Decoder.nullable Decoder.double) fun optimalDistance o =>
       { o with optimalDistance },
     .of ["damping", "c"] false (Decoder.nullable Decoder.double) fun damping o =>
       { o with damping },
     .of ["max_vertex_displacement"] false (Decoder.nullable Decoder.double)
       fun maxVertexDisplacement o => { o with maxVertexDisplacement },
     .of ["initial_spread"] false (Decoder.nullable Decoder.double) fun initialSpread o =>
       { o with initialSpread }]
  shortList := true

/-- The overrides inside another record. -/
def overridesMember {σ : Type} (set : Overrides Float → σ → σ) : Member σ :=
  .of ["parameters"] false (overridesShape.decode .streamed) set

/-- The seed inside another record. -/
def seedMember {σ : Type} (set : Option Nat → σ → σ) : Member σ :=
  .of ["seed"] false (Decoder.nullable Decoder.nat64) set

/-- Compile options, from no overrides and no seed. -/
def compileOptionsShape : Shape (CompileOptions Float) where
  start := {}
  members :=
    [overridesMember fun parameters o => { o with parameters },
     seedMember fun seed o => { o with seed }]
  shortList := true

/-- Bundling parameters, from the defaults. -/
def bundlingShape : Shape (BundlingParameters Float) where
  start := BundlingParameters.default
  members :=
    [.of ["bundling_stiffness"] false Decoder.double fun stiffness p => { p with stiffness },
     .of ["initial_step_size"] false Decoder.double fun initialStepSize p =>
       { p with initialStepSize },
     .of ["initial_subdivision"] false Decoder.nat32 fun initialSubdivision p =>
       { p with initialSubdivision },
     .of ["subdivision_rate"] false Decoder.nat32 fun subdivisionRate p =>
       { p with subdivisionRate },
     .of ["cycle_count"] false Decoder.nat32 fun cycleCount p => { p with cycleCount },
     .of ["initial_iteration_count"] false Decoder.double fun initialIterationCount p =>
       { p with initialIterationCount },
     .of ["iteration_decrease_rate"] false Decoder.double fun iterationDecreaseRate p =>
       { p with iterationDecreaseRate },
     .of ["compatibility_threshold"] false Decoder.double fun compatibilityThreshold p =>
       { p with compatibilityThreshold },
     .of ["length_tolerance"] false Decoder.double fun lengthTolerance p =>
       { p with lengthTolerance }]
  shortList := true

end NodeLink

import ProfilingAgent.Log.Directive

set_option autoImplicit false

/-!
# Filters

A filter is a list of directives between commas; of two that speak of the same the later one holds.
Of the static directives that match a target the closest one decides. A span that a dynamic
directive speaks of is let through in any case, and if its fields are as the directive asks, so is
everything that happens inside it at the directive's level.
-/
namespace ProfilingAgent.Log

structure Filter where
  directives : List Directive

namespace Filter

def ofLevel (level : Level) : Filter := ⟨[.general (.upTo level)]⟩

/-- Reads a filter. Without any directive nothing is let through. -/
def ofText? (s : String) : Option Filter :=
  let parts := (s.splitOn ",").filter (· ≠ "")
  if parts.isEmpty then some ⟨[.general .off]⟩
  else (parts.mapM Directive.ofText?).map Filter.mk

def latest : List Directive → List Directive
  | [] => []
  | d :: ds => if ds.any d.sameSubject then latest ds else d :: latest ds

def statics (f : Filter) : List Directive := latest (f.directives.filter (·.isStatic))

def dynamics (f : Filter) : List Directive := latest (f.directives.filter (·.isDynamic))

def threshold (f : Filter) (target : String) (has : String → Bool) : Threshold :=
  let step (best : Option Directive) (d : Directive) : Option Directive :=
    let applies := d.matchesTarget target && d.field.all fun t => has t.name
    if applies && !best.any (·.goesBefore d) then some d else best
  match f.statics.foldl step none with
  | none => .off
  | some d => d.threshold

/-- The most that any directive lets through, with those that no longer hold. A demand on values can
only be judged once a span is there, so it lets every span come into being. -/
def loosest (f : Filter) : Threshold :=
  if f.directives.any (·.hasDemand) then .upTo .trace
  else f.directives.foldl (fun t d => t.looser d.threshold) .off

def insideOf (f : Filter) (target : String) (s : Span) : Threshold :=
  (f.dynamics.filter fun d => d.concerns target s && d.isMetBy s).foldl
    (fun t d => t.looser d.threshold) .off

def inside (f : Filter) (target : String) (spans : List Span) : Threshold :=
  spans.foldl (fun t s => t.looser (f.insideOf target s)) .off

def passes (f : Filter) (target : String) (spans : List Span) (has : String → Bool)
    (level : Level) : Bool :=
  (f.inside target spans).passes level || (f.threshold target has).passes level

/-- A span is let through inside some spans, because a dynamic directive speaks of it or as anything
else would be. For a static directive it does not matter which fields a span has. -/
def admits (f : Filter) (target : String) (around : List Span) (s : Span) : Bool :=
  f.loosest.passes s.level &&
    (f.dynamics.any (·.concerns target s) || f.passes target around (fun _ => true) s.level)

/-- The spans that are shown, given from the outermost on. A span is entered only if it is let
through inside those around it. -/
def entered (f : Filter) (target : String) (spans : List Span) : List Span :=
  spans.foldl (fun around s => if f.admits target around s then around ++ [s] else around) []

end Filter
end ProfilingAgent.Log

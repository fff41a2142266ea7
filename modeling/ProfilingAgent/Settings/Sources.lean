import ProfilingAgent.Environment.Variables
import ProfilingAgent.Settings.Basic

set_option autoImplicit false

/-!
# Sources of settings

Settings are built from sources in order, a later one going over an earlier one: the environment,
layers, and sources that fail and set nothing. The address for ad-hoc use goes before all of them.
What a builder has gathered stays with it, so that it can build again.
-/
namespace ProfilingAgent

open Log Environment

inductive Source
  | environment
  | layer (l : Layer)
  | failing (message : String)

def parseErrorMessage (message : String) : String := "failed to parse configuration: " ++ message

def Source.load (s : Source) (vs : Variables) (below : Layer) :
    Except Breakage (Noted (Layer × Bool)) :=
  match s with
  | .environment => (Environment.layer vs).map fun read => do let l ← read; pure (l.onto below, true)
  | .layer l => .ok (pure (l.onto below, true))
  | .failing message =>
    .ok (.saying (below, false) .error ("Failed to load config: " ++ parseErrorMessage message))

def loadAll (vs : Variables) : List Source → Layer → Except Breakage (Noted (Layer × Bool))
  | [], below => .ok (pure (below, false))
  | s :: rest, below => do
    let first ← s.load vs below
    let others ← loadAll vs rest first.value.1
    pure (do let (_, ok) ← first; let (l, more) ← others; pure (l, ok || more))

def withAdhocAddress (vs : Variables) (s : Settings) : Noted Settings :=
  match adhocAddress? vs with
  | none => pure s
  | some address =>
    if Text.allBlank address then
      .saying s .debug (adhocAddressName ++ " is set but empty, ignoring")
    else
      .saying { s with serverAddress := address } .debug ("Using adhoc server address " ++ address)

structure Builder where
  sources : List Source
  gathered : Layer := .empty

namespace Builder

def build (b : Builder) (vs : Variables) : Except Breakage (Noted (Settings × Builder)) := do
  let loaded ← loadAll vs b.sources b.gathered
  pure do
    let (gathered, ok) ← loaded
    if !b.sources.isEmpty && !ok then
      Noted.note (.say .debug "All sources failed to load config, using default config.")
    let s ← gathered.settle
    let s ← withAdhocAddress vs s
    pure (s, { b with gathered := gathered })

end Builder

def callerSettings (vs : Variables) (caller : Layer) : Except Breakage (Noted Settings) :=
  (Builder.build ⟨[.environment, .layer caller], .empty⟩ vs).map fun built => do
    let (s, _) ← built
    pure s

end ProfilingAgent

import ProfilingAgent.Proofs.Layers

set_option autoImplicit false

namespace ProfilingAgent

open Log Environment

variable {vs : Variables} {env : Layer}

/-- What a source lays on top if the environment holds `env`. A failing source lays nothing. -/
def Source.lays (env : Layer) : Source → Option Layer
  | .environment => some env
  | .layer l => some l
  | .failing _ => none

/-- If some source is the environment, it can be read and holds `env`. -/
def Heard (vs : Variables) (sources : List Source) (env : Layer) : Prop :=
  .environment ∈ sources → ∃ read, Environment.layer vs = .ok read ∧ read.value = env

def Layer.settingsUnder (l : Layer) (vs : Variables) : Settings :=
  { l.resolve with
    serverAddress := ((adhocAddress? vs).filter (!Text.allBlank ·)).getD l.resolve.serverAddress }

def Builder.builds (vs : Variables) : Nat → Builder → Except Breakage (List Settings)
  | 0, _ => .ok []
  | n + 1, b => do
    let built ← b.build vs
    let rest ← builds vs n built.value.2
    pure (built.value.1 :: rest)

theorem Source.load_lays {s : Source} {rest : List Source} (h : Heard vs (s :: rest) env)
    (below : Layer) : ∃ loaded, s.load vs below = .ok loaded ∧
      loaded.value.1 = Layer.pile (s.lays env).toList below := by
  cases s with
  | environment =>
    obtain ⟨read, hread, rfl⟩ := h List.mem_cons_self
    unfold Source.load
    rw [hread]
    exact ⟨_, rfl, rfl⟩
  | layer l => exact ⟨_, rfl, rfl⟩
  | failing message => exact ⟨_, rfl, rfl⟩

theorem loadAll_lays {sources : List Source} (h : Heard vs sources env) (below : Layer) :
    ∃ loaded, loadAll vs sources below = .ok loaded ∧
      loaded.value.1 = Layer.pile (sources.filterMap (·.lays env)) below := by
  induction sources generalizing below with
  | nil => exact ⟨_, rfl, rfl⟩
  | cons s rest ih =>
    obtain ⟨first, hfirst, hvalue⟩ := Source.load_lays h below
    obtain ⟨others, hothers, hrest⟩ := ih (fun hmem => h (List.mem_cons_of_mem s hmem)) first.value.1
    unfold loadAll
    rw [hfirst]
    dsimp only [bind, Except.bind]
    rw [hothers]
    refine ⟨_, rfl, ?_⟩
    change others.value.1 = _
    rw [hrest, hvalue]
    cases hs : s.lays env with
    | none => simp only [List.filterMap_cons, hs]; rfl
    | some l => simp only [List.filterMap_cons, hs]; rfl

theorem withAdhocAddress_value (l : Layer) : (withAdhocAddress vs l.resolve).value = l.settingsUnder vs := by
  unfold withAdhocAddress Layer.settingsUnder
  cases adhocAddress? vs with
  | none => rfl
  | some address =>
    cases hblank : Text.allBlank address with
    | true => simp [Noted.saying, Option.filter, hblank]
    | false => simp [Noted.saying, Option.filter, hblank]

namespace Builder

variable {b : Builder}

theorem build_lays (h : Heard vs b.sources env) : ∃ built, b.build vs = .ok built ∧
    built.value = ((Layer.pile (b.sources.filterMap (·.lays env)) b.gathered).settingsUnder vs,
      { b with gathered := Layer.pile (b.sources.filterMap (·.lays env)) b.gathered }) := by
  obtain ⟨⟨⟨gathered, ok⟩, events⟩, hloaded, hvalue⟩ := loadAll_lays h b.gathered
  unfold build
  rw [hloaded]
  refine ⟨_, rfl, ?_⟩
  rw [← hvalue, ← withAdhocAddress_value, Noted.value_bind]
  dsimp only
  split <;> rfl

/-- The first time gathers everything, and after that nothing changes. -/
theorem builds_lays (h : Heard vs b.sources env) (n : Nat) : builds vs n b =
    .ok (List.replicate n
      ((Layer.pile (b.sources.filterMap (·.lays env)) b.gathered).settingsUnder vs)) := by
  induction n generalizing b with
  | zero => rfl
  | succ n ih =>
    obtain ⟨built, hbuilt, hvalue⟩ := build_lays h
    have hagain := @ih { b with gathered := Layer.pile (b.sources.filterMap (·.lays env)) b.gathered } h
    rw [Layer.pile_pile] at hagain
    rw [builds, hbuilt]
    dsimp only [bind, Except.bind]
    rw [hvalue, hagain]
    rfl

theorem loadAll_breaks {sources : List Source} {e : Breakage} (hmem : .environment ∈ sources)
    (h : Environment.layer vs = .error e) (below : Layer) : loadAll vs sources below = .error e := by
  induction sources generalizing below with
  | nil => cases hmem
  | cons s rest ih =>
    by_cases hs : s = .environment
    · rw [hs, loadAll, Source.load, h]
      rfl
    · have hrest := ih ((List.mem_cons.1 hmem).resolve_left (Ne.symm hs))
      have hstep : ∀ first, s.load vs below = .ok first → loadAll vs (s :: rest) below = .error e := by
        intro first hfirst
        rw [loadAll, hfirst]
        dsimp only [bind, Except.bind]
        rw [hrest]
      cases s with
      | environment => exact absurd rfl hs
      | layer l => exact hstep _ rfl
      | failing message => exact hstep _ rfl

theorem build_breaks {e : Breakage} (hmem : .environment ∈ b.sources)
    (h : Environment.layer vs = .error e) : b.build vs = .error e := by
  unfold build
  rw [loadAll_breaks hmem h]
  rfl

theorem builds_breaks {e : Breakage} (hmem : .environment ∈ b.sources)
    (h : Environment.layer vs = .error e) (n : Nat) : builds vs (n + 1) b = .error e := by
  rw [builds, build_breaks hmem h]
  rfl

end Builder

theorem callerSettings_lays {read : Noted Layer} (h : Environment.layer vs = .ok read)
    (caller : Layer) : ∃ built, callerSettings vs caller = .ok built ∧
      built.value = (caller.onto read.value).settingsUnder vs := by
  have hheard : Heard vs [.environment, .layer caller] read.value := fun _ => ⟨read, h, rfl⟩
  obtain ⟨built, hbuilt, hvalue⟩ :=
    @Builder.build_lays vs read.value ⟨[.environment, .layer caller], .empty⟩ hheard
  unfold callerSettings
  rw [hbuilt]
  refine ⟨_, rfl, ?_⟩
  change built.value.1 = _
  rw [hvalue]
  change (caller.onto (read.value.onto .empty)).settingsUnder vs = _
  rw [Layer.onto_empty]

/-- Whatever the sources are and however often a builder builds, each setting has the value of the last
source that sets it. A failing source makes no difference, and neither does building again. A caller's
settings go before those of the environment. An environment that breaks the reader breaks every
build that asks for it, whatever the other sources set. -/
theorem builds_agree (vs : Variables) (sources : List Source) :
    (∀ env, Heard vs sources env → ∃ l : Layer,
      (∀ setting, l.get setting =
        ((sources.filterMap (·.lays env)).filterMap (·.get setting)).getLast?) ∧
      ∀ n, Builder.builds vs n ⟨sources, .empty⟩ = .ok (List.replicate n (l.settingsUnder vs))) ∧
    (∀ caller read, Environment.layer vs = .ok read → ∃ l : Layer,
      (∀ setting, l.get setting = (caller.get setting).or (read.value.get setting)) ∧
      ∃ built, callerSettings vs caller = .ok built ∧ built.value = l.settingsUnder vs) ∧
    (∀ e, .environment ∈ sources → Environment.layer vs = .error e →
      ∀ n, Builder.builds vs (n + 1) ⟨sources, .empty⟩ = .error e) ∧
    (∀ a b c : Layer, (a.onto b).onto c = a.onto (b.onto c)) ∧
    ∀ l : Layer, Layer.empty.onto l = l ∧ l.onto .empty = l := by
  refine ⟨?_, ?_, ?_, Layer.onto_assoc, fun l => ⟨l.empty_onto, l.onto_empty⟩⟩
  · intro env heard
    refine ⟨Layer.pile (sources.filterMap (·.lays env)) .empty, ?_, ?_⟩
    · intro setting
      rw [Layer.get_pile, Layer.get_empty, Option.or_none]
    · exact @Builder.builds_lays vs env ⟨sources, .empty⟩ heard
  · intro caller read hread
    exact ⟨caller.onto read.value, Layer.get_onto _ _, callerSettings_lays hread caller⟩
  · intro e hmem hbreak
    exact @Builder.builds_breaks vs ⟨sources, .empty⟩ e hmem hbreak

/-- A quoted value whose first escape stands inside a character breaks the build, although the layer
on top sets the same setting. -/
theorem builds_broken_inside_character :
    Builder.builds [⟨Text.Utf8.encode "PYROSCOPE_TENANT_ID", Text.Utf8.encode "\"é\\n\""⟩] 2
        ⟨[.environment, .layer { tenantId := some "t" }], .empty⟩ =
      .error ⟨"é\\n", 1⟩ := by
  have hpath : path? (Text.Utf8.encode "PYROSCOPE_TENANT_ID") = some ["tenant_id"] := by
    decide +kernel
  have hread : Text.Utf8.decodeLossy (Text.Utf8.encode "\"é\\n\"") = "\"é\\n\"" := by
    decide +kernel
  have hcut : Text.splitBytes? 1 ['é', '\\', 'n'] = none := by
    rw [Text.splitBytes?]
    rfl
  have hquoted : quotedText ['é', '\\', 'n'] = .error (.broken ⟨"é\\n", 1⟩) := by
    simp [quotedText, isPlain, hcut]
  have hvalue : Typed.ofText "\"é\\n\"" = .error ⟨"é\\n", 1⟩ := by
    simp [Typed.ofText, Environment.value, bare, skipSpaces, isSpace, quotedPart, untilQuote, hquoted,
      Functor.map, Except.map]
  apply Builder.builds_breaks List.mem_cons_self
  simp only [Environment.layer, typed, typedFrom, hpath, hread, hvalue]
  rfl

end ProfilingAgent

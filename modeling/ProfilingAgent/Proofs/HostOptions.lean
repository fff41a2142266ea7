import ProfilingAgent.Host.Calls
import ProfilingAgent.Proofs.EitherForm
import ProfilingAgent.Proofs.EncodedTexts
import ProfilingAgent.Proofs.LayeredSettings
import ProfilingAgent.Proofs.RereadObjects
import ProfilingAgent.Proofs.VariablesApart

set_option autoImplicit false

namespace ProfilingAgent.Host

open Json Log Program

def Holds (t : HostText) (s : String) : Prop :=
  ∃ bytes, t = some bytes ∧ bytes.takeWhile (· ≠ 0) = Text.Utf8.encode s

def FlagSaid (n : Int) (b : Bool) : Prop := 0 ≤ n ∧ (b = true ↔ n ≠ 0)

/-- The level with this ordinal, or the quietest level if no level has it. -/
def LevelSaid (n : UInt32) (level : Level) : Prop :=
  n ≠ 0 ∧ (level.severity = n ∨ level = .error ∧ ∀ known : Level, known.severity ≠ n)

def HeadersSaid (s : String) (d : Dict String) : Prop :=
  Text.allBlank s = true ∧ d = .empty ∨
    Text.allBlank s = false ∧ ∃ pairs : List (String × String),
      Value.ofText s = .ok (.object (pairs.map fun e => (e.1, .string e.2))) ∧ d = .ofList pairs

def TagsSaid (s : String) (d : Dict String) : Prop :=
  ∃ tags : List Tag, (if looksStructured (Text.trim s).toList then Tag.Structured.read (Text.trim s) = .ok tags
    else (Tag.Delimited.read (Text.trim s)).value = tags) ∧ ∀ key, d.get? key = lastValue? tags key

namespace Options

/-- What options say about a setting, if the one about it can be used. -/
def Says (o : Options) : (s : Setting) → s.Value → Prop
  | .applicationName, x => Holds o.applicationName x
  | .serverAddress, x => Holds o.serverAddress x
  | .authToken, x => Holds o.authToken x
  | .basicAuthUsername, x => Holds o.basicAuthUsername x
  | .basicAuthPassword, x => Holds o.basicAuthPassword x
  | .sampleRate, n => n ≠ (0 : UInt32) ∧ o.sampleRate = n
  | .detectSubprocesses, b => FlagSaid o.detectSubprocesses b
  | .onCpu, b => FlagSaid o.onCpu b
  | .reportPid, b => FlagSaid o.reportPid b
  | .reportThreadId, b => FlagSaid o.reportThreadId b
  | .reportThreadName, b => FlagSaid o.reportThreadName b
  | .autoinstrument, _ => False
  | .logLevel, level => LevelSaid o.logLevel level
  | .compression, c => ∃ s, Holds o.compression s ∧ Compression.ofName? s = some c
  | .reportEncoding, e => ∃ s, Holds o.reportEncoding s ∧ ReportEncoding.ofName? s = some e
  | .tenantId, x => Holds o.tenantId x
  | .httpHeaders, d => ∃ s, Holds o.httpHeaders s ∧ HeadersSaid s d
  | .tags, d => ∃ s, Holds o.tags s ∧ TagsSaid s d

def Usable (o : Options) (s : Setting) : Prop := ∃ x, o.Says s x

end Options

inductive Word
  | text (t : HostText)
  | flag (n : Int)
  | number (n : UInt32)
  | missing

def Word.Unset : Word → Prop
  | text t => t = none
  | flag n => n < 0
  | number n => n = 0
  | missing => True

/-- The option about a setting. There is none about automatic instrumentation. -/
def Options.word (o : Options) : Setting → Word
  | .applicationName => .text o.applicationName
  | .serverAddress => .text o.serverAddress
  | .authToken => .text o.authToken
  | .basicAuthUsername => .text o.basicAuthUsername
  | .basicAuthPassword => .text o.basicAuthPassword
  | .sampleRate => .number o.sampleRate
  | .detectSubprocesses => .flag o.detectSubprocesses
  | .onCpu => .flag o.onCpu
  | .reportPid => .flag o.reportPid
  | .reportThreadId => .flag o.reportThreadId
  | .reportThreadName => .flag o.reportThreadName
  | .autoinstrument => .missing
  | .logLevel => .number o.logLevel
  | .compression => .text o.compression
  | .reportEncoding => .text o.reportEncoding
  | .tenantId => .text o.tenantId
  | .httpHeaders => .text o.httpHeaders
  | .tags => .text o.tags

section Reading

variable {s : String} {t : HostText}

theorem given_eq_text_iff : given t = .text s ↔ Holds t s := by
  unfold given Holds
  cases t with
  | none => simp
  | some bytes =>
    simp only [Option.some.injEq, exists_eq_left', ← Text.Utf8.decode?_eq_some_iff]
    cases Text.Utf8.decode? (bytes.takeWhile (· ≠ 0)) <;> simp

theorem value_optionText (name : String) : (optionText name t).value = some s ↔ Holds t s := by
  rw [← given_eq_text_iff]
  unfold optionText
  cases given t <;> simp [Noted.value_pure, Noted.saying]

theorem value_andThen {α : Type} {name : String} {f : String → Noted (Option α)} {x : α} {p : String → Prop}
    (hf : ∀ s, (f s).value = some x ↔ p s) :
    (andThen (optionText name t) f).value = some x ↔ ∃ s, Holds t s ∧ p s := by
  simp only [← hf, ← value_optionText name]
  unfold andThen
  rw [Noted.value_bind]
  cases (optionText name t).value <;> simp [Noted.value_pure]

theorem flag_eq_some_iff {n : Int} {b : Bool} : flag n = some b ↔ FlagSaid n b := by
  unfold flag FlagSaid
  by_cases hn : n < 0
  · simp [hn, Int.not_le.2 hn]
  · cases b <;> simp [hn, Int.not_lt.1 hn]

theorem number_eq_some_iff {m n : UInt32} : (if m = 0 then none else some m) = some n ↔ n ≠ 0 ∧ m = n := by
  split
  · rename_i h
    simp [h, eq_comm]
  · rename_i h
    rw [Option.some.injEq]
    exact ⟨fun hmn => ⟨hmn ▸ h, hmn⟩, And.right⟩

theorem ofSeverity_eq_iff {n : UInt32} {level : Level} :
    Level.ofSeverity n = level ↔ level.severity = n ∨ level = .error ∧ ∀ known : Level, known.severity ≠ n := by
  by_cases hknown : ∃ known : Level, known.severity = n
  · obtain ⟨known, rfl⟩ := hknown
    have hseverity : level.severity = known.severity ↔ known = level := by
      cases level <;> cases known <;> decide
    rw [Level.ofSeverity_severity, hseverity]
    exact ⟨.inl, fun h => h.resolve_right fun h => h.2 known rfl⟩
  · have hne : ∀ known : Level, known.severity ≠ n := fun known h => hknown ⟨known, h⟩
    have herror : Level.ofSeverity n = .error := by
      change (if n = Level.trace.severity then _ else if n = Level.debug.severity then _
        else if n = Level.info.severity then _ else if n = Level.warn.severity then _ else _) = _
      rw [if_neg (hne .trace).symm, if_neg (hne .debug).symm, if_neg (hne .info).symm, if_neg (hne .warn).symm]
    rw [herror]
    exact ⟨fun h => .inr ⟨h.symm, hne⟩, fun h => (h.resolve_left (hne level)).1.symm⟩

theorem level_eq_some_iff {n : UInt32} {level : Level} :
    (if n = 0 then none else some (Level.ofSeverity n)) = some level ↔ LevelSaid n level := by
  unfold LevelSaid
  rw [← ofSeverity_eq_iff]
  by_cases hn : n = 0 <;> simp [hn]

theorem ofValue_eq_ok_iff {v : Value} {d : Dict String} : Headers.ofValue v = .ok d ↔
    ∃ pairs : List (String × String), v = .object (pairs.map fun e => (e.1, .string e.2)) ∧ d = .ofList pairs := by
  cases v with
  | object entries =>
    constructor
    · intro h
      cases htexts : Headers.texts entries with
      | error e =>
        rw [Headers.ofValue, htexts] at h
        cases h
      | ok pairs =>
        rw [Headers.ofValue, htexts] at h
        cases h
        exact ⟨pairs, congrArg _ (Headers.texts_eq_ok htexts), rfl⟩
    · rintro ⟨pairs, hpairs, rfl⟩
      cases hpairs
      rw [Headers.ofValue, Headers.texts_map]
      rfl
  | _ => simp [Headers.ofValue]

theorem value_headersOf {d : Dict String} : (headersOf s).value = some d ↔ HeadersSaid s d := by
  have hread : (headersOf s).value = some d ↔ Headers.ofText s = .ok d := by
    unfold headersOf
    cases Headers.ofText s <;> simp [Noted.value_pure, Noted.saying]
  rw [hread]
  unfold Headers.ofText HeadersSaid
  cases hblank : Text.allBlank s with
  | true => simp [eq_comm]
  | false =>
    cases Value.ofText s with
    | error fault => simp
    | ok v => simp [ofValue_eq_ok_iff]

theorem value_compressionOf {c : Compression} :
    (compressionOf s).value = some c ↔ Compression.ofName? s = some c := by
  unfold compressionOf
  cases Compression.ofName? s <;> simp [Noted.value_pure, Noted.saying]

theorem value_reportEncodingOf {e : ReportEncoding} :
    (reportEncodingOf s).value = some e ↔ ReportEncoding.ofName? s = some e := by
  unfold reportEncodingOf
  cases ReportEncoding.ofName? s <;> simp [Noted.value_pure, Noted.saying]

theorem dictOfTags_eq_iff {tags : List Tag} {d : Dict String} :
    Lenient.dictOfTags tags = d ↔ ∀ key, d.get? key = lastValue? tags key := by
  simp only [← get?_dictOfTags]
  exact ⟨fun h key => by rw [h], fun h => Dict.ext_get? fun key => (h key).symm⟩

theorem value_tagsOfText {d : Dict String} : (tagsOfText s).value = some d ↔ TagsSaid s d := by
  unfold tagsOfText TagsSaid
  simp only [← dictOfTags_eq_iff]
  split
  · cases Tag.Structured.read (Text.trim s) <;> simp [Noted.value_pure, Noted.saying]
  · simp [Noted.value_bind, Noted.value_pure]

end Reading

namespace Options

variable {o o' : Options} {s t : Setting}

theorem get_layer_iff {x : s.Value} : o.layer.value.get s = some x ↔ o.Says s x := by
  cases s with
  | applicationName | serverAddress | authToken | basicAuthUsername | basicAuthPassword | tenantId =>
    exact value_optionText _
  | detectSubprocesses | onCpu | reportPid | reportThreadId | reportThreadName => exact flag_eq_some_iff
  | autoinstrument => exact iff_of_false nofun id
  | sampleRate => exact number_eq_some_iff
  | logLevel => exact level_eq_some_iff
  | compression => exact value_andThen fun _ => value_compressionOf
  | reportEncoding => exact value_andThen fun _ => value_reportEncodingOf
  | httpHeaders => exact value_andThen fun _ => value_headersOf
  | tags => exact value_andThen fun _ => value_tagsOfText

theorem says_congr (h : o.word s = o'.word s) {x : s.Value} : o.Says s x ↔ o'.Says s x := by
  cases s <;> simp only [word, Word.text.injEq, Word.flag.injEq, Word.number.injEq] at h <;> simp only [Says, h]

theorem not_usable_of_unset (h : (o.word s).Unset) : ¬o.Usable s := by
  rintro ⟨x, hx⟩
  cases s with
  | applicationName | serverAddress | authToken | basicAuthUsername | basicAuthPassword | tenantId =>
    obtain ⟨bytes, hbytes, -⟩ := hx
    exact Option.some_ne_none bytes (hbytes.symm.trans h)
  | detectSubprocesses | onCpu | reportPid | reportThreadId | reportThreadName => exact Int.not_lt.2 hx.1 h
  | autoinstrument => exact hx
  | sampleRate => exact hx.1 (hx.2.symm.trans h)
  | logLevel => exact hx.1 h
  | compression | reportEncoding | httpHeaders | tags =>
    obtain ⟨_, ⟨bytes, hbytes, -⟩, -⟩ := hx
    exact Option.some_ne_none bytes (hbytes.symm.trans h)

theorem get_layer_of_not_usable (h : ¬o.Usable s) : o.layer.value.get s = none :=
  Option.eq_none_iff_forall_not_mem.2 fun x hx => h ⟨x, get_layer_iff.1 hx⟩

theorem get_layer_congr (h : o.word s = o'.word s) : o.layer.value.get s = o'.layer.value.get s :=
  Option.ext fun _ => get_layer_iff.trans ((says_congr h).trans get_layer_iff.symm)

/-- Nothing else changes with one option, and nothing at all if it cannot be used before or after. -/
theorem layer_of_unusable (hothers : ∀ s, s ≠ t → o.word s = o'.word s) (h : ¬o.Usable t) (h' : ¬o'.Usable t) :
    o.layer.value = o'.layer.value := by
  apply Layer.ext_get
  intro s
  by_cases hs : s = t
  · subst hs
    rw [get_layer_of_not_usable h, get_layer_of_not_usable h']
  · exact get_layer_congr (hothers s hs)

theorem layer_of_unset (h : ∀ s, (o.word s).Unset) : o.layer = pure .empty := by
  have hflag : ∀ {n : Int}, n < 0 → flag n = none := fun hn => if_pos hn
  unfold layer
  rw [show o.applicationName = none from h .applicationName, show o.serverAddress = none from h .serverAddress,
    show o.authToken = none from h .authToken, show o.basicAuthUsername = none from h .basicAuthUsername,
    show o.basicAuthPassword = none from h .basicAuthPassword, show o.compression = none from h .compression,
    show o.reportEncoding = none from h .reportEncoding, show o.tenantId = none from h .tenantId,
    show o.httpHeaders = none from h .httpHeaders, show o.tags = none from h .tags,
    show o.sampleRate = 0 from h .sampleRate, show o.logLevel = 0 from h .logLevel,
    hflag (h .detectSubprocesses), hflag (h .onCpu), hflag (h .reportPid), hflag (h .reportThreadId),
    hflag (h .reportThreadName)]
  rfl

end Options

def callerLayer : Option Options → Noted Layer
  | none => pure .empty
  | some o => o.layer

def startWith (settings : Settings) : Act Bool := do
  match ← startAgent (← hosted) settings with
  | .ok _ => pure true
  | .error e =>
    say .error ("Failed to start agent: " ++ e.message)
    pure false

section Noting

variable {α β : Type}

theorem noting_then (m : Noted α) (f : α → Act β) : noting m >>= f = noting m >>= fun _ => f m.value := rfl

theorem noting_bind (m : Noted α) (f : α → Noted β) : noting (m >>= f) = noting m >>= fun a => noting (f a) := by
  funext p
  change (Except.ok (f m.value).value, ({ p with notes := _ } : Program)) =
    (Except.ok (f m.value).value, ({ p with notes := _ } : Program))
  rw [Noted.events_bind, List.map_append, List.reverse_append, List.append_assoc]

end Noting

variable {vs : Environment.Variables} {options : Option Options}

theorem start_eq : start options vs =
    guarded false (noting (callerLayer options) >>= fun caller => settingsFor vs caller >>= startWith) := by
  cases options <;> rfl

theorem start_known {known : Noted Settings} (h : callerSettings vs (callerLayer options).value = .ok known) :
    start options vs = guarded false (noting (callerLayer options >>= fun _ => known) >>= startWith) := by
  have hsettings : settingsFor vs (callerLayer options).value = noting known := by
    unfold settingsFor
    rw [h]
  rw [start_eq, noting_bind, bind_assoc, noting_then, hsettings]

theorem start_broken {b : Environment.Breakage} (h : Environment.layer vs = .error b) :
    start options vs = noting (callerLayer options >>= fun _ => pure false) := by
  have hcaller : callerSettings vs (callerLayer options).value = .error b := by
    unfold callerSettings
    rw [@Builder.build_breaks vs ⟨[.environment, .layer (callerLayer options).value], .empty⟩ b
      List.mem_cons_self h]
    rfl
  have hsettings : settingsFor vs (callerLayer options).value = throw (.panicked b.message) := by
    unfold settingsFor
    rw [hcaller]
  rw [start_eq, noting_bind, noting_then, hsettings]
  rfl

/-- In an environment that can be read, the agent is handed settings in which every usable option decides
its setting, and the environment and the defaults decide the others. An environment that breaks the reader
lets nothing be handed over. A layer takes from options what each of them says that can be used: one option
changes no other setting, nor its own while it cannot be used, as when it is unset. No options are as good as
none that is set. -/
theorem options_decide (vs : Environment.Variables) :
    (∀ options read, Environment.layer vs = .ok read → ∃ (l : Layer) (known : Noted Settings),
      start options vs = guarded false (noting known >>= startWith) ∧ known.value = l.settingsUnder vs ∧
      ∀ s : Setting, (∀ x, (∃ o, options = some o ∧ o.Says s x) → l.get s = some x) ∧
        ((∀ o, options = some o → ¬o.Usable s) → l.get s = read.value.get s)) ∧
    (∀ options b, Environment.layer vs = .error b → ∃ refused : Noted Bool,
      start options vs = noting refused ∧ refused.value = false) ∧
    (∀ (o : Options) (s : Setting) x, o.layer.value.get s = some x ↔ o.Says s x) ∧
    (∀ (o : Options) (s : Setting), (o.word s).Unset → ¬o.Usable s) ∧
    (∀ (o o' : Options) (t : Setting), (∀ s, s ≠ t → o.word s = o'.word s) →
      (∀ s, s ≠ t → o.layer.value.get s = o'.layer.value.get s) ∧
        (¬o.Usable t → ¬o'.Usable t → o.layer.value = o'.layer.value)) ∧
    ∀ o : Options, (∀ s, (o.word s).Unset) → start (some o) vs = start none vs := by
  refine ⟨fun options read hread => ?_, fun options b hbroken => ⟨_, start_broken hbroken, rfl⟩,
    fun o s x => Options.get_layer_iff, fun o s => Options.not_usable_of_unset,
    fun o o' t hothers => ⟨fun s hs => Options.get_layer_congr (hothers s hs), Options.layer_of_unusable hothers⟩,
    fun o hunset => ?_⟩
  · obtain ⟨known, hknown, hvalue⟩ := callerSettings_lays hread (callerLayer options).value
    refine ⟨(callerLayer options).value.onto read.value, _, start_known hknown, hvalue, fun s => ⟨?_, ?_⟩⟩
    · rintro x ⟨o, rfl, hsays⟩
      rw [Layer.get_onto]
      change (o.layer.value.get s).or _ = _
      rw [Options.get_layer_iff.2 hsays, Option.some_or]
    · intro hnone
      rw [Layer.get_onto]
      cases options with
      | none =>
        change (Layer.empty.get s).or _ = _
        rw [Layer.get_empty, Option.none_or]
      | some o =>
        change (o.layer.value.get s).or _ = _
        rw [Options.get_layer_of_not_usable (hnone o rfl), Option.none_or]
  · have hlayer : callerLayer (some o) = callerLayer none := Options.layer_of_unset hunset
    rw [start_eq, start_eq, hlayer]

/-- A name is used. An unknown compression is not, and the environment decides this setting. -/
theorem options_decide_beside_unusable : ∃ (l : Layer) (known : Noted Settings),
    start (some { applicationName := some (Text.Utf8.encode "shop"), compression := some (Text.Utf8.encode "zip") })
        [⟨Text.Utf8.encode "PYROSCOPE_COMPRESSION", Text.Utf8.encode "none"⟩] =
      guarded false (noting known >>= startWith) ∧
    known.value = l.settingsUnder [⟨Text.Utf8.encode "PYROSCOPE_COMPRESSION", Text.Utf8.encode "none"⟩] ∧
    l.applicationName = some "shop" ∧ l.compression = some .uncompressed := by
  have hvalue : Environment.Typed.ofText (Text.Utf8.decodeLossy (Text.Utf8.encode "none")) = .ok (.text "none") := by
    rw [Text.Utf8.decodeLossy_encode]
    rfl
  obtain ⟨read, hread, hcompression⟩ := Environment.get_layer_alone (s := .compression)
    (y := ⟨Text.Utf8.encode "PYROSCOPE_COMPRESSION", Text.Utf8.encode "none"⟩) (by decide +kernel) hvalue
  obtain ⟨l, known, hstart, hknown, hl⟩ := (options_decide _).1
    (some { applicationName := some (Text.Utf8.encode "shop"), compression := some (Text.Utf8.encode "zip") })
    read hread
  refine ⟨l, known, hstart, hknown, (hl .applicationName).1 "shop" ⟨_, rfl, _, rfl, by decide +kernel⟩, ?_⟩
  have hmeant : (Lenient.compression (.string "none")).value = .uncompressed := by decide +kernel
  refine ((hl .compression).2 ?_).trans (hcompression.trans (congrArg some hmeant))
  rintro o ho ⟨c, hc⟩
  obtain rfl := Option.some.inj ho
  have hnone : (Options.layer { applicationName := some (Text.Utf8.encode "shop")
                                compression := some (Text.Utf8.encode "zip") }).value.compression = none := by
    decide +kernel
  exact Option.some_ne_none c ((Options.get_layer_iff.2 hc).symm.trans hnone)

/-- A variable that names no setting keeps the agent from being started with a name that can be used, if its
first escape stands inside a character. -/
theorem options_lost_beside_variable :
    Options.Says { applicationName := some (Text.Utf8.encode "x") } .applicationName "x" ∧
    ∃ refused : Noted Bool, refused.value = false ∧
      start (some { applicationName := some (Text.Utf8.encode "x") })
        [⟨Text.Utf8.encode "PYROSCOPE_OTHER", Text.Utf8.encode "\"é\\n\""⟩] = noting refused := by
  have hother : Environment.path? (Text.Utf8.encode "PYROSCOPE_OTHER") = some ["other"] := by decide +kernel
  have hbroken : Environment.layer [⟨Text.Utf8.encode "PYROSCOPE_OTHER", Text.Utf8.encode "\"é\\n\""⟩] =
      .error ⟨"é\\n", 1⟩ := by
    simp only [Environment.layer, Environment.typed, Environment.typedFrom, hother, Environment.ofText_cut]
    rfl
  exact ⟨⟨_, rfl, by decide +kernel⟩, _, rfl, start_broken hbroken⟩

end ProfilingAgent.Host

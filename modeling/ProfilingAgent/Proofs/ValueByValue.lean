import ProfilingAgent.Proofs.FlagValues
import ProfilingAgent.Proofs.HostOptions
import ProfilingAgent.Proofs.ObjectSettings
import ProfilingAgent.Proofs.StructuredTags

set_option autoImplicit false

namespace ProfilingAgent

open Json Log

def Chosen {α : Type} (recognised : α → Prop) (fallback x : α) : Prop :=
  recognised x ∨ x = fallback ∧ ∀ y, ¬recognised y

inductive Scalar : Value → String → Prop
  | string (s : String) : Scalar (.string s) s
  | number (n : Number) : Scalar (.number n) n.text
  | bool (b : Bool) : Scalar (.bool b) (Value.boolText b)

def LastScalar (entries : List (String × Value)) (key t : String) : Prop :=
  ∃ before v after, entries = before ++ (key, v) :: after ∧ Scalar v t ∧
    ∀ e ∈ after, e.1 = key → ∀ other, ¬Scalar e.2 other

def NamesLevel (v : Value) (level : Level) : Prop :=
  (∃ s, v = .string s ∧ Level.ofName? s = some level) ∨
    ∃ n h, v = .number (.whole n h) ∧ n = level.severity.toNat

namespace Layer

/-- What a value means for a setting. -/
def Meant (v : Value) : (s : Setting) → s.Value → Prop
  | .applicationName, t | .tenantId, t => v = .string t ∨ ∃ n, v = .number n ∧ n.text = t
  | .serverAddress, t | .authToken, t | .basicAuthUsername, t | .basicAuthPassword, t => v = .string t
  | .sampleRate, n => v = .number (.ofUInt32 n)
  | .detectSubprocesses, b | .onCpu, b | .reportPid, b | .reportThreadId, b | .reportThreadName, b
  | .autoinstrument, b => Lenient.FlagMeant v b
  | .logLevel, level => v ≠ .null ∧ Chosen (NamesLevel v) .error level
  | .compression, c => v ≠ .null ∧ Chosen (fun c => ∃ s, v = .string s ∧ Compression.ofName? s = some c) .gzip c
  | .reportEncoding, e =>
    v ≠ .null ∧ Chosen (fun e => ∃ s, v = .string s ∧ ReportEncoding.ofName? s = some e) .pprof e
  | .httpHeaders, d =>
    (∃ s, v = .string s ∧ Host.HeadersSaid s d) ∨ ∃ es, v = .object es ∧ Host.HeadersSaid v.text d
  | .tags, d =>
    (∃ s, v = .string s ∧ ∀ key, d.get? key = lastValue? (Tag.Delimited.read s).value key) ∨
      ∃ es, v = .object es ∧ ∀ key t, d.get? key = some t ↔ LastScalar es key t

end Layer

section Choices

variable {α : Type} {recognised : α → Prop} {fallback x : α}

theorem chosen_of_unrecognised (h : ∀ y, ¬recognised y) : Chosen recognised fallback x ↔ x = fallback :=
  ⟨fun hx => (hx.resolve_left (h x)).1, fun hx => .inr ⟨hx, h⟩⟩

theorem chosen_of_recognised {y : α} (h : recognised y) : Chosen recognised fallback x ↔ recognised x :=
  ⟨fun hx => hx.resolve_right fun hx => hx.2 y h, .inl⟩

theorem chosen_iff {read : Option α} (h : ∀ y, recognised y ↔ read = some y) :
    Chosen recognised fallback x ↔ read.getD fallback = x := by
  cases hread : read with
  | some y =>
    rw [chosen_of_recognised ((h y).2 hread), h, hread]
    exact Option.some_inj
  | none =>
    have hnone : ∀ y, ¬recognised y := fun y hy => Option.some_ne_none y (((h y).1 hy).symm.trans hread)
    rw [chosen_of_unrecognised hnone]
    exact eq_comm

end Choices

namespace Lenient

variable {v : Value}

theorem text_eq_some_iff {t : String} : (text v).value = some t ↔ v = .string t := by
  cases v <;> simp [text, Noted.value_pure, Noted.saying]

theorem textOrNumber_eq_some_iff {t : String} :
    (textOrNumber v).value = some t ↔ v = .string t ∨ ∃ n, v = .number n ∧ n.text = t := by
  cases v <;> simp [textOrNumber, Noted.value_pure, Noted.saying]

def named? {α : Type} (f : String → Option α) : Value → Option α
  | .string s => f s
  | _ => none

theorem named?_eq_some_iff {α : Type} {f : String → Option α} {x : α} :
    named? f v = some x ↔ ∃ s, v = .string s ∧ f s = some x := by
  cases v <;> simp [named?]

theorem compression_eq (v : Value) : (compression v).value = (named? Compression.ofName? v).getD .gzip := by
  cases v with
  | string s =>
    unfold compression named?
    dsimp only
    cases Compression.ofName? s <;> rfl
  | _ => rfl

theorem reportEncoding_eq (v : Value) :
    (reportEncoding v).value = (named? ReportEncoding.ofName? v).getD .pprof := by
  cases v with
  | string s =>
    unfold reportEncoding named?
    dsimp only
    cases ReportEncoding.ofName? s <;> rfl
  | _ => rfl

theorem compression_eq_iff {c : Compression} : (compression v).value = c ↔
    Chosen (fun c => ∃ s, v = .string s ∧ Compression.ofName? s = some c) .gzip c := by
  rw [chosen_iff fun _ => named?_eq_some_iff.symm, compression_eq]

theorem reportEncoding_eq_iff {e : ReportEncoding} : (reportEncoding v).value = e ↔
    Chosen (fun e => ∃ s, v = .string s ∧ ReportEncoding.ofName? s = some e) .pprof e := by
  rw [chosen_iff fun _ => named?_eq_some_iff.symm, reportEncoding_eq]

theorem level_eq (hwhole : ∀ n h, v ≠ .number (.whole n h)) :
    (Lenient.level v).value = (named? Level.ofName? v).getD .error := by
  cases v with
  | string s =>
    unfold Lenient.level named?
    dsimp only
    cases Level.ofName? s <;> rfl
  | number n =>
    cases n with
    | whole n h => exact absurd rfl (hwhole n h)
    | real x h => rfl
  | _ => rfl

theorem namesLevel_whole {n : Int} {h : -0x8000000000000000 ≤ n ∧ n < 0x10000000000000000} {level : Level} :
    NamesLevel (.number (.whole n h)) level ↔ n = level.severity.toNat := by
  unfold NamesLevel
  constructor
  · rintro (⟨s, hs, -⟩ | ⟨m, hm, heq, hn⟩)
    · cases hs
    · cases heq
      exact hn
  · exact fun hn => .inr ⟨n, h, rfl, hn⟩

/-- A severity fits 32 bits, so a number that does not is none. -/
theorem severity_eq_iff {n : Int} {level : Level} :
    level.severity = (if 0 ≤ n ∧ n < 0x100000000 then UInt32.ofNat n.toNat else 0) ↔
      n = level.severity.toNat := by
  have hlt := level.severity.toNat_lt
  have hpos : level.severity.toNat ≠ 0 := by cases level <;> decide
  rw [← UInt32.toNat_inj]
  split
  · rename_i hrange
    rw [UInt32.toNat_ofNat']
    omega
  · rw [UInt32.toNat_zero]
    omega

theorem level_eq_iff {level : Level} : (Lenient.level v).value = level ↔ Chosen (NamesLevel v) .error level := by
  by_cases hwhole : ∃ n h, v = .number (.whole n h)
  · obtain ⟨n, h, rfl⟩ := hwhole
    change Level.ofSeverity _ = level ↔ _
    rw [Host.ofSeverity_eq_iff]
    simp only [Chosen, namesLevel_whole, severity_eq_iff, ne_eq]
  · have hnone : ∀ n h, v ≠ .number (.whole n h) := fun n h hv => hwhole ⟨n, h, hv⟩
    have hnames : ∀ l, NamesLevel v l ↔ named? Level.ofName? v = some l := by
      intro l
      rw [named?_eq_some_iff]
      refine or_iff_left ?_
      rintro ⟨n, h, hv, -⟩
      exact hnone n h hv
    rw [chosen_iff hnames, level_eq hnone]

theorem headersOfText_eq_some_iff {s : String} {d : Dict String} :
    (headersOfText s).value = some d ↔ Host.HeadersSaid s d := by
  rw [← Host.value_headersOf]
  unfold headersOfText Host.headersOf
  cases Headers.ofText s <;> rfl

theorem headers_eq_some_iff {d : Dict String} : (headers v).value = some d ↔
    (∃ s, v = .string s ∧ Host.HeadersSaid s d) ∨ ∃ es, v = .object es ∧ Host.HeadersSaid v.text d := by
  cases v with
  | string s =>
    refine Iff.trans headersOfText_eq_some_iff ⟨fun h => .inl ⟨s, rfl, h⟩, ?_⟩
    rintro (⟨t, ht, h⟩ | ⟨es, hes, -⟩)
    · cases ht
      exact h
    · cases hes
  | object es =>
    refine Iff.trans headersOfText_eq_some_iff ⟨fun h => .inr ⟨es, rfl, h⟩, ?_⟩
    rintro (⟨t, ht, -⟩ | ⟨es, -, h⟩)
    · cases ht
    · exact h
  | _ => simp [headers, Noted.value_pure, Noted.saying]

theorem scalarText?_eq_some_iff {t : String} : scalarText? v = some t ↔ Scalar v t := by
  constructor
  · intro h
    unfold scalarText? at h
    split at h <;> cases h <;> constructor
  · rintro (_ | _ | _) <;> rfl

def tagOfEntry? (e : String × Value) : Option (String × String) := (scalarText? e.2).map (e.1, ·)

theorem tagOfEntry?_eq_some_iff {e : String × Value} {key t : String} :
    tagOfEntry? e = some (key, t) ↔ e.1 = key ∧ Scalar e.2 t := by
  unfold tagOfEntry?
  rw [Option.map_eq_some_iff, ← scalarText?_eq_some_iff]
  constructor
  · rintro ⟨t', ht, heq⟩
    obtain ⟨rfl, rfl⟩ := Prod.mk.inj heq
    exact ⟨rfl, ht⟩
  · rintro ⟨rfl, ht⟩
    exact ⟨t, ht, rfl⟩

theorem value_tagEntries (entries : List (String × Value)) :
    (tagEntries entries).value = entries.filterMap tagOfEntry? := by
  induction entries with
  | nil => rfl
  | cons e rest ih =>
    obtain ⟨key, v⟩ := e
    unfold tagEntries
    rw [List.filterMap_cons, tagOfEntry?]
    cases scalarText? v with
    | none => exact ih
    | some s => exact congrArg ((key, s) :: ·) ih

theorem lastScalar_iff {entries : List (String × Value)} {key t : String} :
    LastScalar entries key t ↔ Tag.Structured.LastValue (entries.filterMap tagOfEntry?) key t := by
  constructor
  · rintro ⟨before, v, after, rfl, hscalar, hafter⟩
    refine ⟨before.filterMap tagOfEntry?, after.filterMap tagOfEntry?, ?_, ?_⟩
    · rw [List.filterMap_append, List.filterMap_cons, tagOfEntry?_eq_some_iff.2 ⟨rfl, hscalar⟩]
    · rintro ⟨k, t'⟩ he rfl
      obtain ⟨e, hmem, htag⟩ := List.mem_filterMap.1 he
      obtain ⟨hkey, hother⟩ := tagOfEntry?_eq_some_iff.1 htag
      exact hafter e hmem hkey t' hother
  · rintro ⟨before, after, hsplit, hafter⟩
    obtain ⟨first, more, rfl, -, hmore⟩ := List.filterMap_eq_append_iff.1 hsplit
    obtain ⟨skipped, ⟨k, v⟩, rest, rfl, -, htag, rfl⟩ := List.filterMap_eq_cons_iff.1 hmore
    obtain ⟨rfl, hscalar⟩ := tagOfEntry?_eq_some_iff.1 htag
    refine ⟨first ++ skipped, v, rest, (List.append_assoc _ _ _).symm, hscalar, fun e he hkey other hother => ?_⟩
    exact hafter _ (List.mem_filterMap.2 ⟨e, he, tagOfEntry?_eq_some_iff.2 ⟨hkey, hother⟩⟩) rfl

theorem tags_eq_some_iff {d : Dict String} : (tags v).value = some d ↔
    (∃ s, v = .string s ∧ ∀ key, d.get? key = lastValue? (Tag.Delimited.read s).value key) ∨
      ∃ es, v = .object es ∧ ∀ key t, d.get? key = some t ↔ LastScalar es key t := by
  cases v with
  | string s => simp [tags, Noted.value_bind, Noted.value_pure, Host.dictOfTags_eq_iff]
  | object es =>
    have hsame : Dict.ofList (es.filterMap tagOfEntry?) = d ↔
        ∀ key t, d.get? key = some t ↔ LastScalar es key t := by
      simp only [lastScalar_iff, Tag.Structured.lastValue_iff]
      refine ⟨fun h key t => by rw [h], fun h => Dict.ext_get? fun key => Option.ext fun t => (h key t).symm⟩
    simp [tags, Noted.value_bind, Noted.value_pure, value_tagEntries, hsame]
  | _ => simp [tags, Noted.value_pure, Noted.saying]

end Lenient

namespace Layer

variable {v : Value}

theorem rateOfValue_eq_ok_iff {n : UInt32} : rateOfValue v = .ok n ↔ v = .number (.ofUInt32 n) := by
  constructor
  · intro h
    cases v with
    | number m =>
      cases m with
      | whole k hk =>
        unfold rateOfValue rateOfNumber at h
        dsimp only at h
        split at h
        · rename_i hrange
          obtain rfl := Except.ok.inj h
          unfold Number.ofUInt32
          congr
          rw [UInt32.toNat_ofNat']
          omega
        · cases h
      | real x hx => cases h
    | _ => cases h
  · rintro rfl
    exact rateOfValue_ofUInt32 n

theorem rate_eq_some_iff {n : UInt32} : (rate v).value = some n ↔ v = .number (.ofUInt32 n) := by
  rw [← rateOfValue_eq_ok_iff]
  unfold rate
  cases rateOfValue v <;> simp [Noted.value_pure, Lenient.rateRefused, Noted.saying]

theorem told_null (s : Setting) : told s .null = none := get_empty s

theorem told_eq_some_iff {s : Setting} {x : s.Value} : told s v = some x ↔ Meant v s x := by
  by_cases hnull : v = .null
  · subst hnull
    rw [told_null]
    cases s <;> simp [Meant, Lenient.FlagMeant]
  · have hread : told s v = (Lenient.setting s v (rate v) empty).value.get s := by
      unfold told readSetting
      split
      · exact absurd rfl hnull
      · rfl
    rw [hread]
    cases s with
    | applicationName | tenantId => exact Lenient.textOrNumber_eq_some_iff
    | serverAddress | authToken | basicAuthUsername | basicAuthPassword => exact Lenient.text_eq_some_iff
    | sampleRate => exact rate_eq_some_iff
    | detectSubprocesses | onCpu | reportPid | reportThreadId | reportThreadName | autoinstrument =>
      exact Lenient.flag_eq_some_iff
    | logLevel => exact Option.some_inj.trans (Lenient.level_eq_iff.trans (and_iff_right hnull).symm)
    | compression => exact Option.some_inj.trans (Lenient.compression_eq_iff.trans (and_iff_right hnull).symm)
    | reportEncoding =>
      exact Option.some_inj.trans (Lenient.reportEncoding_eq_iff.trans (and_iff_right hnull).symm)
    | httpHeaders => exact Lenient.headers_eq_some_iff
    | tags => exact Lenient.tags_eq_some_iff

/-- Settings that are chosen among a few, with a conservative choice. -/
def choices : List Setting := [.logLevel, .compression, .reportEncoding]

theorem exists_told_of_choice {s : Setting} (h : s ∈ choices) (hv : v ≠ .null) : ∃ x, told s v = some x := by
  simp only [choices, List.mem_cons, List.not_mem_nil, or_false] at h
  rcases h with rfl | rfl | rfl
  · exact ⟨_, told_eq_some_iff.2 ⟨hv, Lenient.level_eq_iff.1 rfl⟩⟩
  · exact ⟨_, told_eq_some_iff.2 ⟨hv, Lenient.compression_eq_iff.1 rfl⟩⟩
  · exact ⟨_, told_eq_some_iff.2 ⟨hv, Lenient.reportEncoding_eq_iff.1 rfl⟩⟩

/-- Any object is read. Each setting takes what the value under its own name means for it, and is left open
if there is none, or null, or one that means nothing for it, which any other value does for a choice. The
setting is the same in any other object with this value under its name, and objects that differ in
unknown names alone give the same layer. -/
theorem read_value_by_value (d : Dict Value) : ∃ l, (ofValue (.object d.entries)).value = .ok l ∧
    (∀ s x, l.get s = some x ↔ ∃ v, d.get? s.name = some v ∧ Meant v s x) ∧
    (∀ s : Setting, d.get? s.name = none ∨ d.get? s.name = some .null → l.get s = none) ∧
    (∀ s ∈ choices, ∀ v, d.get? s.name = some v → v ≠ .null → ∃ x, l.get s = some x) ∧
    ∀ other : Dict Value, ∃ l', (ofValue (.object other.entries)).value = .ok l' ∧
      (∀ s : Setting, other.get? s.name = d.get? s.name → l'.get s = l.get s) ∧
      ((∀ s : Setting, other.get? s.name = d.get? s.name) → l' = l) := by
  have hsame : ∀ (other : Dict Value) (s : Setting), other.get? s.name = d.get? s.name →
      (ofObject other).get s = (ofObject d).get s := by
    intro other s h
    rw [get_ofObject, get_ofObject, h]
  refine ⟨ofObject d, rfl, fun s x => ?_, fun s h => ?_, fun s hs v hv hne => ?_, fun other => ?_⟩
  · rw [get_ofObject, Option.bind_eq_some_iff]
    simp only [told_eq_some_iff]
  · rw [get_ofObject]
    rcases h with h | h
    · rw [h]
      rfl
    · rw [h]
      exact told_null s
  · obtain ⟨x, hx⟩ := exists_told_of_choice hs hne
    refine ⟨x, ?_⟩
    rw [get_ofObject, hv]
    exact hx
  · exact ⟨ofObject other, rfl, hsame other, fun h => ext_get fun s => hsame other s (h s)⟩

/-- A severity and a word in capitals are understood, and the text of a rate is not. -/
theorem read_value_by_value_mixed : ∃ l, (ofValue (.object
    [("log_level", .number (.whole 30 (by decide))), ("oncpu", .string "TRUE"),
      ("sample_rate", .string "100")])).value = .ok l ∧
    l.logLevel = some .info ∧ l.onCpu = some true ∧ l.sampleRate = none := by
  obtain ⟨l, hread, hmeant, -⟩ := read_value_by_value ⟨[("log_level", .number (.whole 30 (by decide))),
    ("oncpu", .string "TRUE"), ("sample_rate", .string "100")], by decide⟩
  refine ⟨l, hread, (hmeant .logLevel .info).2 ⟨_, rfl, nofun, ?_⟩, (hmeant .onCpu true).2 ⟨_, rfl, ?_⟩, ?_⟩
  · exact .inl (.inr ⟨30, by decide, rfl, rfl⟩)
  · exact .inl (by decide)
  · apply Option.eq_none_iff_forall_not_mem.2
    intro n hn
    obtain ⟨v, hv, hrate⟩ := (hmeant .sampleRate n).1 hn
    obtain rfl := Option.some.inj hv
    cases hrate

end Layer

end ProfilingAgent

import ProfilingAgent.Proofs.DirectReading
import ProfilingAgent.Proofs.EitherForm
import ProfilingAgent.Proofs.Resolution

set_option autoImplicit false

namespace ProfilingAgent

open Json Json.Reader Log

section Texts

variable (d : Dict String)

theorem normalEntries_strings (pairs : List (String × String)) :
    Value.normalEntries (pairs.map fun e => (e.1, .string e.2)) = pairs.map fun e => (e.1, .string e.2) := by
  induction pairs with
  | nil => rfl
  | cons e rest ih =>
    rw [List.map_cons, Value.normalEntries, ih]
    rfl

theorem normal_ofTexts : (Value.ofTexts d).normal = .ofTexts d := by
  have hincreasing : KeysIncrease (d.entries.map fun e => (e.1, Value.string e.2)) :=
    List.pairwise_map.2 d.increasing
  unfold Value.ofTexts
  rw [Value.normal, normalEntries_strings, Dict.entries_ofList hincreasing]

end Texts

structure Lasting (depth : Nat) (v : Value) : Prop where
  wordy : Wordy depth v
  normal : v.normal = v

namespace Lasting

variable {depth : Nat}

theorem string (s : String) : Lasting depth (.string s) := ⟨.string s, rfl⟩

theorem bool (b : Bool) : Lasting depth (.bool b) := ⟨.bool b, rfl⟩

theorem rate (n : UInt32) : Lasting depth (.number (.ofUInt32 n)) :=
  ⟨.whole _ _, Layer.normal_of_plain rfl⟩

theorem optionalText (t : Option String) : Lasting depth (Settings.optionalText t) := by
  cases t with
  | none => exact ⟨.null, rfl⟩
  | some t => exact .string t

theorem texts (hdepth : 0 < depth) (d : Dict String) : Lasting (depth + 1) (.ofTexts d) := by
  refine ⟨.object hdepth fun e he => ?_, normal_ofTexts d⟩
  obtain ⟨_, -, rfl⟩ := List.mem_map.1 he
  exact .string _

end Lasting

theorem normalEntries_of_lasting {depth : Nat} {es : List (String × Value)}
    (h : ∀ e ∈ es, Lasting depth e.2) : Value.normalEntries es = es := by
  induction es with
  | nil => rfl
  | cons e rest ih =>
    rw [Value.normalEntries, (h e List.mem_cons_self).normal,
      ih fun e he => h e (List.mem_cons_of_mem _ he)]

namespace Layer

theorem toldBy_of_valueOf {s : Setting} {v : Value} {es : List (String × Value)}
    (h : valueOf es s.name = some v) : toldBy s es = told s v := by
  unfold toldBy
  rw [h]
  rfl

theorem told_sampleRate (v : Value) : told .sampleRate v = (rate v).value :=
  (congrArg (fun l => l.get .sampleRate) (rate_set v (get_empty .sampleRate))).symm

theorem rate_of_ok {v : Value} {n : UInt32} (h : rateOfValue v = .ok n) : (rate v).value = some n := by
  unfold rate
  rw [h]
  rfl

theorem rateOfNumber_whole (k : Int) (h : -0x8000000000000000 ≤ k ∧ k < 0x10000000000000000)
    (hrate : 0 ≤ k ∧ k < 0x100000000) : rateOfNumber (.whole k h) = .ok (UInt32.ofNat k.toNat) :=
  if_pos hrate

theorem rateOfValue_ofUInt32 (n : UInt32) : rateOfValue (.number (.ofUInt32 n)) = .ok n := by
  have hrange : (0 : Int) ≤ n.toNat ∧ (n.toNat : Int) < 0x100000000 := by
    have := n.toNat_lt
    omega
  have hrate := rateOfNumber_whole n.toNat (by omega) hrange
  rw [Int.toNat_natCast, UInt32.ofNat_toNat] at hrate
  unfold rateOfValue Number.ofUInt32
  exact hrate

theorem told_rate (n : UInt32) : told .sampleRate (.number (.ofUInt32 n)) = some n :=
  (told_sampleRate _).trans (rate_of_ok (rateOfValue_ofUInt32 n))

theorem told_level (l : Level) : told .logLevel (.string l.name) = some l := by
  cases l <;> rfl

theorem told_compression (c : Compression) : told .compression (.string c.name) = some c := by
  cases c <;> rfl

theorem told_reportEncoding (e : ReportEncoding) : told .reportEncoding (.string e.name) = some e := by
  cases e <;> rfl

theorem told_tenant (t : Option String) : told .tenantId (Settings.optionalText t) = t := by
  cases t <;> rfl

theorem told_tags (d : Dict String) : told .tags (.ofTexts d) = some d := by
  have hread : told .tags (.ofTexts d) = some (.ofList
    (Lenient.tagEntries (d.entries.map fun e => (e.1, Value.string e.2))).value) := rfl
  rw [hread, tagEntries_texts, Dict.ofList_of_perm (List.Perm.refl d.entries)]
  rfl

end Layer

namespace Settings

open Layer

def shownLayer (s : Settings) : Layer :=
  { s.layer with
    authToken := none
    basicAuthUsername := none
    basicAuthPassword := none
    httpHeaders := none }

theorem toValue_entries (s : Settings) : ∃ es, s.toValue = .object es ∧ (es.map Prod.fst).Nodup ∧
    (∀ e ∈ es, Lasting 127 e.2) ∧ ¬RateBracketed es ∧ ∀ t, toldBy t es = s.shownLayer.get t := by
  refine ⟨_, rfl, ?_, ?_, ?_, fun t => ?_⟩
  · simp only [List.map_cons, List.map_nil]
    decide
  · simp only [List.forall_mem_cons]
    exact ⟨.string _, .string _, .string _, .rate _, .bool _, .bool _, .bool _, .bool _, .bool _, .bool _,
      .string _, .string _, .string _, .optionalText _, .texts (by decide) _, nofun⟩
  · rintro ⟨v, hv, hbracket⟩
    obtain rfl : v = .number (.ofUInt32 s.sampleRate) := by simpa [Setting.name] using hv
    cases hbracket
  · cases t with
    | sampleRate => exact (toldBy_of_valueOf rfl).trans (told_rate s.sampleRate)
    | logLevel => exact (toldBy_of_valueOf rfl).trans (told_level s.logLevel)
    | compression => exact (toldBy_of_valueOf rfl).trans (told_compression s.compression)
    | reportEncoding => exact (toldBy_of_valueOf rfl).trans (told_reportEncoding s.reportEncoding)
    | tenantId => exact (toldBy_of_valueOf rfl).trans (told_tenant s.tenantId)
    | tags => exact (toldBy_of_valueOf rfl).trans (told_tags s.tags)
    | _ => rfl

theorem written_json (s : Settings) : Value.written s.json = .ok s.toValue := by
  obtain ⟨es, hes, -, hlasting, -⟩ := s.toValue_entries
  have hwordy : Wordy depthLimit s.toValue :=
    hes ▸ .object (by decide) fun e he => (hlasting e he).wordy
  obtain ⟨q, hgives⟩ := hwordy.gives_writtenValue
  exact run_eq_ok_iff.2 ⟨⟨[], q⟩, hgives, rfl⟩

theorem ofText_json (s : Settings) : (Layer.ofText s.json).value = .ok s.shownLayer := by
  obtain ⟨es, hes, hdistinct, hlasting, hplain, htold⟩ := s.toValue_entries
  have hwritten : Value.written s.json = .ok (.object es) := hes ▸ s.written_json
  obtain ⟨l, hread, hlayer⟩ := ofText_of_written hwritten hdistinct hplain
  have hsame : l = s.shownLayer := by
    apply ext_get
    intro t
    rw [hlayer, normalEntries_of_lasting hlasting, htold]
  rw [hread, hsame]

/-- Resolved settings are shown as a text that can be read as a layer, and this layer is resolved to the
settings without the credentials and the extra headers. -/
theorem json_reads_back (r : Layer) : ∃ l, (Layer.ofText r.resolve.json).value = .ok l ∧
    l.resolve = { r.resolve with credentials := .absent, httpHeaders := .empty } := by
  refine ⟨_, ofText_json r.resolve, ?_⟩
  have hrest : r.resolve.shownLayer.resolve =
      ({ r.resolve with credentials := .absent, httpHeaders := .empty } : Settings).layer.resolve := rfl
  rw [hrest]
  exact resolve_layer (usableRate_ne_zero r.sampleRate) nofun (Credentials.nonBlank?_nonBlank? r.tenantId)

end Settings
end ProfilingAgent

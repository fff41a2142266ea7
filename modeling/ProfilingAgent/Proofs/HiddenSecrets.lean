import ProfilingAgent.Proofs.ShownSettings

set_option autoImplicit false

namespace ProfilingAgent

open Json Credentials

namespace Layer

variable {a b : Layer}

/-- Two layers say the same about every setting that is not listed. -/
def AgreeBut (listed : List Setting) (a b : Layer) : Prop := ∀ s, s ∉ listed → a.get s = b.get s

theorem AgreeBut.mono {listed more : List Setting} (h : AgreeBut listed a b) (hmore : listed ⊆ more) :
    AgreeBut more a b := fun s hs => h s fun hmem => hs (hmore hmem)

theorem AgreeBut.eq_replaced
    (h : AgreeBut [.authToken, .basicAuthUsername, .basicAuthPassword, .httpHeaders] a b) :
    a = { b with
      authToken := a.authToken
      basicAuthUsername := a.basicAuthUsername
      basicAuthPassword := a.basicAuthPassword
      httpHeaders := a.httpHeaders } := by
  apply ext_get
  intro s
  cases s <;> first | rfl | exact h _ (by decide)

end Layer

theorem Level.name_inj {l m : Level} : l.name = m.name ↔ l = m := by
  cases l <;> cases m <;> decide

theorem Compression.name_inj {c d : Compression} : c.name = d.name ↔ c = d := by
  cases c <;> cases d <;> decide

theorem ReportEncoding.name_inj {e f : ReportEncoding} : e.name = f.name ↔ e = f := by
  cases e <;> cases f <;> decide

theorem Json.Number.ofUInt32_inj {m n : UInt32} : Number.ofUInt32 m = Number.ofUInt32 n ↔ m = n := by
  unfold Number.ofUInt32
  rw [Number.whole.injEq, Int.natCast_inj, UInt32.toNat_inj]

theorem Json.Value.ofTexts_inj {d e : Dict String} : Value.ofTexts d = Value.ofTexts e ↔ d = e := by
  have hinjective : Function.Injective fun e : String × String => (e.1, Value.string e.2) := by
    rintro ⟨k, s⟩ ⟨l, t⟩ h
    simpa using h
  unfold Value.ofTexts
  rw [Value.object.injEq, hinjective.list_map.eq_iff, Dict.ext_iff]

namespace Settings

variable {s t : Settings}

theorem optionalText_inj {u v : Option String} : optionalText u = optionalText v ↔ u = v := by
  cases u <;> cases v <;> simp [optionalText]

def visible (s : Settings) : Settings := { s with credentials := .absent, httpHeaders := .empty }

theorem toValue_eq_iff :
    s.toValue = t.toValue ↔ s.visible = t.visible ∧ s.credentials.scheme = t.credentials.scheme := by
  cases s
  cases t
  simp only [toValue, visible, Value.object.injEq, List.cons.injEq, Prod.mk.injEq, Value.string.injEq,
    Value.bool.injEq, Value.number.injEq, Settings.mk.injEq, Number.ofUInt32_inj, Level.name_inj,
    Compression.name_inj, ReportEncoding.name_inj, optionalText_inj, Value.ofTexts_inj, true_and, and_true]
  tauto

theorem json_eq_iff :
    s.json = t.json ↔ s.visible = t.visible ∧ s.credentials.scheme = t.credentials.scheme := by
  rw [← toValue_eq_iff]
  constructor
  · intro h
    have hwritten := s.written_json
    rw [h, t.written_json] at hwritten
    exact (Except.ok.inj hwritten).symm
  · exact congrArg Value.text

theorem described_eq (s : Settings) : s.described =
    (s.visible.described.set 2 ("credentials", s.credentials.describe)).set 14
      ("http_headers", describeTexts s.httpHeaders) := rfl

theorem describe_congr (hvisible : s.visible = t.visible) (hheaders : s.httpHeaders = t.httpHeaders)
    (hcredentials : s.credentials.describe = t.credentials.describe) : s.describe = t.describe := by
  unfold describe
  rw [described_eq s, described_eq t, hvisible, hheaders, hcredentials]

end Settings

namespace Layer

variable {a b : Layer}

theorem AgreeBut.visible
    (h : AgreeBut [.authToken, .basicAuthUsername, .basicAuthPassword, .httpHeaders] a b) :
    a.resolve.visible = b.resolve.visible := by
  rw [h.eq_replaced]
  rfl

theorem AgreeBut.describe (h : AgreeBut [.authToken, .basicAuthUsername, .basicAuthPassword] a b)
    (hcredentials : a.resolve.credentials.describe = b.resolve.credentials.describe) :
    a.resolve.describe = b.resolve.describe := by
  have hheaders : a.httpHeaders = b.httpHeaders := h .httpHeaders (by decide)
  refine Settings.describe_congr (h.mono (by decide)).visible ?_ hcredentials
  exact congrArg (Option.getD · Dict.empty) hheaders

theorem AgreeBut.json
    (h : AgreeBut [.authToken, .basicAuthUsername, .basicAuthPassword, .httpHeaders] a b)
    (hscheme : a.resolve.credentials.scheme = b.resolve.credentials.scheme) :
    a.resolve.json = b.resolve.json := Settings.json_eq_iff.2 ⟨h.visible, hscheme⟩

/-- Two layers that differ in secrets alone are shown in the same way, as a description and as data, if
both set a token, or if neither does and both set the same username and some password. The data is also
the same if usernames that are used differ, and whatever the extra headers are. It is the same exactly
if the settings agree but for the credentials and the extra headers, and the schemes are the same. -/
theorem secrets_not_shown (a b : Layer) :
    (AgreeBut [.authToken, .basicAuthUsername, .basicAuthPassword] a b →
      (∃ t, Given a.authToken t) → (∃ t, Given b.authToken t) →
      a.resolve.describe = b.resolve.describe ∧ a.resolve.json = b.resolve.json) ∧
    (AgreeBut [.authToken, .basicAuthPassword] a b →
      (∀ t, ¬Given a.authToken t) → (∀ t, ¬Given b.authToken t) →
      (∃ p, Given a.basicAuthPassword p) → (∃ p, Given b.basicAuthPassword p) →
      a.resolve.describe = b.resolve.describe ∧ a.resolve.json = b.resolve.json) ∧
    (AgreeBut [.authToken, .basicAuthUsername, .basicAuthPassword, .httpHeaders] a b →
      (∀ t, ¬Given a.authToken t) → (∀ t, ¬Given b.authToken t) →
      (∃ u, Given a.basicAuthUsername u) → (∃ u, Given b.basicAuthUsername u) →
      (∃ p, Given a.basicAuthPassword p) → (∃ p, Given b.basicAuthPassword p) →
      a.resolve.json = b.resolve.json) ∧
    (AgreeBut [.httpHeaders] a b → a.resolve.json = b.resolve.json) ∧
    (a.resolve.json = b.resolve.json ↔
      ({ a.resolve with credentials := .absent, httpHeaders := .empty } : Settings) =
          { b.resolve with credentials := .absent, httpHeaders := .empty } ∧
        a.resolve.credentials.scheme = b.resolve.credentials.scheme) := by
  refine ⟨fun h ⟨t, ht⟩ ⟨u, hu⟩ => ?_, fun h ha hb ⟨p, hp⟩ ⟨q, hq⟩ => ?_,
    fun h ha hb ⟨u, hu⟩ ⟨v, hv⟩ ⟨p, hp⟩ ⟨q, hq⟩ => ?_, fun h => ?_, Settings.json_eq_iff⟩
  · have hat : a.resolve.credentials = .token t := ofParts_eq_token_iff.2 ht
    have hbu : b.resolve.credentials = .token u := ofParts_eq_token_iff.2 hu
    exact ⟨h.describe (by rw [hat, hbu]; rfl), (h.mono (by decide)).json (by rw [hat, hbu]; rfl)⟩
  · have husername : a.basicAuthUsername = b.basicAuthUsername := h .basicAuthUsername (by decide)
    by_cases hu : ∃ u, Given a.basicAuthUsername u
    · obtain ⟨u, hu⟩ := hu
      have hap : a.resolve.credentials = .basic u p := ofParts_eq_basic_iff.2 ⟨ha, hu, hp⟩
      have hbq : b.resolve.credentials = .basic u q := ofParts_eq_basic_iff.2 ⟨hb, husername ▸ hu, hq⟩
      exact ⟨(h.mono (by decide)).describe (by rw [hap, hbq]; rfl),
        (h.mono (by decide)).json (by rw [hap, hbq]; rfl)⟩
    · rw [not_exists] at hu
      have hnone : a.resolve.credentials = .absent := ofParts_eq_absent_iff.2 ⟨ha, .inl hu⟩
      have hnone' : b.resolve.credentials = .absent :=
        ofParts_eq_absent_iff.2 ⟨hb, .inl (husername ▸ hu)⟩
      exact ⟨(h.mono (by decide)).describe (by rw [hnone, hnone']),
        (h.mono (by decide)).json (by rw [hnone, hnone'])⟩
  · have hap : a.resolve.credentials = .basic u p := ofParts_eq_basic_iff.2 ⟨ha, hu, hp⟩
    have hbq : b.resolve.credentials = .basic v q := ofParts_eq_basic_iff.2 ⟨hb, hv, hq⟩
    exact h.json (by rw [hap, hbq]; rfl)
  · have htoken : a.authToken = b.authToken := h .authToken (by decide)
    have husername : a.basicAuthUsername = b.basicAuthUsername := h .basicAuthUsername (by decide)
    have hpassword : a.basicAuthPassword = b.basicAuthPassword := h .basicAuthPassword (by decide)
    refine (h.mono (by decide)).json ?_
    unfold resolve
    rw [htoken, husername, hpassword]

theorem secrets_not_shown_blank :
    (resolve { authToken := some "one", basicAuthUsername := some "ann" }).describe =
      (resolve { authToken := some " other ", basicAuthPassword := some "p" }).describe ∧
    (resolve { authToken := some " ", basicAuthUsername := some "ann", basicAuthPassword := some "one" }).describe =
      (resolve { basicAuthUsername := some "ann", basicAuthPassword := some "other" }).describe ∧
    (resolve { basicAuthUsername := some "ann", basicAuthPassword := some "one" }).json =
      (resolve
        { basicAuthUsername := some "bob", basicAuthPassword := some "other",
          httpHeaders := some (.ofList [("a", "b")]) }).json := by
  have hblank : ∀ t, ¬Given (some " ") t := nonBlank?_eq_none_iff.1 (by decide)
  have hnone : ∀ t, ¬Given none t := nonBlank?_eq_none_iff.1 rfl
  have hgiven : ∀ s, Text.allBlank s = false → ∃ t, Given (some s) t := fun s hs => ⟨_, s, rfl, hs, rfl⟩
  refine ⟨((secrets_not_shown _ _).1 ?_ (hgiven _ rfl) (hgiven _ rfl)).1,
    ((secrets_not_shown _ _).2.1 ?_ hblank hnone (hgiven _ rfl) (hgiven _ rfl)).1,
    (secrets_not_shown _ _).2.2.1 ?_ hnone hnone (hgiven _ rfl) (hgiven _ rfl) (hgiven _ rfl) (hgiven _ rfl)⟩
  all_goals
    intro s hs
    cases s <;> first | rfl | exact absurd (by decide) hs

end Layer
end ProfilingAgent

import ProfilingAgent.Proofs.ObjectSettings
import ProfilingAgent.Proofs.QuotedTexts
import ProfilingAgent.Proofs.RereadObjects

set_option autoImplicit false

namespace ProfilingAgent

open Json Json.Reader Log Credentials

theorem Json.Value.kind_eq_string_iff {v : Value} : v.kind = "a string" ↔ ∃ s, v = .string s := by
  cases v <;> simp [Value.kind]

theorem Json.Value.kind_eq_null_iff {v : Value} : v.kind = "null" ↔ v = .null := by
  cases v <;> simp [Value.kind]

/-- Two values of one kind. If they are texts, neither is blank. -/
structure Alike (v w : Value) : Prop where
  kind : v.kind = w.kind
  left : ∀ s, v = .string s → Text.allBlank s = false
  right : ∀ s, w = .string s → Text.allBlank s = false

theorem Alike.cases {v w : Value} (h : Alike v w) :
    (∃ s t, v = .string s ∧ w = .string t ∧ Text.allBlank s = false ∧ Text.allBlank t = false) ∨
      (v = .null ∧ w = .null) ∨
      ((∀ s, v ≠ .string s) ∧ (∀ s, w ≠ .string s) ∧ v ≠ .null ∧ w ≠ .null) := by
  by_cases hstring : v.kind = "a string"
  · obtain ⟨s, rfl⟩ := Value.kind_eq_string_iff.1 hstring
    obtain ⟨t, rfl⟩ := Value.kind_eq_string_iff.1 (h.kind ▸ hstring)
    exact .inl ⟨s, t, rfl, rfl, h.left s rfl, h.right t rfl⟩
  by_cases hnull : v.kind = "null"
  · exact .inr (.inl ⟨Value.kind_eq_null_iff.1 hnull, Value.kind_eq_null_iff.1 (h.kind ▸ hnull)⟩)
  · have hstring' : w.kind ≠ "a string" := h.kind ▸ hstring
    have hnull' : w.kind ≠ "null" := h.kind ▸ hnull
    exact .inr (.inr ⟨fun s hs => hstring (Value.kind_eq_string_iff.2 ⟨s, hs⟩),
      fun s hs => hstring' (Value.kind_eq_string_iff.2 ⟨s, hs⟩),
      fun hv => hnull (Value.kind_eq_null_iff.2 hv), fun hw => hnull' (Value.kind_eq_null_iff.2 hw)⟩)

namespace Lenient

variable {v w : Value}

theorem text_of_other (hstring : ∀ s, v ≠ .string s) (hnull : v ≠ .null) : text v =
    .saying none .error ("Failed to parse value, expected a string, got: " ++ v.text ++ ", ignoring") := by
  cases v with
  | string s => exact absurd rfl (hstring s)
  | null => exact absurd rfl hnull
  | _ => rfl

theorem events_text_iff (h : Alike v w) :
    (text v).events = (text w).events ↔ v = .null ∨ (∃ s, v = .string s) ∨ v.text = w.text := by
  rcases h.cases with ⟨s, t, rfl, rfl, -⟩ | ⟨rfl, rfl⟩ | ⟨hstring, hstring', hnull, hnull'⟩
  · exact ⟨fun _ => .inr (.inl ⟨s, rfl⟩), fun _ => rfl⟩
  · exact ⟨fun _ => .inl rfl, fun _ => rfl⟩
  · rw [text_of_other hstring hnull, text_of_other hstring' hnull']
    constructor
    · intro hevents
      have hmessage := congrArg (List.map Event.message) hevents
      simp only [Noted.saying, List.map_cons, List.map_nil, Event.say, List.cons.injEq, Option.some.injEq,
        and_true, String.append_left_inj, String.append_right_inj] at hmessage
      exact .inr (.inr hmessage)
    · rintro (hv | ⟨s, hs⟩ | htext)
      · exact absurd hv hnull
      · exact absurd hs (hstring s)
      · rw [htext]

end Lenient

namespace Credentials

variable {t t' u p p' : Option String}

theorem nonBlank?_isSome {s : String} (h : Text.allBlank s = false) : (nonBlank? (some s)).isSome = true :=
  Option.isSome_iff_exists.2 ⟨_, nonBlank?_eq_some_iff.2 ⟨s, rfl, h, rfl⟩⟩

/-- Which credentials there are depends on which parts can be used. -/
theorem describe_ofParts (ht : (nonBlank? t).isSome = (nonBlank? t').isSome)
    (hp : (nonBlank? p).isSome = (nonBlank? p').isSome) :
    (ofParts t u p).describe = (ofParts t' u p').describe := by
  unfold ofParts
  cases hnew : nonBlank? t with
  | some token =>
    rw [hnew] at ht
    obtain ⟨token', hnew'⟩ := Option.isSome_iff_exists.1 ht.symm
    rw [hnew']
    exact describe_token token token'
  | none =>
    rw [hnew] at ht
    rw [Option.isSome_eq_false_iff.1 ht.symm |> Option.isNone_iff_eq_none.1]
    cases nonBlank? u with
    | none => rfl
    | some username =>
      cases hpassword : nonBlank? p with
      | some password =>
        rw [hpassword] at hp
        obtain ⟨password', hpassword'⟩ := Option.isSome_iff_exists.1 hp.symm
        rw [hpassword']
        exact describe_password username password password'
      | none =>
        rw [hpassword] at hp
        rw [Option.isSome_eq_false_iff.1 hp.symm |> Option.isNone_iff_eq_none.1]

end Credentials

theorem Alike.isSome_text {v w : Value} (h : Alike v w) :
    (nonBlank? (Lenient.text v).value).isSome = (nonBlank? (Lenient.text w).value).isSome := by
  rcases h.cases with ⟨s, t, rfl, rfl, hs, ht⟩ | ⟨rfl, rfl⟩ | ⟨hstring, hstring', hnull, hnull'⟩
  · exact (nonBlank?_isSome hs).trans (nonBlank?_isSome ht).symm
  · rfl
  · rw [Lenient.text_of_other hstring hnull, Lenient.text_of_other hstring' hnull']
    rfl

namespace Layer

variable {v w : Value} {s : Setting}

def textSecrets : List Setting := [.authToken, .basicAuthPassword]

theorem toldOf_secret (hs : s ∈ textSecrets) (v : Value) : toldOf s v = (Lenient.text v).events := by
  rcases List.mem_pair.1 hs with rfl | rfl <;> cases v <;> rfl

theorem told_authToken (v : Value) : told .authToken v = (Lenient.text v).value := by cases v <;> rfl

theorem told_basicAuthPassword (v : Value) : told .basicAuthPassword v = (Lenient.text v).value := by
  cases v <;> rfl

theorem describe_secret (h : Alike v w) (hs : s ∈ textSecrets) (d : Dict Value) :
    (ofObject (d.insert s.name v)).resolve.describe = (ofObject (d.insert s.name w)).resolve.describe := by
  have hagree := agreeBut_insert d s v w
  have hv := get_ofObject_same d s v
  have hw := get_ofObject_same d s w
  generalize ofObject (d.insert s.name v) = a at hagree hv
  generalize ofObject (d.insert s.name w) = b at hagree hw
  have husername : a.basicAuthUsername = b.basicAuthUsername := by
    rcases List.mem_pair.1 hs with rfl | rfl <;> exact hagree .basicAuthUsername (by decide)
  have hcredentials : a.resolve.credentials.describe = b.resolve.credentials.describe := by
    unfold resolve
    rw [husername]
    rcases List.mem_pair.1 hs with rfl | rfl
    · have hpassword : a.basicAuthPassword = b.basicAuthPassword := hagree .basicAuthPassword (by decide)
      have htoken : a.authToken = (Lenient.text v).value := hv.trans (told_authToken v)
      have htoken' : b.authToken = (Lenient.text w).value := hw.trans (told_authToken w)
      rw [hpassword, htoken, htoken']
      exact describe_ofParts h.isSome_text rfl
    · have htoken : a.authToken = b.authToken := hagree .authToken (by decide)
      have hpassword : a.basicAuthPassword = (Lenient.text v).value := hv.trans (told_basicAuthPassword v)
      have hpassword' : b.basicAuthPassword = (Lenient.text w).value := hw.trans (told_basicAuthPassword w)
      rw [htoken, hpassword, hpassword']
      exact describe_ofParts rfl h.isSome_text
  refine (hagree.mono ?_).describe hcredentials
  rcases List.mem_pair.1 hs with rfl | rfl <;> decide

end Layer

namespace Headers

variable {es before after : List (String × Value)} {v w : Value} {name : String}

theorem texts_append (as bs : List (String × Value)) :
    texts (as ++ bs) = (texts as).bind fun ps => (texts bs).map (ps ++ ·) := by
  induction as with
  | nil =>
    change texts bs = (texts bs).map ([] ++ ·)
    cases texts bs <;> rfl
  | cons e as ih =>
    obtain ⟨name, v⟩ := e
    cases v with
    | string s =>
      change (texts (as ++ bs)).map _ = ((texts as).map _).bind _
      rw [ih]
      cases texts as with
      | error e => rfl
      | ok ps => cases texts bs <;> rfl
    | _ => rfl

/-- If some value is no text, the error does not depend on the texts, and otherwise each text is a header. -/
theorem texts_between (h : Alike v w) (before after : List (String × Value)) (name : String) :
    (∃ e, texts (before ++ (name, v) :: after) = .error e ∧ texts (before ++ (name, w) :: after) = .error e) ∨
      ∃ s t ps qs, v = .string s ∧ w = .string t ∧
        texts (before ++ (name, v) :: after) = .ok (ps ++ (name, s) :: qs) ∧
        texts (before ++ (name, w) :: after) = .ok (ps ++ (name, t) :: qs) := by
  rw [texts_append, texts_append]
  cases texts before with
  | error e => exact .inl ⟨e, rfl, rfl⟩
  | ok ps =>
    rcases h.cases with ⟨s, t, rfl, rfl, -⟩ | ⟨rfl, rfl⟩ | ⟨hstring, hstring', -⟩
    · have hcons : ∀ s, texts ((name, .string s) :: after) = (texts after).map ((name, s) :: ·) :=
        fun _ => rfl
      rw [hcons, hcons]
      cases texts after with
      | error e => exact .inl ⟨e, rfl, rfl⟩
      | ok qs => exact .inr ⟨s, t, ps, qs, rfl, rfl, rfl, rfl⟩
    · exact .inl ⟨_, rfl, rfl⟩
    · rw [texts_cons_of_not hstring, texts_cons_of_not hstring']
      exact .inl ⟨_, rfl, rfl⟩

theorem exists_not_text {e : HeadersError} (h : texts es = .error e) : ∃ x ∈ es, ∀ s, x.2 ≠ .string s := by
  induction es generalizing e with
  | nil => cases h
  | cons x es ih =>
    obtain ⟨name, v⟩ := x
    by_cases hv : ∃ s, v = .string s
    · obtain ⟨s, rfl⟩ := hv
      cases hrest : texts es with
      | error e' =>
        obtain ⟨x, hx, hnot⟩ := ih hrest
        exact ⟨x, List.mem_cons_of_mem _ hx, hnot⟩
      | ok ps =>
        change (texts es).map _ = _ at h
        rw [hrest] at h
        cases h
    · exact ⟨(name, v), List.mem_cons_self, not_exists.1 hv⟩

theorem headers_object (d : Dict Value) (h : Within depthLimit (.object d.entries)) :
    Lenient.headers (.object d.entries) =
      match texts d.entries with
      | .ok ps => pure (some (.ofList ps))
      | .error e => .saying none .error ("Failed to parse http headers: " ++ e.message ++ ", ignoring") := by
  change Lenient.headersOfText _ = _
  unfold Lenient.headersOfText
  rw [ofText_object d h]
  cases texts d.entries <;> rfl

theorem entries_ofList_texts {d : Dict Value} {ps : List (String × String)} (h : texts d.entries = .ok ps) :
    (Dict.ofList ps).entries = ps := by
  have hincreasing := d.increasing
  rw [texts_eq_ok h] at hincreasing
  exact Dict.entries_ofList
    ((List.pairwise_map (f := fun e : String × String => (e.1, Value.string e.2))).1 hincreasing)

/-- Headers with another value of the same kind: they cannot be used, for the same reason, or they differ
in this value. -/
theorem headers_insert (h : Alike v w) (hs : Dict Value) (name : String)
    (hv : Within depthLimit (.object (hs.insert name v).entries))
    (hw : Within depthLimit (.object (hs.insert name w).entries)) :
    ((∃ e ∈ (hs.insert name v).entries, ∀ s, e.2 ≠ .string s) ∧
      Lenient.headers (.object (hs.insert name v).entries) =
        Lenient.headers (.object (hs.insert name w).entries)) ∨
    ((∀ e ∈ (hs.insert name v).entries, ∃ s, e.2 = .string s) ∧
      ∃ (s t : String) (ps qs : List (String × String)) (a b : Dict String), v = .string s ∧ w = .string t ∧
        a.entries = ps ++ (name, s) :: qs ∧ b.entries = ps ++ (name, t) :: qs ∧
        Lenient.headers (.object (hs.insert name v).entries) = pure (some a) ∧
        Lenient.headers (.object (hs.insert name w).entries) = pure (some b)) := by
  obtain ⟨before, after, hsplit⟩ := insertEntry_split name hs.entries
  have hleft : (hs.insert name v).entries = before ++ (name, v) :: after := hsplit v
  have hright : (hs.insert name w).entries = before ++ (name, w) :: after := hsplit w
  have hbetween := texts_between h before after name
  rw [← hleft, ← hright] at hbetween
  rw [headers_object _ hv, headers_object _ hw]
  rcases hbetween with ⟨e, hv, hw⟩ | ⟨s, t, ps, qs, hs, ht, hv, hw⟩
  · exact .inl ⟨exists_not_text hv, by rw [hv, hw]⟩
  · refine .inr ⟨fun e he => ?_, s, t, ps, qs, _, _, hs, ht, entries_ofList_texts hv, entries_ofList_texts hw,
      by rw [hv], by rw [hw]⟩
    rw [texts_eq_ok hv] at he
    obtain ⟨x, -, rfl⟩ := List.mem_map.1 he
    exact ⟨x.2, rfl⟩

end Headers

namespace Settings

theorem intercalate_between (sep : String) (before after : List String) :
    ∃ p q, ∀ x, sep.intercalate (before ++ x :: after) = p ++ (x ++ q) := by
  obtain ⟨q, hq⟩ : ∃ q, ∀ x, sep.intercalate (x :: after) = x ++ q := by
    cases after with
    | nil => exact ⟨"", fun x => by rw [String.intercalate_singleton, String.append_empty]⟩
    | cons y ys =>
      exact ⟨sep ++ sep.intercalate (y :: ys), fun x => by
        rw [String.intercalate_cons_cons, String.append_assoc]⟩
  cases before with
  | nil => exact ⟨"", q, fun x => by rw [List.nil_append, hq, String.empty_append]⟩
  | cons y ys =>
    refine ⟨sep.intercalate (y :: ys) ++ sep, q, fun x => ?_⟩
    rw [String.intercalate_append_of_ne_nil (List.cons_ne_nil _ _) (List.cons_ne_nil _ _), hq]

theorem describeTexts_eq_iff {a b : Dict String} {ps qs : List (String × String)} {name s t : String}
    (ha : a.entries = ps ++ (name, s) :: qs) (hb : b.entries = ps ++ (name, t) :: qs) :
    describeTexts a = describeTexts b ↔ s = t := by
  obtain ⟨p, q, hjoined⟩ := intercalate_between ", "
    (ps.map fun e => Text.quoted e.1 ++ ": " ++ Text.quoted e.2)
    (qs.map fun e => Text.quoted e.1 ++ ": " ++ Text.quoted e.2)
  unfold describeTexts
  rw [ha, hb, List.map_append, List.map_cons, List.map_append, List.map_cons, hjoined, hjoined]
  simp only [String.append_left_inj, String.append_right_inj, Text.quoted_inj]

theorem describe_eq_iff {a b : Settings} (hvisible : a.visible = b.visible)
    (hcredentials : a.credentials.describe = b.credentials.describe) :
    a.describe = b.describe ↔ describeTexts a.httpHeaders = describeTexts b.httpHeaders := by
  unfold describe
  rw [described_eq a, described_eq b, hvisible, hcredentials]
  have hlength : 14 < (b.visible.described.set 2 ("credentials", b.credentials.describe)).length := by
    rw [List.length_set]
    exact (by decide : 14 < 16)
  generalize b.visible.described.set 2 ("credentials", b.credentials.describe) = parts at hlength
  obtain ⟨p, q, hjoined⟩ := intercalate_between ", " ((parts.take 14).map fun e => e.1 ++ ": " ++ e.2)
    ((parts.drop 15).map fun e => e.1 ++ ": " ++ e.2)
  rw [List.set_eq_take_append_cons_drop, if_pos hlength, List.set_eq_take_append_cons_drop, if_pos hlength,
    List.map_append, List.map_cons, List.map_append, List.map_cons, hjoined, hjoined]
  simp only [String.append_left_inj, String.append_right_inj]

end Settings

namespace Layer

variable {a b : Layer}

/-- The description of two layers that differ in their headers depends on these. -/
theorem AgreeBut.describe_iff (h : AgreeBut [.httpHeaders] a b) : a.resolve.describe = b.resolve.describe ↔
    Settings.describeTexts a.resolve.httpHeaders = Settings.describeTexts b.resolve.httpHeaders := by
  have htoken : a.authToken = b.authToken := h .authToken (by decide)
  have husername : a.basicAuthUsername = b.basicAuthUsername := h .basicAuthUsername (by decide)
  have hpassword : a.basicAuthPassword = b.basicAuthPassword := h .basicAuthPassword (by decide)
  refine Settings.describe_eq_iff (h.mono (by decide)).visible ?_
  unfold resolve
  rw [htoken, husername, hpassword]

theorem toldOf_headers (es : List (String × Value)) :
    toldOf .httpHeaders (.object es) = (Lenient.headers (.object es)).events := List.append_nil _

theorem headers_ofObject (d : Dict Value) (es : List (String × Value)) :
    (ofObject (d.insert Setting.httpHeaders.name (.object es))).resolve.httpHeaders =
      (Lenient.headers (.object es)).value.getD .empty :=
  congrArg (Option.getD · Dict.empty) (get_ofObject_same d .httpHeaders (.object es))

end Layer

namespace Settings

/-- Settings are read from an object that holds a secret, and then from one in which it has another value of
the same kind. A token or password is told exactly if it is no text and not null, and then by its text; the
description of the settings does not depend on it. A value among the headers is not told; the description
depends on it exactly if all headers are texts. -/
theorem secrets_revealed (d : Dict Value) {v w : Value} (h : Alike v w) :
    (∀ s ∈ [Setting.authToken, Setting.basicAuthPassword], ∃ a b : Settings,
      (ofObject (d.insert s.name v)).value = .ok a ∧ (ofObject (d.insert s.name w)).value = .ok b ∧
      a.describe = b.describe ∧
      ((ofObject (d.insert s.name v)).events = (ofObject (d.insert s.name w)).events ↔
        v = .null ∨ (∃ t, v = .string t) ∨ v.text = w.text)) ∧
    (∀ (hs : Dict Value) (name : String), Within depthLimit (.object (hs.insert name v).entries) →
      Within depthLimit (.object (hs.insert name w).entries) → ∃ a b : Settings,
      (ofObject (d.insert Setting.httpHeaders.name (.object (hs.insert name v).entries))).value = .ok a ∧
      (ofObject (d.insert Setting.httpHeaders.name (.object (hs.insert name w).entries))).value = .ok b ∧
      (ofObject (d.insert Setting.httpHeaders.name (.object (hs.insert name v).entries))).events =
        (ofObject (d.insert Setting.httpHeaders.name (.object (hs.insert name w).entries))).events ∧
      (a.describe = b.describe ↔ v = w ∨ ∃ e ∈ (hs.insert name v).entries, ∀ t, e.2 ≠ .string t)) := by
  refine ⟨fun s hs => ?_, fun hs name hv hw => ?_⟩
  · refine ⟨_, _, value_ofObject _, value_ofObject _, Layer.describe_secret h hs d, ?_⟩
    have hrate : s ≠ .sampleRate := by
      rintro rfl
      exact absurd hs (by decide)
    rw [events_insert_iff d hrate, Layer.toldOf_secret hs, Layer.toldOf_secret hs]
    exact Lenient.events_text_iff h
  · refine ⟨_, _, value_ofObject _, value_ofObject _, (events_insert_iff d (by decide) _ _).2 ?_, ?_⟩
    · rw [Layer.toldOf_headers, Layer.toldOf_headers]
      rcases Headers.headers_insert h hs name hv hw with
        ⟨-, hsame⟩ | ⟨-, _, _, _, _, _, _, -, -, -, -, hx, hy⟩
      · rw [hsame]
      · rw [hx, hy]
        rfl
    · rw [(Layer.agreeBut_insert d .httpHeaders _ _).describe_iff, Layer.headers_ofObject,
        Layer.headers_ofObject]
      rcases Headers.headers_insert h hs name hv hw with
        ⟨hnot, hsame⟩ | ⟨hall, s, t, ps, qs, x, y, rfl, rfl, hx, hy, hv, hw⟩
      · rw [hsame]
        exact ⟨fun _ => .inr hnot, fun _ => rfl⟩
      · rw [hv, hw]
        refine (describeTexts_eq_iff hx hy).trans ⟨fun hst => .inl (congrArg Value.string hst), ?_⟩
        rintro (hst | ⟨e, he, hnot⟩)
        · exact Value.string.inj hst
        · obtain ⟨u, hu⟩ := hall e he
          exact absurd hu (hnot u)

theorem secrets_revealed_beside_name :
    (ofObject (.ofList [("application_name", .string "x"), ("auth_token", .array [.string "a"])])).events ≠
      (ofObject (.ofList [("application_name", .string "x"), ("auth_token", .array [.string "b"])])).events ∧
    ∃ a b : Settings,
      (ofObject (.ofList [("http_headers", .object [("Authorization", .string "a")])])).value = .ok a ∧
      (ofObject (.ofList [("http_headers", .object [("Authorization", .string "b")])])).value = .ok b ∧
      a.describe ≠ b.describe := by
  have harrays : Alike (.array [.string "a"]) (.array [.string "b"]) := ⟨rfl, nofun, nofun⟩
  have htexts : Alike (.string "a") (.string "b") :=
    ⟨rfl, fun s hs => Value.string.inj hs ▸ rfl, fun s hs => Value.string.inj hs ▸ rfl⟩
  have hwithin : ∀ s : String,
      Within depthLimit (.object (Dict.empty.insert "Authorization" (Value.string s)).entries) := by
    refine fun s => .object (by decide) fun e he => ?_
    obtain rfl := List.mem_singleton.1 he
    exact .string s
  constructor
  · obtain ⟨a, b, -, -, -, hevents⟩ :=
      (secrets_revealed (.ofList [("application_name", .string "x")]) harrays).1 .authToken (by decide)
    refine fun h => ?_
    rcases hevents.1 h with hnull | ⟨t, ht⟩ | htext
    · cases hnull
    · cases ht
    · exact absurd htext (by decide)
  · obtain ⟨a, b, ha, hb, -, hdescribe⟩ :=
      (secrets_revealed .empty htexts).2 .empty "Authorization" (hwithin _) (hwithin _)
    refine ⟨a, b, ha, hb, fun h => ?_⟩
    rcases hdescribe.1 h with heq | ⟨e, he, hnot⟩
    · exact absurd (Value.string.inj heq) (by decide)
    · obtain rfl := List.mem_singleton.1 he
      exact hnot _ rfl

/-- Two numbers that stand for a token are told apart by what is told, and two headers by the description. -/
theorem number_and_header_revealed :
    Alike (.number (.ofUInt32 1)) (.number (.ofUInt32 2)) ∧
    (ofObject (.ofList [("auth_token", .number (.ofUInt32 1))])).events ≠
      (ofObject (.ofList [("auth_token", .number (.ofUInt32 2))])).events ∧
    Alike (.string "a") (.string "b") ∧
    (ofObject (.ofList [("http_headers", .object [("Cookie", .string "a")])])).value.map describe ≠
      (ofObject (.ofList [("http_headers", .object [("Cookie", .string "b")])])).value.map describe :=
  ⟨⟨rfl, nofun, nofun⟩, by decide +kernel,
    ⟨rfl, fun s hs => Value.string.inj hs ▸ rfl, fun s hs => Value.string.inj hs ▸ rfl⟩, by decide +kernel⟩

end Settings

end ProfilingAgent

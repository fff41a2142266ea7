import ProfilingAgent.Proofs.ByteOrder
import ProfilingAgent.Proofs.RevealedSecrets

set_option autoImplicit false

namespace ProfilingAgent

open Json Json.Reader Log

namespace Json

namespace Reader

theorem Within.reads_kind {depth : Nat} {v : Value} (h : Within depth v) :
    ∃ u, ReadsAs depth v u ∧ u.kind = v.kind := by
  cases h with
  | null => exact ⟨.null, readsAs_null _, rfl⟩
  | bool b => exact ⟨.bool b, readsAs_bool _ b, rfl⟩
  | number n =>
    obtain ⟨k, hk⟩ := readsAs_anyNumber _ n
    exact ⟨.number k, hk, rfl⟩
  | string s => exact ⟨.string s, readsAs_string _ s, rfl⟩
  | array hdepth hitems =>
    obtain ⟨us, hus⟩ := exists_forall₂ fun v hv => (hitems v hv).readsAs
    exact ⟨.array us, readsAs_array hdepth (hus.imp fun _ _ => And.left), rfl⟩
  | object hdepth hentries =>
    obtain ⟨fs, hfs⟩ := exists_reread fun e he => (hentries e he).readsAs
    exact ⟨.object fs, readsAs_object hdepth (hfs.imp fun _ _ => And.left), rfl⟩

theorem ReadsAs.written {v u : Value} (h : ReadsAs depthLimit v u) : Value.written v.text = .ok u := by
  obtain ⟨q, hgives⟩ := h.gives_writtenValue
  exact run_eq_ok_iff.2 ⟨⟨[], q⟩, hgives, rfl⟩

end Reader

namespace Value

theorem kind_normal (v : Value) : v.normal.kind = v.kind := by
  cases v <;> simp [normal, kind]

theorem kind_eq_object_iff {v : Value} : v.kind = "an object" ↔ ∃ es, v = .object es := by
  cases v <;> simp [kind]

end Value
end Json

namespace Headers

variable {es : List (String × Value)} {e : HeadersError}

/-- The first key, in the order of the bytes, whose value is no text. -/
structure FirstOther (d : Dict Value) (key : String) : Prop where
  other : ∃ v, d.get? key = some v ∧ ∀ t, v ≠ .string t
  before : ∀ k v, d.get? k = some v → Text.Utf8.encode k < Text.Utf8.encode key → ∃ t, v = .string t

theorem texts_eq_error_iff : texts es = .error e ↔ ∃ key v before after, e = .notText key ∧
    es = before ++ (key, v) :: after ∧ (∀ t, v ≠ .string t) ∧ ∀ x ∈ before, ∃ t, x.2 = .string t := by
  constructor
  · intro h
    induction es generalizing e with
    | nil => cases h
    | cons x es ih =>
      obtain ⟨name, v⟩ := x
      by_cases hv : ∃ s, v = .string s
      · obtain ⟨s, rfl⟩ := hv
        change (texts es).map _ = _ at h
        cases hrest : texts es with
        | ok ps =>
          rw [hrest] at h
          cases h
        | error e' =>
          rw [hrest] at h
          obtain rfl := Except.error.inj h
          obtain ⟨key, v, before, after, rfl, rfl, hother, hbefore⟩ := ih hrest
          refine ⟨key, v, (name, .string s) :: before, after, rfl, rfl, hother, fun x hx => ?_⟩
          rcases List.mem_cons.1 hx with rfl | hx
          · exact ⟨s, rfl⟩
          · exact hbefore x hx
      · rw [not_exists] at hv
        rw [texts_cons_of_not hv] at h
        obtain rfl := Except.error.inj h
        exact ⟨name, v, [], es, rfl, rfl, hv, nofun⟩
  · rintro ⟨key, v, before, after, rfl, rfl, hother, hbefore⟩
    induction before with
    | nil => exact texts_cons_of_not hother after
    | cons x before ih =>
      obtain ⟨name, u⟩ := x
      obtain ⟨t, ht⟩ := hbefore _ List.mem_cons_self
      subst ht
      exact congrArg (Except.map ((name, t) :: ·)) (ih fun x hx => hbefore x (List.mem_cons_of_mem _ hx))

theorem mem_before_iff {d : Dict Value} {before after : List (String × Value)} {key k : String} {v u : Value}
    (h : d.entries = before ++ (key, v) :: after) :
    (k, u) ∈ before ↔ d.get? k = some u ∧ Text.Utf8.encode k < Text.Utf8.encode key := by
  have hincreasing := d.increasing
  rw [h] at hincreasing
  obtain ⟨-, hafter, hbefore⟩ := List.pairwise_append.1 hincreasing
  rw [Dict.get?_eq_some_iff, h, Text.Utf8.encode_lt_iff]
  constructor
  · intro hmem
    exact ⟨List.mem_append_left _ hmem, hbefore _ hmem _ List.mem_cons_self⟩
  · rintro ⟨hmem, hlt⟩
    rcases List.mem_append.1 hmem with hmem | hmem
    · exact hmem
    · rcases List.mem_cons.1 hmem with heq | hmem
      · obtain ⟨rfl, -⟩ := Prod.mk.inj heq
        exact absurd hlt (String.lt_irrefl _)
      · exact absurd hlt (String.lt_asymm ((List.pairwise_cons.1 hafter).1 _ hmem))

theorem texts_entries_eq_error_iff {d : Dict Value} :
    texts d.entries = .error e ↔ ∃ key, e = .notText key ∧ FirstOther d key := by
  rw [texts_eq_error_iff]
  constructor
  · rintro ⟨key, v, before, after, rfl, hsplit, hother, hbefore⟩
    have hmem : (key, v) ∈ d.entries := hsplit ▸ List.mem_append_right _ List.mem_cons_self
    refine ⟨key, rfl, ⟨v, (Dict.get?_eq_some_iff d).2 hmem, hother⟩, fun k u hu hlt => ?_⟩
    exact hbefore _ ((mem_before_iff hsplit).2 ⟨hu, hlt⟩)
  · rintro ⟨key, rfl, ⟨v, hv, hother⟩, hbefore⟩
    obtain ⟨before, after, hsplit⟩ := List.append_of_mem ((Dict.get?_eq_some_iff d).1 hv)
    refine ⟨key, v, before, after, rfl, hsplit, hother, fun x hx => ?_⟩
    obtain ⟨hx, hlt⟩ := (mem_before_iff hsplit).1 hx
    exact hbefore x.1 x.2 hx hlt

theorem texts_entries_eq_ok_iff {d : Dict Value} {h : Dict String} :
    (texts d.entries).map Dict.ofList = .ok h ↔ Value.object d.entries = .ofTexts h := by
  constructor
  · intro hok
    cases htexts : texts d.entries with
    | error e =>
      rw [htexts] at hok
      cases hok
    | ok ps =>
      rw [htexts] at hok
      obtain rfl := Except.ok.inj hok
      unfold Value.ofTexts
      rw [entries_ofList_texts htexts, texts_eq_ok htexts]
  · intro hsame
    rw [Value.object.inj hsame, texts_map]
    exact congrArg Except.ok (Dict.ofList_of_perm (List.Perm.refl h.entries))

theorem exists_error_iff {d : Dict Value} : (∃ e, (texts d.entries).map Dict.ofList = .error e) ↔
    ∃ key v, d.get? key = some v ∧ ∀ t, v ≠ .string t := by
  constructor
  · rintro ⟨e, he⟩
    cases htexts : texts d.entries with
    | error e' =>
      obtain ⟨key, -, ⟨v, hv, hother⟩, -⟩ := texts_entries_eq_error_iff.1 htexts
      exact ⟨key, v, hv, hother⟩
    | ok ps =>
      rw [htexts] at he
      cases he
  · rintro ⟨key, v, hv, hother⟩
    cases htexts : texts d.entries with
    | error e => exact ⟨e, rfl⟩
    | ok ps =>
      have hmem := (Dict.get?_eq_some_iff d).1 hv
      rw [texts_eq_ok htexts] at hmem
      obtain ⟨e, -, heq⟩ := List.mem_map.1 hmem
      exact absurd (Prod.mk.inj heq).2.symm (hother e.2)

variable {d : Dict Value} {s : String}

theorem ofText_of_texts {h : Dict String} {ps : List (String × String)} (hperm : ps.Perm h.entries)
    (hwritten : Value.written s = .ok (Tag.Structured.textsObject ps)) : ofText s = .ok h := by
  have hincreasing : KeysIncrease (h.entries.map fun e => (e.1, Value.string e.2)) :=
    List.pairwise_map.2 h.increasing
  have hdict : Dict.ofList (ps.map fun e => (e.1, Value.string e.2)) = ⟨_, hincreasing⟩ :=
    Dict.ofList_of_perm (hperm.map _)
  rw [ofText_of_written hwritten, normalEntries_strings, hdict]
  exact texts_entries_eq_ok_iff.2 rfl

theorem ofText_blank (h : Text.allBlank s = true) : ofText s = .ok .empty := if_pos h

theorem ofText_of_other {v : Value} (h : Within depthLimit v) (hother : ∀ es, v ≠ .object es) :
    ofText v.text = .error (.notAnObject v.kind) := by
  obtain ⟨u, hread, hkind⟩ := h.reads_kind
  have hsame : u.normal.kind = v.kind := (Value.kind_normal u).trans hkind
  have hnot : ∀ es, u.normal ≠ .object es := by
    intro es hes
    obtain ⟨es', hes'⟩ := Value.kind_eq_object_iff.1 (hsame.symm.trans (Value.kind_eq_object_iff.2 ⟨es, hes⟩))
    exact hother es' hes'
  unfold ofText
  rw [Tag.Structured.allBlank_of_written hread.written, Value.ofText_of_written hread.written, ← hsame]
  cases hnormal : u.normal with
  | object es => exact absurd hnormal (hnot es)
  | _ => rfl

def ofLayer (around : Dict Value) (v : Value) : Except Fault (Option (Dict String)) :=
  (Layer.ofValue (.object (around.insert Setting.httpHeaders.name v).entries)).value.map (·.httpHeaders)

theorem ofLayer_eq (around : Dict Value) (v : Value) : ofLayer around v = .ok (Layer.told .httpHeaders v) :=
  congrArg Except.ok (Layer.get_ofObject_same around .httpHeaders v)

theorem told_text (s : String) : Layer.told .httpHeaders (.string s) = (ofText s).toOption := by
  change (Lenient.headersOfText s).value = _
  unfold Lenient.headersOfText
  cases ofText s <;> rfl

theorem told_object (es : List (String × Value)) :
    Layer.told .httpHeaders (.object es) = (ofText (Value.object es).text).toOption := told_text _

/-- The headers of any dictionary of texts are read from its text, however it is written, and a blank text has
none. For any object whose brackets are not too deep it makes no difference whether a layer is given the
object or its text: it has headers exactly if all values are texts, and then these. If some value is not,
the first such key in the order of the bytes is the reason why the text is refused, and the text of any
other kind of value is refused by its kind. -/
theorem headers_of_either_form :
    (∀ (h : Dict String) (ps : List (String × String)), ps.Perm h.entries →
      ofText (Tag.Structured.textsObject ps).text = .ok h ∧
      ∀ s, Value.written s = .ok (Tag.Structured.textsObject ps) → ofText s = .ok h) ∧
    (∀ s, Text.allBlank s = true → ofText s = .ok .empty) ∧
    (∀ d : Dict Value, Within depthLimit (.object d.entries) →
      (∀ e, ofText (Value.object d.entries).text = .error e ↔ ∃ key, e = .notText key ∧ FirstOther d key) ∧
      ∀ around : Dict Value, ∃ given : Option (Dict String),
        ofLayer around (.object d.entries) = .ok given ∧
        ofLayer around (.string (Value.object d.entries).text) = .ok given ∧
        (∀ h, given = some h ↔ Value.object d.entries = .ofTexts h) ∧
        (given = none ↔ ∃ key v, d.get? key = some v ∧ ∀ t, v ≠ .string t)) ∧
    ∀ v, Within depthLimit v → (∀ es, v ≠ .object es) → ofText v.text = .error (.notAnObject v.kind) := by
  refine ⟨fun h ps hperm => ⟨?_, fun s => ofText_of_texts hperm⟩, fun s => ofText_blank, fun d hd => ⟨?_, ?_⟩,
    fun v => ofText_of_other⟩
  · exact ofText_of_texts hperm (Tag.Structured.written_textsObject ps)
  · intro e
    rw [ofText_object d hd, ← texts_entries_eq_error_iff]
    cases texts d.entries <;> simp [Except.map]
  · intro around
    refine ⟨_, ofLayer_eq around _, (ofLayer_eq around _).trans ?_, fun h => ?_, ?_⟩
    · rw [told_text, told_object]
    · rw [told_object, ofText_object d hd, ← texts_entries_eq_ok_iff]
      cases (texts d.entries).map Dict.ofList <;> simp [Except.toOption]
    · rw [told_object, ofText_object d hd, ← exists_error_iff]
      cases (texts d.entries).map Dict.ofList <;> simp [Except.toOption]

/-- An array and null are no texts. The array comes first and is the reason why there are no headers. -/
theorem headers_of_either_form_mixed : ∃ given : Option (Dict String),
    ofLayer .empty (.object [("a", .string "x"), ("b", .array [.bool true]), ("c", .null)]) = .ok given ∧
    given = none ∧
    ofText "\x7b\"a\":\"x\",\"b\":[true],\"c\":null\x7d" = .error (.notText "b") := by
  have hwithin : Within depthLimit (.object [("a", .string "x"), ("b", .array [.bool true]), ("c", .null)]) := by
    refine .object (by decide) fun e he => ?_
    simp only [List.mem_cons, List.not_mem_nil, or_false] at he
    rcases he with rfl | rfl | rfl
    · exact .string "x"
    · exact .array (by decide) fun v hv => List.mem_singleton.1 hv ▸ .bool true
    · exact .null
  obtain ⟨herror, hlayer⟩ := headers_of_either_form.2.2.1
    ⟨[("a", .string "x"), ("b", .array [.bool true]), ("c", .null)], by decide⟩ hwithin
  obtain ⟨given, hgiven, -, -, hnone⟩ := hlayer .empty
  refine ⟨given, hgiven, hnone.2 ⟨"b", _, rfl, nofun⟩, (herror _).2 ⟨"b", rfl, ⟨_, rfl, nofun⟩, ?_⟩⟩
  intro k v hv hlt
  have hmem := (Dict.get?_eq_some_iff _).1 hv
  simp only [List.mem_cons, List.not_mem_nil, or_false, Prod.mk.injEq] at hmem
  rw [Text.Utf8.encode_lt_iff] at hlt
  rcases hmem with ⟨rfl, rfl⟩ | ⟨rfl, rfl⟩ | ⟨rfl, rfl⟩
  · exact ⟨"x", rfl⟩
  · exact absurd hlt (by decide)
  · exact absurd hlt (by decide)

end Headers
end ProfilingAgent

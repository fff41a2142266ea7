import ProfilingAgent.Proofs.DelimitedText
import ProfilingAgent.Proofs.EnvironmentWords
import ProfilingAgent.Proofs.SettingBySetting
import ProfilingAgent.Settings.Sources

set_option autoImplicit false

namespace ProfilingAgent

open Json Log

namespace Environment

theorem lookup_eq_find? {α : Type} (key : String) (es : List (String × α)) :
    es.lookup key = (es.find? (·.1 == key)).map (·.2) := by
  induction es with
  | nil => rfl
  | cons e rest ih =>
    obtain ⟨k, v⟩ := e
    by_cases hk : k = key
    · subst hk
      simp
    · have hk' : (key == k) = false := by simpa using Ne.symm hk
      rw [List.lookup_cons, hk', List.find?_cons_of_neg (by simpa using hk)]
      exact ih

theorem onto_single (key : String) (upper : Typed) (d : Dict Typed) :
    (Typed.dict [(key, upper)]).onto (.dict d.entries) =
      .dict (d.insert key (match d.get? key with
        | some below => upper.onto below
        | none => upper)).entries := by
  rw [Typed.onto, Typed.ontoEntries, Typed.ontoEntries, lookup_eq_find?]
  rfl

theorem path?_ne_nil {name : List UInt8} {path : List String} (h : path? name = some path) :
    ∃ key rest, path = key :: rest := by
  obtain ⟨cs, -, h⟩ := Option.bind_eq_some_iff.1 h
  dsimp only at h
  split at h
  · cases h
  · obtain rfl := Option.some.inj h
    apply List.exists_cons_of_ne_nil
    rw [Ne, List.map_eq_nil_iff, Tag.Delimited.splitAt_eq_splitOn]
    exact List.splitOn_ne_nil _ _

/-- No variable says anything about a key. -/
def Silent (key : String) (vs : Variables) : Prop :=
  ∀ y ∈ vs, ∀ path, path? y.name = some path → path.head? ≠ some key

theorem typedFrom_cons {y : Variable} {path : List String} {u : Typed} (hpath : path? y.name = some path)
    (hvalue : Typed.ofText (Text.Utf8.decodeLossy y.value) = .ok u) (rest : Variables) (below : Typed) :
    typedFrom (y :: rest) below = typedFrom rest ((Typed.nested path u).onto below) := by
  rw [typedFrom, hpath]
  dsimp only
  rw [hvalue]
  rfl

theorem typedFrom_append (before after : Variables) (below : Typed) :
    typedFrom (before ++ after) below = typedFrom before below >>= typedFrom after := by
  induction before generalizing below with
  | nil => rfl
  | cons y rest ih =>
    rw [List.cons_append, typedFrom, typedFrom]
    split
    · exact ih below
    · cases Typed.ofText (Text.Utf8.decodeLossy y.value) with
      | error e => rfl
      | ok t => exact ih _

theorem typedFrom_silent {key : String} {vs : Variables} (hsilent : Silent key vs) {d : Dict Typed}
    {t : Typed} (h : typedFrom vs (.dict d.entries) = .ok t) :
    ∃ d' : Dict Typed, t = .dict d'.entries ∧ d'.get? key = d.get? key := by
  induction vs generalizing d with
  | nil => exact ⟨d, (Except.ok.inj h).symm, rfl⟩
  | cons y rest ih =>
    have hrest : Silent key rest := fun z hz => hsilent z (List.mem_cons_of_mem y hz)
    cases hpath : path? y.name with
    | none =>
      rw [typedFrom, hpath] at h
      exact ih hrest h
    | some path =>
      obtain ⟨k, path, rfl⟩ := path?_ne_nil hpath
      have hk : k ≠ key := fun heq => hsilent y List.mem_cons_self _ hpath (heq ▸ rfl)
      cases hvalue : Typed.ofText (Text.Utf8.decodeLossy y.value) with
      | error e =>
        rw [typedFrom, hpath] at h
        dsimp only at h
        rw [hvalue] at h
        cases h
      | ok u =>
        rw [typedFrom_cons hpath hvalue, Typed.nested, onto_single] at h
        obtain ⟨d', ht, hget⟩ := ih hrest h
        rw [Dict.get?_insert, if_neg hk] at hget
        exact ⟨d', ht, hget⟩

def Readable (y : Variable) : Prop :=
  path? y.name = none ∨ ∃ t, Typed.ofText (Text.Utf8.decodeLossy y.value) = .ok t

theorem typedFrom_ok_iff {vs : Variables} {below : Typed} :
    (∃ t, typedFrom vs below = .ok t) ↔ ∀ y ∈ vs, Readable y := by
  induction vs generalizing below with
  | nil => simp [typedFrom]
  | cons y rest ih =>
    rw [typedFrom, List.forall_mem_cons]
    unfold Readable at ih ⊢
    cases path? y.name with
    | none =>
      dsimp only
      rw [ih]
      simp
    | some path =>
      dsimp only
      cases Typed.ofText (Text.Utf8.decodeLossy y.value) with
      | error e => simp [bind, Except.bind]
      | ok u =>
        change (∃ t, typedFrom rest _ = .ok t) ↔ _
        rw [ih]
        simp

section One

variable {before after : Variables} {x : Variable} {key : String} {t : Typed}

/-- A variable that can be read does not stand in the way of the others. -/
theorem typed_ok_iff_others (hread : Typed.ofText (Text.Utf8.decodeLossy x.value) = .ok t) :
    (∃ u, typed (before ++ x :: after) = .ok u) ↔ ∃ u, typed (before ++ after) = .ok u := by
  have hx : Readable x := .inr ⟨t, hread⟩
  unfold typed
  rw [typedFrom_ok_iff, typedFrom_ok_iff, List.forall_mem_append, List.forall_mem_append,
    List.forall_mem_cons]
  simp only [hx, true_and]

theorem typed_says (hname : path? x.name = some [key])
    (hvalue : Typed.ofText (Text.Utf8.decodeLossy x.value) = .ok t) (halone : Silent key (before ++ after))
    {u : Typed} (h : typed (before ++ x :: after) = .ok u) :
    ∃ d : Dict Typed, u = .dict d.entries ∧ d.get? key = some t := by
  have hbefore : Silent key before := fun y hy => halone y (List.mem_append_left _ hy)
  have hafter : Silent key after := fun y hy => halone y (List.mem_append_right _ hy)
  unfold typed at h
  rw [typedFrom_append] at h
  cases hw : typedFrom before (.dict []) with
  | error e =>
    rw [hw] at h
    cases h
  | ok w =>
    obtain ⟨d, rfl, hget⟩ := typedFrom_silent (d := .empty) hbefore hw
    have hrest : typedFrom after ((Typed.dict [(key, t)]).onto (.dict d.entries)) = .ok u := by
      rw [hw] at h
      exact (typedFrom_cons hname hvalue after (.dict d.entries)).symm.trans h
    rw [onto_single, hget, Dict.get?_empty] at hrest
    obtain ⟨d', rfl, hget'⟩ := typedFrom_silent hafter hrest
    rw [Dict.get?_insert, if_pos rfl] at hget'
    exact ⟨d', rfl, hget'⟩

end One

theorem get_readEntries_other {es : List (String × Typed)} {l : Layer} {s : Setting}
    (h : s.name ∉ es.map Prod.fst) : (readEntries es l).value.get s = l.get s := by
  induction es generalizing l with
  | nil => rfl
  | cons e rest ih =>
    obtain ⟨key, u⟩ := e
    have hrest : s.name ∉ rest.map Prod.fst := fun hmem => h (List.mem_cons_of_mem _ hmem)
    unfold readEntries
    cases hname : Setting.ofName? key with
    | none => exact ih hrest
    | some r =>
      have hr : s ≠ r := by
        rintro rfl
        exact h (Setting.name_of_ofName? hname ▸ List.mem_cons_self)
      exact (ih hrest).trans (Layer.get_setting_other hr _ _ l)

theorem get_readEntries {es : List (String × Typed)} {l : Layer} {s : Setting} {t : Typed}
    (hnodup : (es.map Prod.fst).Nodup) (hmem : (s.name, t) ∈ es) :
    (readEntries es l).value.get s = (Lenient.setting s t.toValue (rate t) .empty).value.get s := by
  induction es generalizing l with
  | nil => cases hmem
  | cons e rest ih =>
    obtain ⟨hfirst, hrest⟩ := List.nodup_cons.1 hnodup
    unfold readEntries
    rcases List.mem_cons.1 hmem with rfl | hlater
    · dsimp only
      rw [Setting.ofName?_name]
      exact (get_readEntries_other hfirst).trans (Layer.get_setting_same s _ _ l)
    · obtain ⟨key, u⟩ := e
      cases hname : Setting.ofName? key with
      | none => exact ih hrest hlater
      | some r => exact ih hrest hlater

end Environment

namespace Setting

def isText : Setting → Bool
  | applicationName | serverAddress | authToken | basicAuthUsername | basicAuthPassword | tenantId => true
  | _ => false

def takesNumbers : Setting → Bool
  | applicationName | tenantId => true
  | _ => false

end Setting

def Layer.text? (l : Layer) : Setting → Option String
  | .applicationName => l.applicationName
  | .serverAddress => l.serverAddress
  | .authToken => l.authToken
  | .basicAuthUsername => l.basicAuthUsername
  | .basicAuthPassword => l.basicAuthPassword
  | .tenantId => l.tenantId
  | _ => none

theorem Layer.text?_eq_of_get {l m : Layer} {s : Setting} (h : l.get s = m.get s) : l.text? s = m.text? s := by
  cases s <;> first | exact h | rfl

namespace Environment

def Typed.text? : Typed → Option String
  | .text w => some w
  | _ => none

def Typed.numberText? (t : Typed) : Option String :=
  match t.toValue with
  | .number n => some n.text
  | _ => none

theorem text_toValue (t : Typed) : (Lenient.text t.toValue).value = t.text? := by
  cases t with
  | real x =>
    unfold Typed.toValue
    cases Number.ofBinary64? x <;> rfl
  | _ => rfl

theorem textOrNumber_toValue (t : Typed) :
    (Lenient.textOrNumber t.toValue).value = t.text?.or t.numberText? := by
  cases t with
  | real x =>
    unfold Typed.numberText? Typed.toValue
    cases Number.ofBinary64? x <;> rfl
  | _ => rfl

/-- What is left of the text of a variable in a setting that is a text. -/
def kept (s : Setting) (v : String) : Option String :=
  (typing v).text?.or (if s.takesNumbers then (typing v).numberText? else none)

theorem text?_setting {s : Setting} (hs : s.isText = true) (t : Typed) :
    (Lenient.setting s t.toValue (rate t) .empty).value.text? s =
      t.text?.or (if s.takesNumbers then t.numberText? else none) := by
  have hplain : (Lenient.text t.toValue).value = t.text?.or none := by
    rw [text_toValue, Option.or_none]
  cases s with
  | applicationName | tenantId => exact textOrNumber_toValue t
  | serverAddress | authToken | basicAuthUsername | basicAuthPassword => exact hplain
  | _ => cases hs

theorem eq_text_of_text? {t : Typed} {w : String} (h : t.text? = some w) : t = .text w := by
  cases t with
  | text u => exact congrArg Typed.text (Option.some.inj h)
  | _ => cases h

theorem typing_text {v w : String} (h : (typing v).text? = some w) : w = v := by
  unfold typing at h
  split at h
  · cases h
  · split at h
    · cases h
    · unfold word at h
      dsimp only at h
      rw [String.ofList_toList] at h
      split at h
      · cases h
      · split at h
        · cases h
        · split at h
          · cases h
          · exact (Option.some.inj h).symm

theorem kept_eq_iff (s : Setting) (v : String) : kept s v = some v ↔
    typing v = .text v ∨ s.takesNumbers = true ∧ (typing v).numberText? = some v := by
  unfold kept
  cases htext : (typing v).text? with
  | some w =>
    obtain rfl := typing_text htext
    simp [eq_text_of_text? htext]
  | none =>
    have hne : typing v ≠ .text v := by
      intro heq
      rw [heq] at htext
      cases htext
    cases htakes : s.takesNumbers <;> simp [hne]

theorem layer_eq_ok_iff {vs : Variables} {read : Noted Layer} :
    layer vs = .ok read ↔ ∃ t, typed vs = .ok t ∧ layerOf t = read := by
  unfold layer
  cases typed vs <;> simp [Except.map]

theorem exists_layer_ok_iff {vs : Variables} : (∃ read, layer vs = .ok read) ↔ ∃ t, typed vs = .ok t := by
  simp only [layer_eq_ok_iff]
  exact ⟨fun ⟨_, t, ht, _⟩ => ⟨t, ht⟩, fun ⟨t, ht⟩ => ⟨_, t, ht, rfl⟩⟩

/-- The only variable for a setting that is a text, with a text that has no blanks at its ends and no
character that the grammar has a use for. It never stands in the way of the other variables. The setting
gets this text exactly if the text stands for itself, or for a number that is written in the same way
where numbers are accepted. -/
theorem texts_from_environment {s : Setting} {v : String} {before after : Variables} {x : Variable}
    (hs : s.isText = true) (hv : Unadorned v) (hname : path? x.name = some [s.name])
    (hvalue : Text.Utf8.decodeLossy x.value = v) (halone : Silent s.name (before ++ after)) :
    ((∃ read, layer (before ++ x :: after) = .ok read) ↔ ∃ others, layer (before ++ after) = .ok others) ∧
    ∀ read, layer (before ++ x :: after) = .ok read → read.value.text? s = kept s v ∧
      (read.value.text? s = some v ↔
        typing v = .text v ∨ s.takesNumbers = true ∧ (typing v).numberText? = some v) ∧
      ∀ below, ∃ loaded, Source.environment.load (before ++ x :: after) below = .ok loaded ∧
        loaded.value = (read.value.onto below, true) := by
  have hread : Typed.ofText (Text.Utf8.decodeLossy x.value) = .ok (typing v) := hvalue ▸ hv.ofText_typing
  refine ⟨?_, fun read hok => ?_⟩
  · rw [exists_layer_ok_iff, exists_layer_ok_iff]
    exact typed_ok_iff_others hread
  · obtain ⟨u, htyped, hlayer⟩ := layer_eq_ok_iff.1 hok
    obtain ⟨d, rfl, hget⟩ := typed_says hname hread halone htyped
    have hmem := (Dict.get?_eq_some_iff d).1 hget
    have htext : read.value.text? s = kept s v := by
      rw [← hlayer]
      exact (Layer.text?_eq_of_get (get_readEntries d.increasing.nodup hmem)).trans (text?_setting hs _)
    refine ⟨htext, ?_, fun below => ?_⟩
    · rw [htext]
      exact kept_eq_iff s v
    · unfold Source.load
      rw [hok]
      exact ⟨_, rfl, rfl⟩

theorem texts_from_environment_token :
    ∃ read, layer [⟨Text.Utf8.encode "PYROSCOPE_ONCPU", Text.Utf8.encode "no"⟩,
        ⟨Text.Utf8.encode "pyroscope_auth_token", Text.Utf8.encode "12.5kg"⟩] = .ok read ∧
      read.value.authToken = some "12.5kg" := by
  have hcpu : path? (Text.Utf8.encode "PYROSCOPE_ONCPU") = some ["oncpu"] := by decide +kernel
  have hno : Typed.ofText (Text.Utf8.decodeLossy (Text.Utf8.encode "no")) = .ok (.text "no") := by
    rw [show Text.Utf8.decodeLossy (Text.Utf8.encode "no") = "no" by decide +kernel]
    rfl
  have hname : path? (Text.Utf8.encode "pyroscope_auth_token") = some ["auth_token"] := by decide +kernel
  have hvalue : Text.Utf8.decodeLossy (Text.Utf8.encode "12.5kg") = "12.5kg" := by decide +kernel
  have hothers : ∃ others,
      layer ([⟨Text.Utf8.encode "PYROSCOPE_ONCPU", Text.Utf8.encode "no"⟩] ++ []) = .ok others :=
    ⟨_, layer_eq_ok_iff.2 ⟨_, typedFrom_cons (y := ⟨_, Text.Utf8.encode "no"⟩) hcpu hno [] (.dict []), rfl⟩⟩
  have halone : Silent "auth_token"
      ([⟨Text.Utf8.encode "PYROSCOPE_ONCPU", Text.Utf8.encode "no"⟩] ++ []) := by
    intro y hy path hpath
    rw [List.append_nil, List.mem_singleton] at hy
    rw [hy, hcpu] at hpath
    rw [← Option.some.inj hpath]
    decide
  obtain ⟨hreads, hsets⟩ := @texts_from_environment .authToken "12.5kg"
    [⟨Text.Utf8.encode "PYROSCOPE_ONCPU", Text.Utf8.encode "no"⟩] []
    ⟨Text.Utf8.encode "pyroscope_auth_token", Text.Utf8.encode "12.5kg"⟩ rfl
    ⟨by decide, by decide, by simp⟩ hname hvalue halone
  obtain ⟨read, hread⟩ := hreads.2 hothers
  obtain ⟨-, hkept, -⟩ := hsets read hread
  have hword : typing "12.5kg" = .text "12.5kg" := by rfl
  exact ⟨read, hread, hkept.2 (.inl hword)⟩

/-- A token of digits alone is taken for a number and dropped. -/
theorem numeric_token_dropped : Unadorned "12345" ∧
    ∃ read, layer [⟨Text.Utf8.encode "PYROSCOPE_AUTH_TOKEN", Text.Utf8.encode "12345"⟩] = .ok read ∧
      read.value.authToken = none := by
  have hname : path? (Text.Utf8.encode "PYROSCOPE_AUTH_TOKEN") = some ["auth_token"] := by decide +kernel
  have hvalue : Text.Utf8.decodeLossy (Text.Utf8.encode "12345") = "12345" := by decide +kernel
  have hnumber : Typed.ofText "12345" = .ok (.natural 12345) := by rfl
  have hread : Typed.ofText (Text.Utf8.decodeLossy (Text.Utf8.encode "12345")) = .ok (.natural 12345) :=
    (congrArg Typed.ofText hvalue).trans hnumber
  have htyped := typedFrom_cons (y := ⟨_, Text.Utf8.encode "12345"⟩) hname hread [] (.dict [])
  exact ⟨⟨by decide, by decide, by simp⟩, _, layer_eq_ok_iff.2 ⟨_, htyped, rfl⟩, rfl⟩

end Environment
end ProfilingAgent

import ProfilingAgent.Proofs.EncodedTexts
import ProfilingAgent.Proofs.EnvironmentTexts

set_option autoImplicit false

namespace ProfilingAgent

open Json Log

namespace Environment

section Unbroken

variable {α β : Type} {p : Char → Prop} {cs : List Char}

/-- A part of the grammar leaves characters of a kind, or the text does not follow the grammar. Nothing is
cut through. -/
def Uncut (p : Char → Prop) : Except Refusal (α × List Char) → Prop
  | .ok (_, rest) => ∀ c ∈ rest, p c
  | .error .malformed => True
  | .error (.broken _) => False

theorem Uncut.bind {r : Except Refusal (α × List Char)} {f : α × List Char → Except Refusal (β × List Char)}
    (hr : Uncut p r) (hf : ∀ a rest, (∀ c ∈ rest, p c) → Uncut p (f (a, rest))) : Uncut p (r >>= f) := by
  match r, hr with
  | .ok (a, rest), hr => exact hf a rest hr
  | .error .malformed, _ => trivial

theorem forall_skipSpaces (h : ∀ c ∈ cs, p c) : ∀ c ∈ skipSpaces cs, p c :=
  fun c hc => h c ((List.dropWhile_sublist _).subset hc)

theorem forall_tail {c : Char} (h : ∀ d ∈ c :: cs, p d) : ∀ d ∈ cs, p d :=
  fun d hd => h d (List.mem_cons_of_mem _ hd)

theorem forall_untilQuote {inner rest : List Char} (hcut : untilQuote cs = some (inner, rest))
    (h : ∀ c ∈ cs, p c) : (∀ c ∈ inner, p c) ∧ ∀ c ∈ rest, p c := by
  fun_induction untilQuote cs generalizing inner with
  | case1 => cases hcut
  | case2 more =>
    obtain ⟨rfl, rfl⟩ := Prod.mk.inj (Option.some.inj hcut)
    exact ⟨nofun, forall_tail h⟩
  | case3 d more ih =>
    obtain ⟨⟨inner', rest'⟩, hmore, heq⟩ := Option.map_eq_some_iff.1 hcut
    obtain ⟨rfl, rfl⟩ := Prod.mk.inj heq
    obtain ⟨hinner, hrest⟩ := ih hmore (forall_tail (forall_tail h))
    exact ⟨List.forall_mem_cons.2 ⟨h _ List.mem_cons_self,
      List.forall_mem_cons.2 ⟨h d (by simp), hinner⟩⟩, hrest⟩
  | case4 d more _ _ ih =>
    obtain ⟨⟨inner', rest'⟩, hmore, heq⟩ := Option.map_eq_some_iff.1 hcut
    obtain ⟨rfl, rfl⟩ := Prod.mk.inj heq
    obtain ⟨hinner, hrest⟩ := ih hmore (forall_tail h)
    exact ⟨List.forall_mem_cons.2 ⟨h d List.mem_cons_self, hinner⟩, hrest⟩

def Sturdy (p : Char → Prop) : Prop :=
  ∀ inner : List Char, (∀ c ∈ inner, p c) → ∀ b, quotedText inner ≠ .error (.broken b)

variable (hp : Sturdy p)

include hp

theorem Sturdy.quotedPart (h : ∀ c ∈ cs, p c) : Uncut p (quotedPart cs) := by
  unfold Environment.quotedPart
  cases hcut : untilQuote cs with
  | none => trivial
  | some parts =>
    obtain ⟨inner, rest⟩ := parts
    obtain ⟨hinner, hrest⟩ := forall_untilQuote hcut h
    dsimp only
    cases hquoted : quotedText inner with
    | ok s => exact hrest
    | error refusal =>
      cases refusal with
      | malformed => trivial
      | broken b => exact hp inner hinner b hquoted

theorem Sturdy.keyPart (h : ∀ c ∈ cs, p c) : Uncut p (keyPart cs) := by
  unfold Environment.keyPart
  split
  · exact hp.quotedPart (forall_tail h)
  · dsimp only
    split
    · trivial
    · exact fun c hc => h c ((List.dropWhile_sublist _).subset hc)

theorem Sturdy.all (n : Nat) : (∀ cs, (∀ c ∈ cs, p c) → Uncut p (value n cs)) ∧
    (∀ cs, (∀ c ∈ cs, p c) → Uncut p (bare n cs)) ∧
    (∀ cs, (∀ c ∈ cs, p c) → Uncut p (entries n cs)) ∧
    ∀ cs, (∀ c ∈ cs, p c) → Uncut p (items n cs) := by
  induction n with
  | zero =>
    refine ⟨fun cs _ => ?_, fun cs _ => ?_, fun cs _ => ?_, fun cs _ => ?_⟩
    · unfold value; trivial
    · unfold bare; trivial
    · unfold entries; trivial
    · unfold items; trivial
  | succ n ih =>
    obtain ⟨hvalue, hbare, hentries, hitems⟩ := ih
    refine ⟨fun cs h => ?_, fun cs h => ?_, fun cs h => ?_, fun cs h => ?_⟩
    · unfold value
      exact (hbare _ (forall_skipSpaces h)).bind fun _ _ hrest => forall_skipSpaces hrest
    · unfold bare
      split
      · exact fun c hc => h c (by simp [hc])
      · exact fun c hc => h c (by simp [hc])
      · exact (hentries _ (forall_tail h)).bind fun _ _ hrest => hrest
      · exact (hitems _ (forall_tail h)).bind fun _ _ hrest => hrest
      · exact (hp.quotedPart (forall_tail h)).bind fun _ _ hrest => hrest
      · exact fun c hc => h c (by simp [hc])
      · trivial
      · exact fun c hc => h c ((List.dropWhile_sublist _).subset hc)
    · unfold entries
      split
      · exact forall_tail h
      · refine (hp.keyPart (forall_skipSpaces h)).bind fun key rest hrest => ?_
        dsimp only
        split
        · rename_i more hmore
          have hafter := forall_tail (hmore ▸ forall_skipSpaces hrest)
          refine (hvalue _ (forall_skipSpaces hafter)).bind fun v rest hrest => ?_
          dsimp only
          split
          · rename_i last hlast
            exact (hentries _ (forall_tail (hlast ▸ forall_skipSpaces hrest))).bind fun _ _ hrest => hrest
          · rename_i last hlast
            exact forall_tail (hlast ▸ forall_skipSpaces hrest)
          · trivial
        · trivial
    · unfold items
      split
      · exact forall_tail h
      · refine (hvalue _ h).bind fun v rest hrest => ?_
        dsimp only
        split
        · exact (hitems _ (forall_tail hrest)).bind fun _ _ hrest => hrest
        · exact forall_tail hrest
        · trivial

theorem Sturdy.ofText {s : String} (h : ∀ c ∈ s.toList, p c) : ∃ t, Typed.ofText s = .ok t := by
  have hvalue := (hp.all (3 * s.length + 3)).1 s.toList h
  unfold Typed.ofText
  split
  · exact ⟨_, rfl⟩
  · exact ⟨_, rfl⟩
  · exact ⟨_, rfl⟩
  · rename_i b heq
    rw [heq] at hvalue
    exact hvalue.elim

end Unbroken

theorem sturdy_without_escapes : Sturdy (· ≠ '\\') := by
  intro inner hinner b hbroken
  have hescapes : inner.dropWhile (· ≠ '\\') = [] :=
    List.dropWhile_eq_nil_iff.2 fun c hc => by simpa using hinner c hc
  unfold quotedText at hbroken
  simp only [hescapes, List.isEmpty_nil, if_true] at hbroken
  split at hbroken <;> cases hbroken

theorem splitBytes?_append {before : List Char} (h : ∀ c ∈ before, c.utf8Size = 1) (rest : List Char) :
    Text.splitBytes? before.length (before ++ rest) = some (before, rest) := by
  induction before with
  | nil => simp [Text.splitBytes?]
  | cons c before ih =>
    have hc := h c List.mem_cons_self
    rw [List.length_cons, List.cons_append, Text.splitBytes?, hc, if_pos (by omega), Nat.add_sub_cancel,
      ih fun d hd => h d (List.mem_cons_of_mem c hd)]
    rfl

theorem sturdy_ascii : Sturdy (·.utf8Size = 1) := by
  intro inner hinner b hbroken
  have hbefore : ∀ c ∈ inner.takeWhile (· ≠ '\\'), c.utf8Size = 1 :=
    fun c hc => hinner c ((List.takeWhile_sublist _).subset hc)
  have hsplit := splitBytes?_append hbefore (inner.dropWhile (· ≠ '\\'))
  rw [List.takeWhile_append_dropWhile] at hsplit
  unfold quotedText at hbroken
  simp only [hsplit] at hbroken
  split at hbroken
  · cases hbroken
  · split at hbroken
    · cases hbroken
    · split at hbroken <;> cases hbroken

/-- A value without escapes, or without characters beyond ASCII, does not break the reader. -/
theorem readable_of_plain {y : Variable}
    (h : (∀ c ∈ (Text.Utf8.decodeLossy y.value).toList, c ≠ '\\') ∨
      ∀ c ∈ (Text.Utf8.decodeLossy y.value).toList, c.utf8Size = 1) : Readable y :=
  .inr (h.elim sturdy_without_escapes.ofText sturdy_ascii.ofText)

/-- The variables whose names begin with a key, after the common beginning. -/
def about (key : String) (vs : Variables) : Variables :=
  vs.filter fun y => (path? y.name).bind List.head? = some key

theorem about_cons_of_path {key : String} {y : Variable} {path : List String} (hpath : path? y.name = some path)
    (rest : Variables) : about key (y :: rest) =
      if path.head? = some key then y :: about key rest else about key rest := by
  unfold about
  rw [List.filter_cons, hpath]
  simp

theorem about_cons_of_none {key : String} {y : Variable} (hpath : path? y.name = none) (rest : Variables) :
    about key (y :: rest) = about key rest := by
  unfold about
  rw [List.filter_cons, hpath]
  rfl

/-- What was said of a key before, and the variables about it, decide what is said of it in the end. -/
theorem typedFrom_about {key : String} {vs : Variables} {d e : Dict Typed} {t : Typed}
    (hget : d.get? key = e.get? key) (h : typedFrom vs (.dict d.entries) = .ok t) :
    ∃ d' e' : Dict Typed, t = .dict d'.entries ∧
      typedFrom (about key vs) (.dict e.entries) = .ok (.dict e'.entries) ∧ d'.get? key = e'.get? key := by
  induction vs generalizing d e with
  | nil => exact ⟨d, e, (Except.ok.inj h).symm, rfl, hget⟩
  | cons y rest ih =>
    cases hpath : path? y.name with
    | none =>
      rw [typedFrom, hpath] at h
      rw [about_cons_of_none hpath]
      exact ih hget h
    | some path =>
      obtain ⟨k, path, rfl⟩ := path?_ne_nil hpath
      cases hvalue : Typed.ofText (Text.Utf8.decodeLossy y.value) with
      | error b =>
        rw [typedFrom, hpath] at h
        dsimp only at h
        rw [hvalue] at h
        cases h
      | ok u =>
        rw [typedFrom_cons hpath hvalue, Typed.nested, onto_single] at h
        rw [about_cons_of_path hpath]
        by_cases hk : k = key
        · subst hk
          rw [List.head?_cons, if_pos rfl, typedFrom_cons hpath hvalue, Typed.nested, onto_single, ← hget]
          exact ih (by rw [Dict.get?_insert, Dict.get?_insert, if_pos rfl, if_pos rfl]) h
        · rw [List.head?_cons, if_neg fun heq => hk (Option.some.inj heq)]
          exact ih (by rw [Dict.get?_insert, if_neg hk, hget]) h

def meant (s : Setting) (said : Option Typed) : Option s.Value :=
  said.bind fun t => (Lenient.setting s t.toValue (rate t) .empty).value.get s

theorem get_layerOf (d : Dict Typed) (s : Setting) :
    (layerOf (.dict d.entries)).value.get s = meant s (d.get? s.name) := by
  cases hget : d.get? s.name with
  | some t => exact get_readEntries d.increasing.nodup ((Dict.get?_eq_some_iff d).1 hget)
  | none =>
    have hmissing : s.name ∉ d.entries.map Prod.fst := by
      rintro hmem
      obtain ⟨⟨k, t⟩, hmem, rfl⟩ := List.mem_map.1 hmem
      rw [(Dict.get?_eq_some_iff d).2 hmem] at hget
      cases hget
    exact (get_readEntries_other hmissing).trans (Layer.get_empty s)

theorem get_layer {vs : Variables} {read : Noted Layer} (h : layer vs = .ok read) (s : Setting) :
    ∃ e : Dict Typed, typed (about s.name vs) = .ok (.dict e.entries) ∧
      read.value.get s = meant s (e.get? s.name) := by
  obtain ⟨t, htyped, rfl⟩ := layer_eq_ok_iff.1 h
  obtain ⟨d, e, rfl, halone, hget⟩ := typedFrom_about (d := .empty) (e := .empty) rfl htyped
  exact ⟨e, halone, by rw [get_layerOf, hget]⟩

theorem get_layer_congr {vs ws : Variables} {read read' : Noted Layer} {s : Setting} (hvs : layer vs = .ok read)
    (hws : layer ws = .ok read') (h : about s.name vs = about s.name ws) :
    read.value.get s = read'.value.get s := by
  obtain ⟨e, he, hread⟩ := get_layer hvs s
  obtain ⟨e', he', hread'⟩ := get_layer hws s
  rw [h, he'] at he
  have hentries : e'.entries = e.entries := Typed.dict.inj (Except.ok.inj he)
  rw [hread, hread', Dict.ext hentries]

theorem get_layer_alone {y : Variable} {s : Setting} {t : Typed} (hpath : path? y.name = some [s.name])
    (hvalue : Typed.ofText (Text.Utf8.decodeLossy y.value) = .ok t) :
    ∃ read, layer [y] = .ok read ∧ read.value.get s = meant s (some t) := by
  have htyped : typed [y] = .ok (.dict (Dict.empty.insert s.name t).entries) := by
    unfold typed
    rw [typedFrom_cons hpath hvalue]
    rfl
  exact ⟨_, layer_eq_ok_iff.2 ⟨_, htyped, rfl⟩, by rw [get_layerOf, Dict.get?_insert, if_pos rfl]⟩

theorem get_layer_silent {vs : Variables} {read : Noted Layer} {s : Setting} (h : layer vs = .ok read)
    (hnone : about s.name vs = []) : read.value.get s = none := by
  obtain ⟨e, he, hread⟩ := get_layer h s
  rw [hnone] at he
  have hentries : [] = e.entries := Typed.dict.inj (Except.ok.inj he)
  have hempty : e = .empty := Dict.ext hentries.symm
  rw [hread, hempty]
  rfl

theorem load_eq_ok_iff {vs : Variables} {below : Layer} {loaded : Noted (Layer × Bool)} :
    Source.environment.load vs below = .ok loaded ↔ ∃ read, layer vs = .ok read ∧
      loaded = (do let l ← read; pure (l.onto below, true)) := by
  unfold Source.load
  cases layer vs with
  | error b => simp [Except.map]
  | ok read => simp [Except.map, eq_comm]

theorem exists_load_iff {vs : Variables} {below : Layer} :
    (∃ loaded, Source.environment.load vs below = .ok loaded) ↔ ∀ y ∈ vs, Readable y := by
  have hlayer : (∃ loaded, Source.environment.load vs below = .ok loaded) ↔ ∃ read, layer vs = .ok read := by
    simp only [load_eq_ok_iff]
    exact ⟨fun ⟨_, read, hread, _⟩ => ⟨read, hread⟩, fun ⟨read, hread⟩ => ⟨_, read, hread, rfl⟩⟩
  rw [hlayer, exists_layer_ok_iff]
  exact typedFrom_ok_iff

/-- The environment loads, and is never refused, exactly if no variable that counts breaks the reader; no
value does so without escapes or without characters beyond ASCII. Whatever loads says about a setting what
the variables about it say, and leaves it as it was below if there are none. -/
theorem variables_apart (vs : Variables) (below : Layer) :
    ((∃ loaded, Source.environment.load vs below = .ok loaded) ↔ ∀ y ∈ vs, Readable y) ∧
    (∀ y : Variable, (∀ c ∈ (Text.Utf8.decodeLossy y.value).toList, c ≠ '\\') ∨
      (∀ c ∈ (Text.Utf8.decodeLossy y.value).toList, c.utf8Size = 1) → Readable y) ∧
    ∀ loaded, Source.environment.load vs below = .ok loaded → loaded.value.2 = true ∧
      ∀ s : Setting, (about s.name vs = [] → loaded.value.1.get s = below.get s) ∧
        ∀ ws loaded', Source.environment.load ws below = .ok loaded' → about s.name vs = about s.name ws →
          loaded.value.1.get s = loaded'.value.1.get s := by
  refine ⟨exists_load_iff, fun _ => readable_of_plain, fun loaded hloaded => ?_⟩
  obtain ⟨read, hread, rfl⟩ := load_eq_ok_iff.1 hloaded
  refine ⟨rfl, fun s => ⟨fun hnone => ?_, fun ws loaded' hloaded' hsame => ?_⟩⟩
  · change (read.value.onto below).get s = below.get s
    rw [Layer.get_onto, get_layer_silent hread hnone, Option.none_or]
  · obtain ⟨read', hread', rfl⟩ := load_eq_ok_iff.1 hloaded'
    change (read.value.onto below).get s = (read'.value.onto below).get s
    rw [Layer.get_onto, Layer.get_onto, get_layer_congr hread hread' hsame]

theorem variables_apart_nested :
    ∃ loaded loaded', Source.environment.load
        [⟨Text.Utf8.encode "PYROSCOPE_ONCPU", Text.Utf8.encode "no"⟩,
          ⟨Text.Utf8.encode "PYROSCOPE_SAMPLE_RATE", Text.Utf8.encode "[1]"⟩] .empty = .ok loaded ∧
      Source.environment.load
        [⟨Text.Utf8.encode "pyroscope_sample_rate", Text.Utf8.encode "250"⟩,
          ⟨Text.Utf8.encode "PYROSCOPE_ONCPU", Text.Utf8.encode "no"⟩,
          ⟨Text.Utf8.encode "PYROSCOPE_SAMPLE_RATE.HZ", Text.Utf8.encode "é"⟩] .empty = .ok loaded' ∧
      loaded.value.1.onCpu = loaded'.value.1.onCpu ∧ loaded.value.1.tags = none := by
  have hreadable : ∀ {name : List UInt8} {s : String}, s.toList.all (· != '\\') = true →
      Readable ⟨name, Text.Utf8.encode s⟩ := fun {name s} hs => by
    refine (variables_apart [] .empty).2.1 _ (.inl fun c hc => ?_)
    rw [Text.Utf8.decodeLossy_encode] at hc
    simpa using List.all_eq_true.1 hs c hc
  have hloads : ∀ vs : Variables, (∀ y ∈ vs, Readable y) →
      ∃ loaded, Source.environment.load vs .empty = .ok loaded := fun vs => (variables_apart vs .empty).1.2
  obtain ⟨loaded, hloaded⟩ := hloads
    [⟨Text.Utf8.encode "PYROSCOPE_ONCPU", Text.Utf8.encode "no"⟩,
      ⟨Text.Utf8.encode "PYROSCOPE_SAMPLE_RATE", Text.Utf8.encode "[1]"⟩]
    (by simp only [List.forall_mem_cons]; exact ⟨hreadable rfl, hreadable rfl, nofun⟩)
  obtain ⟨loaded', hloaded'⟩ := hloads
    [⟨Text.Utf8.encode "pyroscope_sample_rate", Text.Utf8.encode "250"⟩,
      ⟨Text.Utf8.encode "PYROSCOPE_ONCPU", Text.Utf8.encode "no"⟩,
      ⟨Text.Utf8.encode "PYROSCOPE_SAMPLE_RATE.HZ", Text.Utf8.encode "é"⟩]
    (by simp only [List.forall_mem_cons]; exact ⟨hreadable rfl, hreadable rfl, hreadable rfl, nofun⟩)
  have hapart := ((variables_apart _ .empty).2.2 loaded hloaded).2
  exact ⟨loaded, loaded', hloaded, hloaded', (hapart .onCpu).2 _ loaded' hloaded' (by decide +kernel),
    (hapart .tags).1 (by decide +kernel)⟩

theorem ofText_cut :
    Typed.ofText (Text.Utf8.decodeLossy (Text.Utf8.encode "\"é\\n\"")) = .error ⟨"é\\n", 1⟩ := by
  have hcut : Text.splitBytes? 1 ['é', '\\', 'n'] = none := by
    rw [Text.splitBytes?]
    rfl
  have hquoted : quotedText ['é', '\\', 'n'] = .error (.broken ⟨"é\\n", 1⟩) := by
    simp [quotedText, isPlain, hcut]
  rw [Text.Utf8.decodeLossy_encode]
  simp [Typed.ofText, value, bare, skipSpaces, isSpace, quotedPart, untilQuote, hquoted, Functor.map,
    Except.map]

theorem not_readable_cut {name : List UInt8} {path : List String} (hpath : path? name = some path) :
    ¬Readable ⟨name, Text.Utf8.encode "\"é\\n\""⟩ := by
  rintro (hnone | ⟨t, ht⟩)
  · rw [hpath] at hnone
    cases hnone
  · rw [ofText_cut] at ht
    cases ht

/-- A variable that names no setting takes the name of the application with it, if its first escape stands
inside a character. -/
theorem name_lost_beside_other :
    about "application_name"
        [⟨Text.Utf8.encode "PYROSCOPE_APPLICATION_NAME", Text.Utf8.encode "x"⟩,
          ⟨Text.Utf8.encode "PYROSCOPE_OTHER", Text.Utf8.encode "\"é\\n\""⟩] =
      about "application_name" [⟨Text.Utf8.encode "PYROSCOPE_APPLICATION_NAME", Text.Utf8.encode "x"⟩] ∧
    (∃ loaded, Source.environment.load
        [⟨Text.Utf8.encode "PYROSCOPE_APPLICATION_NAME", Text.Utf8.encode "x"⟩] .empty = .ok loaded ∧
      loaded.value.1.applicationName = some "x") ∧
    ¬∃ loaded, Source.environment.load
      [⟨Text.Utf8.encode "PYROSCOPE_APPLICATION_NAME", Text.Utf8.encode "x"⟩,
        ⟨Text.Utf8.encode "PYROSCOPE_OTHER", Text.Utf8.encode "\"é\\n\""⟩] .empty = .ok loaded := by
  have hname : path? (Text.Utf8.encode "PYROSCOPE_APPLICATION_NAME") = some ["application_name"] := by
    decide +kernel
  have hother : path? (Text.Utf8.encode "PYROSCOPE_OTHER") = some ["other"] := by decide +kernel
  have hvalue : Typed.ofText (Text.Utf8.decodeLossy (Text.Utf8.encode "x")) = .ok (.text "x") := by
    rw [Text.Utf8.decodeLossy_encode]
    rfl
  refine ⟨?_, ?_, fun hloads => not_readable_cut hother (exists_load_iff.1 hloads _ (by simp))⟩
  · simp [about, hname, hother]
  · obtain ⟨read, hread, happlication⟩ := get_layer_alone (s := .applicationName)
      (y := ⟨Text.Utf8.encode "PYROSCOPE_APPLICATION_NAME", Text.Utf8.encode "x"⟩) hname hvalue
    refine ⟨_, load_eq_ok_iff.2 ⟨read, hread, rfl⟩, ?_⟩
    change (read.value.onto .empty).applicationName = some "x"
    rw [Layer.onto_empty]
    exact happlication

end Environment
end ProfilingAgent

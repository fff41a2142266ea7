import ProfilingAgent.Host.Options
import ProfilingAgent.Proofs.QuotedKeys

set_option autoImplicit false

namespace ProfilingAgent

open Json Log Tag

def lastValue? (tags : List Tag) (key : String) : Option String :=
  (tags.reverse.find? (·.key == key)).map (·.value)

theorem get?_dictOfTags (tags : List Tag) (key : String) :
    (Lenient.dictOfTags tags).get? key = lastValue? tags key := by
  unfold Lenient.dictOfTags lastValue?
  rw [Dict.get?_ofList, ← List.map_reverse, List.find?_map, Option.map_map]
  rfl

theorem lastValue?_eq_none_iff {tags : List Tag} {key : String} :
    lastValue? tags key = none ↔ ∀ t ∈ tags, t.key ≠ key := by
  unfold lastValue?
  simp

namespace Host

theorem tagsOfText_structured {tags : List Tag} (h : ∀ t ∈ tags, t.isValid = true) :
    (tagsOfText (Structured.write tags)).value = some (Lenient.dictOfTags tags) := by
  obtain ⟨hhead, hlast⟩ := Structured.write_ends tags
  have htrimmed : Text.trim (Structured.write tags) = Structured.write tags := by
    refine Text.trim_eq_self (Text.trimChars_eq_self_iff.2 ⟨fun c hc => ?_, fun c hc => ?_⟩)
    · obtain rfl := Option.some.inj (hhead.symm.trans hc)
      decide
    · obtain rfl := Option.some.inj (hlast.symm.trans hc)
      decide
  have hlooks : looksStructured (Structured.write tags).toList = true := by
    unfold looksStructured
    rw [hhead]
    rfl
  unfold tagsOfText
  dsimp only
  rw [htrimmed, if_pos hlooks, Structured.read_write h]
  rfl

/-- From a delimited text that does not look structured the tags arrive, and from no other. -/
theorem tagsOfText_delimited {tags : List Tag} (h : ∀ t ∈ tags, Delimited.Plain t) :
    (tagsOfText (Delimited.joined tags)).value = some (Lenient.dictOfTags tags) ↔
      looksStructured (Delimited.joined tags).toList = false := by
  have htrimmed := Text.trim_eq_self (Delimited.joined_trimmed h)
  unfold tagsOfText
  dsimp only
  rw [htrimmed]
  cases hlooks : looksStructured (Delimited.joined tags).toList with
  | false =>
    rw [if_neg Bool.false_ne_true, Noted.value_bind, Delimited.read_joined h]
    simp [Noted.value_pure]
  | true =>
    rw [if_pos rfl]
    have hne : tags ≠ [] := by
      rintro rfl
      cases hlooks
    refine iff_of_false (fun hsame => ?_) Bool.true_eq_false.mp
    cases hread : Structured.read (Delimited.joined tags) with
    | error e =>
      rw [hread] at hsame
      cases hsame
    | ok ts =>
      rw [hread] at hsame
      obtain ⟨t, ht, hlost⟩ := Delimited.structured_loses_key h hne hread
      have hsays : lastValue? ts t.key = lastValue? tags t.key := by
        rw [← get?_dictOfTags, ← get?_dictOfTags, Option.some.inj hsame]
      rw [lastValue?_eq_none_iff.2 hlost] at hsays
      exact lastValue?_eq_none_iff.1 hsays.symm t ht rfl

end Host

def Dict.tags (d : Dict String) : List Tag := d.entries.map fun e => ⟨e.1, e.2⟩

theorem dictOfTags_of_perm {d : Dict String} {tags : List Tag} (h : tags.Perm d.tags) :
    Lenient.dictOfTags tags = d := by
  have hentries : (tags.map fun t => (t.key, t.value)).Perm d.entries := by
    have hmap := h.map fun t => (t.key, t.value)
    unfold Dict.tags at hmap
    rw [List.map_map] at hmap
    simpa [Function.comp_def] using hmap
  exact Dict.ofList_of_perm hentries

theorem tagEntries_texts (pairs : List (String × String)) :
    (Lenient.tagEntries (pairs.map fun e => (e.1, Value.string e.2))).value = pairs := by
  induction pairs with
  | nil => rfl
  | cons e rest ih =>
    rw [List.map_cons]
    change (e.1, e.2) :: _ = _
    rw [ih]

def layerOfTags (v : Value) : Except Fault Layer := (Layer.ofValue (.object [("tags", v)])).value

theorem layerOfTags_string (s : String) :
    layerOfTags (.string s) = .ok { tags := some (Lenient.dictOfTags (Delimited.read s).value) } := rfl

theorem layerOfTags_object (pairs : List (String × String)) :
    layerOfTags (.object (pairs.map fun e => (e.1, .string e.2))) =
      .ok { tags := some (.ofList pairs) } := by
  have hread : layerOfTags (.object (pairs.map fun e => (e.1, .string e.2))) = .ok
      { tags := some (.ofList (Lenient.tagEntries (pairs.map fun e => (e.1, .string e.2))).value) } := rfl
  rw [hread, tagEntries_texts]

/-- Whatever tags have a delimited form: as structured text they reach the agent as the dictionary of
their last values, and as delimited text they do so exactly if this text does not begin with a bracket.
A layer takes the pairs of a dictionary, in any order, to be the same as their delimited text. -/
theorem tags_of_either_form (tags : List Tag) :
    (∀ s, Delimited.write tags = .ok s → ∃ d : Dict String, (∀ key, d.get? key = lastValue? tags key) ∧
      (Host.tagsOfText (Structured.write tags)).value = some d ∧
      ((Host.tagsOfText s).value = some d ↔ Host.looksStructured s.toList = false)) ∧
    ∀ d : Dict String, tags.Perm d.tags → (∀ t ∈ tags, ∃ s, Delimited.write [t] = .ok s) →
      ∃ s, Delimited.write tags = .ok s ∧ layerOfTags (.string s) = .ok { tags := some d } ∧
        ∀ pairs : List (String × String), pairs.Perm d.entries →
          layerOfTags (.object (pairs.map fun e => (e.1, .string e.2))) = .ok { tags := some d } := by
  refine ⟨fun s hs => ?_, fun d hperm hsingle => ?_⟩
  · obtain ⟨hplain, rfl⟩ := Delimited.write_eq_ok_iff.1 hs
    exact ⟨Lenient.dictOfTags tags, get?_dictOfTags tags,
      Host.tagsOfText_structured fun t ht => (hplain t ht).isValid, Host.tagsOfText_delimited hplain⟩
  · have hplain : ∀ t ∈ tags, Delimited.Plain t := by
      intro t ht
      obtain ⟨s, hs⟩ := hsingle t ht
      exact (Delimited.write_eq_ok_iff.1 hs).1 t (List.mem_singleton_self t)
    refine ⟨Delimited.joined tags, Delimited.write_eq_ok_iff.2 ⟨hplain, rfl⟩, ?_, fun pairs hpairs => ?_⟩
    · rw [layerOfTags_string, Delimited.read_joined hplain, dictOfTags_of_perm hperm]
    · rw [layerOfTags_object, Dict.ofList_of_perm hpairs]

theorem tags_of_either_form_repeated : ∃ d : Dict String, d.get? "zone" = some "b" ∧
    (Host.tagsOfText (Structured.write [⟨"zone", "a"⟩, ⟨"zone", "b"⟩])).value = some d ∧
    (Host.tagsOfText "zone=a,zone=b").value = some d := by
  obtain ⟨d, hlast, hstructured, hdelimited⟩ :=
    (tags_of_either_form [⟨"zone", "a"⟩, ⟨"zone", "b"⟩]).1 "zone=a,zone=b" (by decide)
  exact ⟨d, hlast "zone", hstructured, hdelimited.2 (by decide)⟩

/-- The delimited text of a tag whose key begins with a bracket is taken for structured text, which it
is not, and the tag is lost. -/
theorem bracket_tag_lost : Delimited.write [⟨"[k", "v"⟩] = .ok "[k=v" ∧
    (Host.tagsOfText (Structured.write [⟨"[k", "v"⟩])).value = some (Lenient.dictOfTags [⟨"[k", "v"⟩]) ∧
    (Host.tagsOfText "[k=v").value = none := by
  refine ⟨by decide, Host.tagsOfText_structured (by decide), by decide⟩

end ProfilingAgent

import ProfilingAgent.Proofs.DelimitedText
import ProfilingAgent.Proofs.WrittenValues
import ProfilingAgent.Tag.Structured

set_option autoImplicit false

namespace ProfilingAgent

open Json Json.Reader Log

namespace Tag.Structured

theorem wordy_toValue (t : Tag) : Wordy 127 (toValue t) := by
  refine .object (by decide) fun e he => ?_
  rcases List.mem_cons.1 he with rfl | he
  · exact .string _
  · rw [List.mem_singleton.1 he]
    exact .string _

theorem wordy_tags (tags : List Tag) : Wordy depthLimit (.array (tags.map toValue)) := by
  refine .array (by decide) fun v hv => ?_
  obtain ⟨t, -, rfl⟩ := List.mem_map.1 hv
  exact wordy_toValue t

theorem ofValue?_toValue (t : Tag) : ofValue? (toValue t) = some t := rfl

theorem mapM_ofValue?_toValue (tags : List Tag) : (tags.map toValue).mapM ofValue? = some tags := by
  induction tags with
  | nil => rfl
  | cons t rest ih =>
    rw [List.map_cons, List.mapM_cons, ofValue?_toValue, ih]
    rfl

theorem run_write (ts : List Tag) : tags.run (write ts) = .ok ts := by
  obtain ⟨q, hwritten⟩ := (wordy_tags ts).gives_writtenValue
  refine run_eq_ok_iff.2 ⟨⟨[], q⟩, gives_bind.2 ⟨_, _, hwritten, ?_⟩, rfl⟩
  have hall : allOfValue? (.array (ts.map toValue)) = some ts := mapM_ofValue?_toValue ts
  rw [hall]
  exact gives_pure.2 ⟨rfl, rfl⟩

theorem getLast?_itemChars (vs : List Value) : (Value.itemChars vs).getLast? = some ']' := by
  induction vs with
  | nil => rfl
  | cons v vs ih =>
    rw [Value.itemChars, Tag.Delimited.getLast?_append_of_ne_nil, ih]
    rintro hnil
    rw [hnil] at ih
    cases ih

theorem write_ends (ts : List Tag) :
    (write ts).toList.head? = some '[' ∧ (write ts).toList.getLast? = some ']' := by
  unfold write Value.text
  rw [String.toList_ofList]
  cases ts with
  | nil => exact ⟨rfl, rfl⟩
  | cons t rest =>
    rw [List.map_cons, Value.chars]
    refine ⟨rfl, ?_⟩
    rw [Tag.Delimited.getLast?_append_of_ne_nil, getLast?_itemChars]
    intro hnil
    have hlast := getLast?_itemChars (rest.map toValue)
    rw [hnil] at hlast
    cases hlast

theorem allBlank_write (ts : List Tag) : Text.allBlank (write ts) = false := by
  obtain ⟨hhead, -⟩ := write_ends ts
  unfold Text.allBlank
  rw [List.all_eq_false]
  exact ⟨'[', List.mem_of_head? hhead, by decide⟩

theorem read_write {ts : List Tag} (h : ∀ t ∈ ts, t.isValid = true) : read (write ts) = .ok ts := by
  unfold read
  rw [allBlank_write, run_write]
  simp only [(checkAll_eq_ok_iff ts).2 h, Bool.false_eq_true, if_false]

end Tag.Structured

theorem Text.trim_eq_self {s : String} (h : trimChars s.toList = s.toList) : trim s = s := by
  unfold trim
  rw [h, String.ofList_toList]

namespace Tag.Delimited

theorem joined_cons (t : Tag) {rest : List Tag} (h : rest ≠ []) :
    (joined (t :: rest)).toList = t.text.toList ++ ',' :: (joined rest).toList := by
  obtain ⟨u, rest, rfl⟩ := List.exists_cons_of_ne_nil h
  unfold joined
  simp [String.intercalate_cons_cons]

theorem text_ne_nil (t : Tag) : t.text.toList ≠ [] := by
  rw [toList_text]
  simp

theorem joined_ne_nil {tags : List Tag} (h : tags ≠ []) : (joined tags).toList ≠ [] := by
  obtain ⟨t, rest, rfl⟩ := List.exists_cons_of_ne_nil h
  by_cases hrest : rest = []
  · subst hrest
    exact text_ne_nil t
  · rw [joined_cons t hrest]
    simp

theorem joined_trimmed {tags : List Tag} (h : ∀ t ∈ tags, Plain t) :
    Text.trimChars (joined tags).toList = (joined tags).toList := by
  induction tags with
  | nil => rfl
  | cons t rest ih =>
    have ht := (h t List.mem_cons_self).text_trimmed
    by_cases hrest : rest = []
    · subst hrest
      exact ht
    · have hlast := Text.trimChars_eq_self_iff.1 (ih fun u hu => h u (List.mem_cons_of_mem t hu))
      rw [joined_cons t hrest, Text.trimChars_eq_self_iff]
      refine ⟨fun c hc => ?_, fun c hc => ?_⟩
      · rw [List.head?_append_of_ne_nil _ (text_ne_nil t)] at hc
        exact (Text.trimChars_eq_self_iff.1 ht).1 c hc
      · rw [getLast?_append_of_ne_nil (List.cons_ne_nil _ _),
          List.getLast?_cons_of_ne_nil (joined_ne_nil hrest)] at hc
        exact hlast.2 c hc

end Tag.Delimited

end ProfilingAgent

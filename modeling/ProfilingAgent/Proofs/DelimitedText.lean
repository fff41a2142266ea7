import ProfilingAgent.Proofs.Trimming
import ProfilingAgent.Tag.Delimited

set_option autoImplicit false

namespace ProfilingAgent.Tag.Delimited

open Text

/-- Some text has the tag among its tags. -/
def Representable (t : Tag) : Prop := ∃ s, t ∈ (read s).value

/-- How a tag is refused. A blank key goes before a delimiter, a delimiter in the key before one in
the value, and any delimiter before blanks that would be lost. -/
inductive Refused (t : Tag) : TagError → Prop
  | blankKey (h : ∀ c ∈ t.key.toList, isBlank c = true) : Refused t (.emptyKey t.value)
  | inKey {before after : List Char} {c : Char} (hkey : ∃ d ∈ t.key.toList, isBlank d = false)
    (hsplit : t.key.toList = before ++ c :: after) (hc : c = ',' ∨ c = '=')
    (hfirst : ',' ∉ before ∧ '=' ∉ before) : Refused t (.delimiter t.key c)
  | inValue (hkey : ∃ d ∈ t.key.toList, isBlank d = false)
    (hplain : ',' ∉ t.key.toList ∧ '=' ∉ t.key.toList) (hvalue : ',' ∈ t.value.toList) :
    Refused t (.delimiter t.key ',')
  | blanks (hkey : ∃ d ∈ t.key.toList, isBlank d = false)
    (hplain : ',' ∉ t.key.toList ∧ '=' ∉ t.key.toList) (hvalue : ',' ∉ t.value.toList)
    (hlost : trimChars t.key.toList ≠ t.key.toList ∨ trimEnd t.value.toList ≠ t.value.toList) :
    Refused t (.whitespace t.key)

theorem splitAt_eq_splitOn (separator : Char) (cs : List Char) :
    splitAt separator cs = cs.splitOn separator := by
  induction cs with
  | nil => rfl
  | cons c rest ih =>
    have hcons : (c :: rest).splitOn separator = if c == separator then [] :: rest.splitOn separator
        else (rest.splitOn separator).modifyHead (c :: ·) :=
      List.splitOnP_cons_eq_if_modifyHead c rest
    rw [splitAt, hcons, ih]
    by_cases hc : c = separator
    · simp [hc]
    · simp only [hc, if_false, beq_iff_eq]
      cases hsplit : rest.splitOn separator with
      | nil => exact absurd hsplit (List.splitOn_ne_nil separator rest)
      | cons part parts => rfl

theorem notMem_of_mem_splitAt {separator : Char} {cs part : List Char}
    (h : part ∈ splitAt separator cs) : separator ∉ part := by
  induction cs generalizing part with
  | nil =>
    rw [List.mem_singleton.1 h]
    exact List.not_mem_nil
  | cons c rest ih =>
    rw [splitAt] at h
    by_cases hc : c = separator
    · rw [if_pos hc] at h
      rcases List.mem_cons.1 h with rfl | h
      · exact List.not_mem_nil
      · exact ih h
    · rw [if_neg hc] at h
      cases hsplit : splitAt separator rest with
      | nil =>
        rw [hsplit] at h
        rw [List.mem_singleton.1 h]
        simpa using Ne.symm hc
      | cons first parts =>
        rw [hsplit] at h ih
        rcases List.mem_cons.1 h with rfl | h
        · rw [List.mem_cons, not_or]
          exact ⟨Ne.symm hc, ih List.mem_cons_self⟩
        · exact ih (List.mem_cons_of_mem first h)

structure Plain (t : Tag) : Prop where
  key_ne_nil : t.key.toList ≠ []
  key_trimmed : trimChars t.key.toList = t.key.toList
  key_comma : ',' ∉ t.key.toList
  key_equals : '=' ∉ t.key.toList
  value_trimmed : trimEnd t.value.toList = t.value.toList
  value_comma : ',' ∉ t.value.toList

theorem isValid_iff (t : Tag) : t.isValid = true ↔ ∃ c ∈ t.key.toList, isBlank c = false := by
  simp [isValid, allBlank]

theorem Plain.isValid {t : Tag} (h : Plain t) : t.isValid = true := by
  rw [isValid_iff]
  by_contra hblank
  apply h.key_ne_nil
  rw [← h.key_trimmed, trimChars_eq_nil_iff]
  simpa using hblank

theorem find?_delimiter_eq_none_iff {cs : List Char} :
    (cs.find? fun c => c = ',' || c = '=') = none ↔ ',' ∉ cs ∧ '=' ∉ cs := by
  simp only [List.find?_eq_none, Bool.or_eq_true, decide_eq_true_eq, not_or]
  constructor
  · intro h
    exact ⟨fun hc => (h _ hc).1 rfl, fun hc => (h _ hc).2 rfl⟩
  · rintro ⟨hcomma, hequals⟩ c hc
    exact ⟨fun h => hcomma (h ▸ hc), fun h => hequals (h ▸ hc)⟩

theorem find?_delimiter_eq_some_iff {cs : List Char} {c : Char} :
    (cs.find? fun c => c = ',' || c = '=') = some c ↔ (c = ',' ∨ c = '=') ∧
      ∃ before after, cs = before ++ c :: after ∧ ',' ∉ before ∧ '=' ∉ before := by
  rw [List.find?_eq_some_iff_append, Bool.or_eq_true, decide_eq_true_eq, decide_eq_true_eq]
  refine and_congr_right fun _ => exists_congr fun before => exists_congr fun after =>
    and_congr_right fun _ => ?_
  rw [← find?_delimiter_eq_none_iff, List.find?_eq_none]
  simp only [Bool.not_eq_true', Bool.not_eq_true]

theorem find?_comma_eq_some_iff {cs : List Char} {c : Char} :
    cs.find? (· = ',') = some c ↔ ',' ∈ cs ∧ c = ',' := by
  constructor
  · intro h
    have hc : c = ',' := by simpa using List.find?_some h
    exact ⟨hc ▸ List.mem_of_find?_eq_some h, hc⟩
  · rintro ⟨hmem, rfl⟩
    cases hfind : cs.find? (· = ',') with
    | none => simpa using List.find?_eq_none.1 hfind ',' hmem
    | some d =>
      have hd : d = ',' := by simpa using List.find?_some hfind
      rw [hd]

theorem offending?_eq_some_iff {t : Tag} {c : Char} : offending? t = some c ↔
    ((c = ',' ∨ c = '=') ∧ ∃ before after, t.key.toList = before ++ c :: after ∧
      ',' ∉ before ∧ '=' ∉ before) ∨
    ((',' ∉ t.key.toList ∧ '=' ∉ t.key.toList) ∧ ',' ∈ t.value.toList ∧ c = ',') := by
  rw [← find?_delimiter_eq_some_iff, ← find?_delimiter_eq_none_iff, ← find?_comma_eq_some_iff]
  unfold offending?
  cases t.key.toList.find? fun c => c = ',' || c = '=' <;> simp

theorem offending?_eq_none_iff {t : Tag} : offending? t = none ↔
    (',' ∉ t.key.toList ∧ '=' ∉ t.key.toList) ∧ ',' ∉ t.value.toList := by
  have hvalue : t.value.toList.find? (· = ',') = none ↔ ',' ∉ t.value.toList := by
    simp only [List.find?_eq_none, decide_eq_true_eq]
    exact ⟨fun h hc => h _ hc rfl, fun h c hc hcomma => h (hcomma ▸ hc)⟩
  unfold offending?
  rw [← find?_delimiter_eq_none_iff, ← hvalue]
  cases t.key.toList.find? fun c => c = ',' || c = '=' <;> simp

/-- The checks before writing let exactly the plain tags through. -/
theorem refusal?_eq_none_iff (t : Tag) : refusal? t = none ↔ Plain t := by
  unfold refusal?
  constructor
  · intro h
    split at h
    · cases h
    · rename_i hvalid
      cases hoff : offending? t with
      | some c => simp [hoff] at h
      | none =>
        obtain ⟨⟨hcomma, hequals⟩, hvalue⟩ := offending?_eq_none_iff.1 hoff
        simp only [hoff, ite_eq_right_iff, reduceCtorEq, imp_false, not_or, not_not] at h
        obtain ⟨c, hc, -⟩ := (isValid_iff t).1 (by simpa using hvalid)
        exact ⟨List.ne_nil_of_mem hc, h.1, hcomma, hequals, h.2, hvalue⟩
  · intro h
    have hoff := offending?_eq_none_iff.2 ⟨⟨h.key_comma, h.key_equals⟩, h.value_comma⟩
    simp [h.isValid, hoff, h.key_trimmed, h.value_trimmed]

theorem refusal?_eq_some_iff {t : Tag} {e : TagError} : refusal? t = some e ↔ Refused t e := by
  unfold refusal?
  constructor
  · intro h
    split at h
    · rename_i hblank
      cases h
      exact .blankKey (by simpa [isValid, allBlank] using hblank)
    · rename_i hvalid
      have hkey := (isValid_iff t).1 (by simpa using hvalid)
      split at h
      · rename_i c hoff
        cases h
        rcases offending?_eq_some_iff.1 hoff with ⟨hc, before, after, hsplit, hfirst⟩ | hoff
        · exact .inKey hkey hsplit hc hfirst
        · obtain ⟨hplain, hvalue, rfl⟩ := hoff
          exact .inValue hkey hplain hvalue
      · rename_i hoff
        obtain ⟨hplain, hvalue⟩ := offending?_eq_none_iff.1 hoff
        split at h
        · rename_i hlost
          cases h
          exact .blanks hkey hplain hvalue hlost
        · cases h
  · intro h
    cases h with
    | blankKey hblank =>
      have hinvalid : t.isValid = false := by simpa [isValid, allBlank] using hblank
      simp [hinvalid]
    | inKey hkey hsplit hc hfirst =>
      have hoff := offending?_eq_some_iff.2 (.inl ⟨hc, _, _, hsplit, hfirst⟩)
      simp [(isValid_iff t).2 hkey, hoff]
    | inValue hkey hplain hvalue =>
      have hoff := offending?_eq_some_iff.2 (.inr ⟨hplain, hvalue, rfl⟩)
      simp [(isValid_iff t).2 hkey, hoff]
    | blanks hkey hplain hvalue hlost =>
      have hoff := offending?_eq_none_iff.2 ⟨hplain, hvalue⟩
      simp only [(isValid_iff t).2 hkey, hoff, Bool.not_true, Bool.false_eq_true, if_false, if_pos hlost]

theorem getLast?_append_of_ne_nil {cs ds : List Char} (h : ds ≠ []) :
    (cs ++ ds).getLast? = ds.getLast? := by
  rw [List.getLast?_append]
  cases hlast : ds.getLast? with
  | none => exact absurd (List.getLast?_eq_none_iff.1 hlast) h
  | some d => rfl

theorem entryTag?_eq_some_iff {entry : List Char} {t : Tag} : entryTag? entry = some t ↔
    ∃ before value, entry = before ++ '=' :: value ∧ '=' ∉ before ∧ trimChars before ≠ [] ∧
      t = ⟨String.ofList (trimChars before), String.ofList value⟩ := by
  constructor
  · intro h
    have hbefore : '=' ∉ entry.takeWhile (· ≠ '=') := fun hmem => by
      simpa using List.mem_takeWhile_imp hmem
    have hcut : entry.takeWhile (· ≠ '=') ++ entry.dropWhile (· ≠ '=') = entry :=
      List.takeWhile_append_dropWhile
    unfold entryTag? at h
    split at h
    · cases h
    · rename_i c value hdrop
      have hc : c = '=' := by
        have hhead := List.head?_dropWhile_not (· ≠ '=') entry
        rw [hdrop] at hhead
        simpa using hhead
      subst hc
      dsimp only at h
      split at h
      · cases h
      · rename_i hkey
        cases h
        exact ⟨_, value, by rw [← hdrop, hcut], hbefore, by simpa using hkey, rfl⟩
  · rintro ⟨before, value, rfl, hbefore, hkey, rfl⟩
    have hall : ∀ c ∈ before, decide (c ≠ '=') = true := by
      intro c hc
      simpa using fun heq : c = '=' => hbefore (heq ▸ hc)
    have htake : (before ++ '=' :: value).takeWhile (· ≠ '=') = before := by
      rw [List.takeWhile_append_of_pos hall]
      simp
    have hdrop : (before ++ '=' :: value).dropWhile (· ≠ '=') = '=' :: value := by
      rw [List.dropWhile_append_of_pos hall]
      simp
    unfold entryTag?
    rw [hdrop, htake]
    simp [hkey]

theorem plain_of_entryTag? {entry : List Char} {t : Tag} (hcomma : ',' ∉ entry)
    (htrimmed : trimChars entry = entry) (h : entryTag? entry = some t) : Plain t := by
  obtain ⟨before, value, rfl, hbefore, hkey, rfl⟩ := entryTag?_eq_some_iff.1 h
  have hsub := (trimChars_isInfix before).subset
  rw [List.mem_append, List.mem_cons, not_or, not_or] at hcomma
  refine ⟨?_, ?_, ?_, ?_, ?_, ?_⟩
  all_goals rw [String.toList_ofList]
  · exact hkey
  · exact trimChars_trimChars before
  · exact fun hmem => hcomma.1 (hsub hmem)
  · exact fun hmem => hbefore (hsub hmem)
  · -- The value ends where the entry does.
    rw [trimEnd_eq_self_iff]
    intro d hd
    have hvalue : value ≠ [] := by
      rintro rfl
      cases hd
    apply (trimChars_eq_self_iff.1 htrimmed).2
    rw [getLast?_append_of_ne_nil (List.cons_ne_nil '=' value), List.getLast?_cons_of_ne_nil hvalue]
    exact hd
  · exact hcomma.2.2

theorem toList_text (t : Tag) : t.text.toList = t.key.toList ++ '=' :: t.value.toList := by
  simp [Tag.text]

namespace Plain

variable {t : Tag} (h : Plain t)

include h

theorem entryTag?_text : entryTag? t.text.toList = some t := by
  refine entryTag?_eq_some_iff.2 ⟨t.key.toList, t.value.toList, toList_text t, h.key_equals, ?_, ?_⟩
  · rw [h.key_trimmed]
    exact h.key_ne_nil
  · rw [h.key_trimmed, String.ofList_toList, String.ofList_toList]

theorem text_trimmed : trimChars t.text.toList = t.text.toList := by
  rw [trimChars_eq_self_iff, toList_text]
  constructor
  · intro c hc
    rw [List.head?_append_of_ne_nil _ h.key_ne_nil] at hc
    exact (trimChars_eq_self_iff.1 h.key_trimmed).1 c hc
  · intro c hc
    rw [getLast?_append_of_ne_nil (List.cons_ne_nil _ _)] at hc
    by_cases hvalue : t.value.toList = []
    · rw [hvalue] at hc
      obtain rfl := Option.some.inj hc
      decide
    · rw [List.getLast?_cons_of_ne_nil hvalue] at hc
      exact trimEnd_eq_self_iff.1 h.value_trimmed c hc

theorem text_comma : ',' ∉ t.text.toList := by
  rw [toList_text]
  simp [h.key_comma, h.value_comma]

end Plain

theorem plain_of_mem_read {s : String} {t : Tag} (h : t ∈ (read s).value) : Plain t := by
  obtain ⟨entry, hentry, ht⟩ := List.mem_filterMap.1 h
  obtain ⟨part, hpart, rfl⟩ := List.mem_map.1 (List.mem_filter.1 hentry).1
  have hcomma : ',' ∉ trimChars part := fun hmem =>
    notMem_of_mem_splitAt hpart ((trimChars_isInfix part).subset hmem)
  exact plain_of_entryTag? hcomma (trimChars_trimChars part) ht

def joined (tags : List Tag) : String := ",".intercalate (tags.map Tag.text)

theorem entries_joined {tags : List Tag} (h : ∀ t ∈ tags, Plain t) :
    entries (joined tags).toList = tags.map (·.text.toList) := by
  by_cases hnil : tags = []
  · subst hnil
    rfl
  · have hparts : splitAt ',' (joined tags).toList = tags.map (·.text.toList) := by
      rw [splitAt_eq_splitOn, joined, String.toList_intercalate, List.map_map]
      apply List.splitOn_intercalate
      · intro part hpart
        obtain ⟨t, ht, rfl⟩ := List.mem_map.1 hpart
        exact (h t ht).text_comma
      · simpa using hnil
    have htrim : (tags.map (·.text.toList)).map trimChars = tags.map (·.text.toList) := by
      rw [List.map_map]
      exact List.map_congr_left fun t ht => (h t ht).text_trimmed
    unfold entries
    rw [hparts, htrim, List.filter_eq_self]
    intro part hpart
    obtain ⟨t, -, rfl⟩ := List.mem_map.1 hpart
    rw [toList_text]
    simp

theorem read_joined {tags : List Tag} (h : ∀ t ∈ tags, Plain t) : (read (joined tags)).value = tags := by
  unfold read
  dsimp only
  rw [entries_joined h, List.filterMap_map]
  calc tags.filterMap (fun t => entryTag? t.text.toList)
      = tags.filterMap some := List.filterMap_congr fun t ht => (h t ht).entryTag?_text
    _ = tags := List.filterMap_some

theorem plain_iff_representable {t : Tag} : Plain t ↔ Representable t := by
  constructor
  · intro h
    have hread := @read_joined [t] (by simpa using h)
    exact ⟨joined [t], by rw [hread]; exact List.mem_singleton_self t⟩
  · rintro ⟨s, hs⟩
    exact plain_of_mem_read hs

theorem write_eq_ok_iff {tags : List Tag} {text : String} :
    write tags = .ok text ↔ (∀ t ∈ tags, Plain t) ∧ text = joined tags := by
  unfold write joined
  simp only [← refusal?_eq_none_iff, ← List.findSome?_eq_none_iff]
  cases tags.findSome? refusal? <;> simp [eq_comm]

theorem write_eq_error_iff {tags : List Tag} {e : TagError} :
    write tags = .error e ↔ ∃ before t after, tags = before ++ t :: after ∧
      (∀ u ∈ before, Plain u) ∧ Refused t e := by
  have hfind : write tags = .error e ↔ tags.findSome? refusal? = some e := by
    unfold write
    cases tags.findSome? refusal? <;> simp
  rw [hfind, List.findSome?_eq_some_iff]
  simp only [refusal?_eq_some_iff, refusal?_eq_none_iff]
  exact exists_congr fun _ => exists_congr fun _ => exists_congr fun _ =>
    and_congr_right fun _ => And.comm

theorem Refused.not_plain {t : Tag} {e : TagError} (h : Refused t e) : ¬Plain t := by
  rw [← refusal?_eq_none_iff, refusal?_eq_some_iff.2 h]
  simp

/-- Tags are written exactly if they are the tags of some text, and what is written is read back as
these tags, in order and with repetitions. So the tags of any text can be written again. A list that
is refused is refused because of the first of its tags that is in no text at all. -/
theorem delimited_text_exact (tags : List Tag) :
    ((∃ text, write tags = .ok text) ↔ ∃ s, (read s).value = tags) ∧
      (∀ text, write tags = .ok text → (read text).value = tags) ∧
      (∀ s, ∃ text, write (read s).value = .ok text ∧ (read text).value = (read s).value) ∧
      ∀ e, write tags = .error e ↔ ∃ before t after, tags = before ++ t :: after ∧
        (∀ u ∈ before, Representable u) ∧ ¬Representable t ∧ Refused t e := by
  have hwrites : ∀ {ts : List Tag}, (∀ t ∈ ts, Plain t) →
      ∃ text, write ts = .ok text ∧ (read text).value = ts :=
    fun h => ⟨_, write_eq_ok_iff.2 ⟨h, rfl⟩, read_joined h⟩
  refine ⟨⟨?_, ?_⟩, ?_, ?_, ?_⟩
  · rintro ⟨text, htext⟩
    obtain ⟨hplain, rfl⟩ := write_eq_ok_iff.1 htext
    exact ⟨joined tags, read_joined hplain⟩
  · rintro ⟨s, rfl⟩
    obtain ⟨text, htext, -⟩ := hwrites fun t => plain_of_mem_read
    exact ⟨text, htext⟩
  · intro text htext
    obtain ⟨hplain, rfl⟩ := write_eq_ok_iff.1 htext
    exact read_joined hplain
  · intro s
    exact hwrites fun t => plain_of_mem_read
  · intro e
    simp only [write_eq_error_iff, ← plain_iff_representable]
    constructor
    · rintro ⟨before, t, after, hsplit, hbefore, he⟩
      exact ⟨before, t, after, hsplit, hbefore, he.not_plain, he⟩
    · rintro ⟨before, t, after, hsplit, hbefore, -, he⟩
      exact ⟨before, t, after, hsplit, hbefore, he⟩

example : (read "a=1,, novalue ,=orphan, b = 2 ,q=x=y").value =
    [⟨"a", "1"⟩, ⟨"b", " 2"⟩, ⟨"q", "x=y"⟩] := by decide

end ProfilingAgent.Tag.Delimited

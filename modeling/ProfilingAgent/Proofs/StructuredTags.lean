import ProfilingAgent.Proofs.ByteOrder
import ProfilingAgent.Proofs.Dictionaries
import ProfilingAgent.Proofs.TagForms

set_option autoImplicit false

namespace ProfilingAgent.Tag.Structured

open Json Json.Reader

/-- These tags, or the error of the first of them that has a blank key. -/
def Checked (tags : List Tag) (r : Except TagError (List Tag)) : Prop :=
  ((∀ t ∈ tags, t.isValid = true) → r = .ok tags) ∧
    ∀ t, FirstBlank tags t → r = .error (.emptyKey t.value)

theorem checked_of_run {s : String} {ts : List Tag} (hblank : Text.allBlank s = false)
    (hrun : tags.run s = .ok ts) : Checked ts (read s) := by
  unfold read
  rw [hblank, hrun]
  simp only [Bool.false_eq_true, if_false]
  refine ⟨fun hall => ?_, fun t ht => ?_⟩
  · rw [(checkAll_eq_ok_iff ts).2 hall]
  · rw [(checkAll_eq_error_iff ts _).2 ⟨t, ht, rfl⟩]

def LastValue (entries : List (String × String)) (key value : String) : Prop :=
  ∃ before after, entries = before ++ (key, value) :: after ∧ ∀ e ∈ after, e.1 ≠ key

theorem lastValue_iff {entries : List (String × String)} {key value : String} :
    LastValue entries key value ↔ (Dict.ofList entries).get? key = some value := by
  rw [Dict.get?_ofList, Option.map_eq_some_iff]
  constructor
  · rintro ⟨before, after, rfl, hafter⟩
    refine ⟨(key, value), List.find?_eq_some_iff_append.2 ⟨by simp, after.reverse, before.reverse, ?_, ?_⟩, rfl⟩
    · simp
    · intro e he
      simpa using hafter e (List.mem_reverse.1 he)
  · rintro ⟨⟨k, v⟩, hfind, rfl⟩
    obtain ⟨hkey, after, before, hentries, hafter⟩ := List.find?_eq_some_iff_append.1 hfind
    obtain rfl : k = key := by simpa using hkey
    refine ⟨before.reverse, after.reverse, ?_, fun e he => ?_⟩
    · rw [← List.reverse_reverse entries, hentries]
      simp
    · simpa using hafter e (List.mem_reverse.1 he)

def textsObject (entries : List (String × String)) : Value :=
  .object (entries.map fun e => (e.1, .string e.2))

def ofTexts (entries : List (String × String)) : List Tag :=
  (Dict.ofList entries).entries.map fun e => ⟨e.1, e.2⟩

theorem mapM_textEntry (entries : List (String × String)) :
    (entries.map fun e => (e.1, Value.string e.2)).mapM textEntry? = some entries := by
  induction entries with
  | nil => rfl
  | cons e rest ih =>
    rw [List.map_cons, List.mapM_cons, ih]
    rfl

theorem allOfValue?_textsObject (entries : List (String × String)) :
    allOfValue? (textsObject entries) = some (ofTexts entries) := by
  change Option.map _ (List.mapM textEntry? _) = _
  rw [mapM_textEntry]
  rfl

theorem wordy_textsObject (entries : List (String × String)) : Wordy depthLimit (textsObject entries) := by
  refine .object (by decide) fun e he => ?_
  obtain ⟨_, -, rfl⟩ := List.mem_map.1 he
  exact .string _

theorem written_textsObject (entries : List (String × String)) :
    Value.written (textsObject entries).text = .ok (textsObject entries) := by
  obtain ⟨q, hwritten⟩ := (wordy_textsObject entries).gives_writtenValue
  exact run_eq_ok_iff.2 ⟨⟨[], q⟩, hwritten, rfl⟩

theorem isBlank_of_isDigit {c : Char} (h : c.isDigit = true) : Text.isBlank c = false := by
  simp only [Char.isDigit, Bool.and_eq_true, decide_eq_true_eq, ge_iff_le, UInt32.le_iff_toNat_le] at h
  change 48 ≤ c.toNat ∧ c.toNat ≤ 57 at h
  unfold Text.isBlank
  simp
  omega

theorem begins_of_valueAt {fuel depth : Nat} {c d : Cursor} {v : Value} (h : ValueAt fuel depth c v d) :
    ∃ ch, c.rest.head? = some ch ∧ Text.isBlank ch = false := by
  cases h with
  | natural hhead hdigit _ => exact ⟨_, hhead, isBlank_of_isDigit hdigit⟩
  | null hhead _ | yes hhead _ | no hhead _ | negative hhead _ | string hhead _ | array hhead _ _ _
  | object hhead _ _ _ => exact ⟨_, hhead, by decide⟩

theorem allBlank_of_written {s : String} {v : Value} (h : Value.written s = .ok v) :
    Text.allBlank s = false := by
  obtain ⟨d, hgives, -⟩ := run_eq_ok_iff.1 h
  obtain ⟨ch, hhead, hblank⟩ := begins_of_valueAt (gives_value.1 hgives)
  have hmem : ch ∈ s.toList := (forward_skipBlanks (.ofText s)).mem (List.mem_of_head? hhead)
  unfold Text.allBlank
  rw [List.all_eq_false]
  exact ⟨ch, hmem, Bool.eq_false_iff.1 hblank⟩

theorem run_of_written {s : String} {v : Value} {ts : List Tag} (h : Value.written s = .ok v)
    (hall : allOfValue? v = some ts) : tags.run s = .ok ts := by
  obtain ⟨d, hwritten, hrest⟩ := run_eq_ok_iff.1 h
  refine run_eq_ok_iff.2 ⟨d, gives_bind.2 ⟨v, d, hwritten, ?_⟩, hrest⟩
  rw [hall]
  exact gives_pure.2 ⟨rfl, rfl⟩

theorem ofTexts_increasing (entries : List (String × String)) :
    (ofTexts entries).Pairwise fun t u => Text.Utf8.encode t.key < Text.Utf8.encode u.key :=
  List.pairwise_map.2 ((Dict.ofList entries).increasing.imp Text.Utf8.encode_lt_iff.2)

theorem mem_ofTexts {entries : List (String × String)} {t : Tag} :
    t ∈ ofTexts entries ↔ LastValue entries t.key t.value := by
  rw [lastValue_iff, Dict.get?_eq_some_iff]
  unfold ofTexts
  rw [List.mem_map]
  constructor
  · rintro ⟨e, he, rfl⟩
    exact he
  · intro ht
    exact ⟨(t.key, t.value), ht, rfl⟩

/-- Structured text is read as the tags it was written from, in their order. A text that is read as an
object of texts gives one tag for each key, with its last value and in the order of the bytes of the
keys; and there is such a text for any entries. The first tag with a blank key is an error. -/
theorem structured_tags_read_back : (∀ tags, Checked tags (read (write tags))) ∧
    ∀ entries, (∃ s, Value.written s = .ok (textsObject entries)) ∧
      ∀ s, Value.written s = .ok (textsObject entries) → ∃ tags : List Tag,
        tags.Pairwise (fun t u => Text.Utf8.encode t.key < Text.Utf8.encode u.key) ∧
        (∀ t, t ∈ tags ↔ LastValue entries t.key t.value) ∧ Checked tags (read s) := by
  refine ⟨fun tags => checked_of_run (allBlank_write tags) (run_write tags), fun entries => ⟨?_, ?_⟩⟩
  · exact ⟨_, written_textsObject entries⟩
  · intro s hs
    have hrun := run_of_written hs (allOfValue?_textsObject entries)
    exact ⟨ofTexts entries, ofTexts_increasing entries, fun t => mem_ofTexts,
      checked_of_run (allBlank_of_written hs) hrun⟩

theorem structured_tags_read_back_repeated :
    ∃ tags : List Tag, ⟨"b", "2"⟩ ∈ tags ∧ ⟨"b", "1"⟩ ∉ tags ∧
      Checked tags (read "\x7b\"b\":\"1\", \"a\":\"x\",\"b\": \"2\"\x7d") := by
  have hwritten : Value.written "\x7b\"b\":\"1\", \"a\":\"x\",\"b\": \"2\"\x7d" =
      .ok (.object [("b", .string "1"), ("a", .string "x"), ("b", .string "2")]) := rfl
  obtain ⟨tags, -, hmem, hread⟩ :=
    (structured_tags_read_back.2 [("b", "1"), ("a", "x"), ("b", "2")]).2 _ hwritten
  refine ⟨tags, (hmem _).2 ⟨[("b", "1"), ("a", "x")], [], rfl, by decide⟩, fun h => ?_, hread⟩
  have hlast := lastValue_iff.1 ((hmem _).1 h)
  revert hlast
  decide

end ProfilingAgent.Tag.Structured

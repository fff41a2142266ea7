import Mathlib.Data.List.Sort
import ProfilingAgent.Dict

set_option autoImplicit false

namespace ProfilingAgent

variable {α : Type} {k key : String} {v value : α} {entries : List (String × α)}

theorem find?_insertEntry (key : String) (value : α) (entries : List (String × α)) (k : String) :
    (insertEntry key value entries).find? (·.1 == k) =
      if key = k then some (key, value) else entries.find? (·.1 == k) := by
  induction entries with
  | nil =>
    rw [insertEntry]
    by_cases hk : key = k <;> simp [hk]
  | cons entry rest ih =>
    obtain ⟨k', v'⟩ := entry
    rw [insertEntry]
    by_cases hlt : key < k'
    · rw [if_pos hlt]
      by_cases hk : key = k <;> simp [hk]
    · rw [if_neg hlt]
      by_cases heq : key = k'
      · rw [if_pos heq]
        by_cases hk : key = k
        · simp [hk]
        · have hk' : ¬ k' = k := heq ▸ hk
          simp [hk, hk']
      · rw [if_neg heq, List.find?_cons, List.find?_cons, ih]
        by_cases hk' : k' = k
        · have hk : ¬ key = k := fun h => heq (h.trans hk'.symm)
          simp [hk', hk]
        · have hne : (k' == k) = false := by simpa using hk'
          rw [hne]

/-- A value is put into its place, which depends on its key alone. -/
theorem insertEntry_split (key : String) (entries : List (String × α)) :
    ∃ before after, ∀ value, insertEntry key value entries = before ++ (key, value) :: after := by
  induction entries with
  | nil => exact ⟨[], [], fun _ => rfl⟩
  | cons entry rest ih =>
    obtain ⟨k, v⟩ := entry
    by_cases hlt : key < k
    · exact ⟨[], (k, v) :: rest, fun value => by rw [insertEntry, if_pos hlt]; rfl⟩
    · by_cases heq : key = k
      · exact ⟨[], rest, fun value => by rw [insertEntry, if_neg hlt, if_pos heq]; rfl⟩
      · obtain ⟨before, after, hsplit⟩ := ih
        refine ⟨(k, v) :: before, after, fun value => ?_⟩
        rw [insertEntry, if_neg hlt, if_neg heq, hsplit, List.cons_append]

theorem KeysIncrease.nodup (h : KeysIncrease entries) : (entries.map Prod.fst).Nodup := by
  refine List.pairwise_map.2 (h.imp fun hlt heq => ?_)
  exact String.lt_irrefl _ (heq ▸ hlt)

theorem find?_eq_some_of_nodup (h : (entries.map Prod.fst).Nodup) :
    (entries.find? (·.1 == k)).map (·.2) = some v ↔ (k, v) ∈ entries := by
  induction entries with
  | nil => simp
  | cons entry rest ih =>
    obtain ⟨k', v'⟩ := entry
    rw [List.map_cons, List.nodup_cons] at h
    by_cases hk : k' = k
    · have hrest : (k, v) ∉ rest := fun hmem => h.1 (hk ▸ List.mem_map.2 ⟨(k, v), hmem, rfl⟩)
      simp [hk, hrest, eq_comm]
    · rw [List.find?_cons_of_neg (by simpa using hk), ih h.2, List.mem_cons]
      simp [Ne.symm hk]

namespace Dict

theorem get?_empty (k : String) : (empty : Dict α).get? k = none := rfl

theorem get?_insert (d : Dict α) (key : String) (value : α) (k : String) :
    (d.insert key value).get? k = if key = k then some value else d.get? k := by
  unfold get? insert
  rw [find?_insertEntry]
  by_cases hk : key = k <;> simp [hk]

theorem get?_foldl_insert (d : Dict α) (entries : List (String × α)) (k : String) :
    (entries.foldl (fun d e => d.insert e.1 e.2) d).get? k =
      ((entries.reverse.find? (·.1 == k)).map (·.2)).or (d.get? k) := by
  induction entries generalizing d with
  | nil => rfl
  | cons entry rest ih =>
    rw [List.foldl_cons, ih, get?_insert, List.reverse_cons, List.find?_append]
    cases rest.reverse.find? (·.1 == k) with
    | some e => rfl
    | none => by_cases hk : entry.1 = k <;> simp [hk]

/-- The last entry with a key decides. -/
theorem get?_ofList (entries : List (String × α)) (k : String) :
    (ofList entries).get? k = (entries.reverse.find? (·.1 == k)).map (·.2) := by
  unfold ofList
  rw [get?_foldl_insert, get?_empty, Option.or_none]

theorem get?_eq_some_iff (d : Dict α) : d.get? k = some v ↔ (k, v) ∈ d.entries :=
  find?_eq_some_of_nodup d.increasing.nodup

theorem ext_get? {d e : Dict α} (h : ∀ k, d.get? k = e.get? k) : d = e := by
  have hmem : ∀ x : String × α, x ∈ d.entries ↔ x ∈ e.entries := by
    rintro ⟨k, v⟩
    rw [← get?_eq_some_iff, ← get?_eq_some_iff, h]
  have hperm : d.entries.Perm e.entries :=
    (List.perm_ext_iff_of_nodup d.increasing.nodup.of_map e.increasing.nodup.of_map).2 hmem
  apply Dict.ext
  exact hperm.eq_of_pairwise (fun a b _ _ hab hba => absurd hba (String.lt_asymm hab)) d.increasing
    e.increasing

theorem get?_ofList_of_nodup (h : (entries.map Prod.fst).Nodup) :
    (ofList entries).get? k = some v ↔ (k, v) ∈ entries := by
  have hreverse : (entries.reverse.map Prod.fst).Nodup := by
    rw [List.map_reverse]
    exact List.nodup_reverse.2 h
  rw [get?_ofList, find?_eq_some_of_nodup hreverse, List.mem_reverse]

theorem ofList_of_perm {d : Dict α} (h : entries.Perm d.entries) : ofList entries = d := by
  have hnodup : (entries.map Prod.fst).Nodup := (h.map Prod.fst).nodup_iff.2 d.increasing.nodup
  apply ext_get?
  intro k
  apply Option.ext
  intro v
  rw [get?_ofList_of_nodup hnodup, get?_eq_some_iff, h.mem_iff]

theorem entries_ofList (h : KeysIncrease entries) : (ofList entries).entries = entries :=
  congrArg Dict.entries (ofList_of_perm (d := ⟨entries, h⟩) (.refl entries))

end Dict
end ProfilingAgent

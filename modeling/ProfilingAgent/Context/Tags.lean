import ProfilingAgent.Context.Id
import ProfilingAgent.Tag.Basic

set_option autoImplicit false

namespace ProfilingAgent

@[ext]
structure ContextTags where
  entries : List (ContextId × List Tag)
  distinct : (entries.map Prod.fst).Nodup
  inhabited : ∀ e ∈ entries, e.2 ≠ []

namespace ContextTags

def empty : ContextTags := ⟨[], .nil, by simp⟩

instance : Inhabited ContextTags := ⟨empty⟩

def tagsOf (t : ContextTags) (c : ContextId) : List Tag :=
  match t.entries.find? (·.1 == c) with
  | some e => e.2
  | none => []

def count (t : ContextTags) : Nat := t.entries.length

def holds (t : ContextTags) (c : ContextId) : Bool := t.entries.any (·.1 == c)

def clear (t : ContextTags) (c : ContextId) : ContextTags where
  entries := t.entries.filter (·.1 != c)
  distinct := (List.Sublist.map Prod.fst List.filter_sublist).nodup t.distinct
  inhabited := fun e he => t.inhabited e (List.mem_filter.1 he).1

theorem clear_fst_ne {t : ContextTags} {c : ContextId} {e : ContextId × List Tag}
    (h : e ∈ (t.clear c).entries) : e.1 ≠ c := by
  simpa using (List.mem_filter.1 h).2

def put (t : ContextTags) (c : ContextId) (tags : List Tag) : ContextTags :=
  if h : tags = [] then t.clear c
  else
    { entries := (c, tags) :: (t.clear c).entries
      distinct := by
        refine List.nodup_cons.2 ⟨fun hc => ?_, (t.clear c).distinct⟩
        obtain ⟨e, he, heq⟩ := List.mem_map.1 hc
        exact clear_fst_ne he heq
      inhabited := by
        intro e he
        rcases List.mem_cons.1 he with he | he
        · exact he ▸ h
        · exact (t.clear c).inhabited e he }

theorem tagsOf_clear (t : ContextTags) (c d : ContextId) :
    (t.clear c).tagsOf d = if d = c then [] else t.tagsOf d := by
  unfold tagsOf clear
  dsimp only
  rw [List.find?_filter]
  by_cases hd : d = c
  · subst hd
    have hnone : t.entries.find? (fun e => decide ((e.1 != d) = true ∧ (e.1 == d) = true)) = none := by
      simp
    rw [hnone, if_pos rfl]
  · have hsame : (fun e : ContextId × List Tag => decide ((e.1 != c) = true ∧ (e.1 == d) = true)) =
        fun e => e.1 == d := by
      funext e
      by_cases he : e.1 = d <;> simp [he, hd]
    rw [hsame, if_neg hd]

theorem tagsOf_put (t : ContextTags) (c d : ContextId) (tags : List Tag) :
    (t.put c tags).tagsOf d = if d = c then tags else t.tagsOf d := by
  unfold put
  by_cases h : tags = []
  · rw [dif_pos h, tagsOf_clear, h]
  · rw [dif_neg h]
    by_cases hd : d = c
    · subst hd
      simp [tagsOf]
    · have hclear := tagsOf_clear t c d
      rw [if_neg hd] at hclear ⊢
      rw [← hclear]
      simp [tagsOf, Ne.symm hd]

theorem mem_contexts_iff (t : ContextTags) (c : ContextId) :
    c ∈ t.entries.map Prod.fst ↔ t.tagsOf c ≠ [] := by
  unfold tagsOf
  cases h : t.entries.find? (·.1 == c) with
  | none =>
    have hne : ∀ e ∈ t.entries, e.1 ≠ c := fun e he => by simpa using List.find?_eq_none.1 h e he
    simp only [List.mem_map, ne_eq, not_true_eq_false, iff_false]
    exact fun ⟨e, he, hc⟩ => hne e he hc
  | some e =>
    have hmem := List.mem_of_find?_eq_some h
    have hc : e.1 = c := by simpa using List.find?_some h
    simp only [List.mem_map]
    exact ⟨fun _ => t.inhabited e hmem, fun _ => ⟨e, hmem, hc⟩⟩

theorem holds_iff (t : ContextTags) (c : ContextId) : t.holds c = true ↔ t.tagsOf c ≠ [] := by
  rw [← mem_contexts_iff]
  simp [holds]

/-- The count is told from which contexts have a tag. -/
theorem count_eq_length {cs : List ContextId} (t : ContextTags) (hcs : cs.Nodup)
    (h : ∀ c, c ∈ cs ↔ t.tagsOf c ≠ []) : t.count = cs.length := by
  have hperm : (t.entries.map Prod.fst).Perm cs :=
    (List.perm_ext_iff_of_nodup t.distinct hcs).2 fun c => (mem_contexts_iff t c).trans (h c).symm
  have hlength := hperm.length_eq
  rwa [List.length_map] at hlength

theorem count_congr {t u : ContextTags} (h : ∀ c, t.tagsOf c = [] ↔ u.tagsOf c = []) :
    t.count = u.count := by
  have hlength : t.count = (u.entries.map Prod.fst).length :=
    t.count_eq_length u.distinct fun c => (mem_contexts_iff u c).trans (not_congr (h c).symm)
  rwa [List.length_map] at hlength

end ContextTags
end ProfilingAgent

import Mathlib.Data.List.Dedup
import ProfilingAgent.Proofs.Aware

set_option autoImplicit false

/-!
# One chronicle of tags

Whatever is attached to a tag store could be kept in one list, oldest first, each tag with its
owner: everybody or one context. Whoever uses a store cannot tell it from such a chronicle. This is
said of stores that have seen every fork, so that nothing but the use itself happens.
-/
namespace ProfilingAgent

open Act Program

inductive Owner
  | everybody
  | context (c : ContextId)
deriving DecidableEq

def Owner.context? : Owner → Option ContextId
  | everybody => none
  | context c => some c

/-- Everything that is attached, oldest first. -/
structure Chronicle where
  entries : List (Owner × Tag)

section Latest

variable {α : Type} [DecidableEq α]

def deleteLatest (a : α) : List α → List α
  | [] => []
  | b :: rest =>
    if a ∈ rest then b :: deleteLatest a rest
    else if b = a then rest
    else b :: rest

theorem deleteLatest_of_notMem {a : α} {as : List α} (h : a ∉ as) : deleteLatest a as = as := by
  cases as with
  | nil => rfl
  | cons b rest =>
    rw [List.mem_cons, not_or] at h
    rw [deleteLatest, if_neg h.2, if_neg (Ne.symm h.1)]

end Latest

theorem removeLatest_eq (t : Tag) (tags : List Tag) : removeLatest t tags = deleteLatest t tags := by
  induction tags with
  | nil => rfl
  | cons u rest ih =>
    unfold removeLatest at ih ⊢
    rw [List.reverse_cons, List.erase_append, deleteLatest, ← ih]
    by_cases ht : t ∈ rest
    · simp [ht]
    · by_cases hu : u = t <;> simp [ht, hu]

namespace Chronicle

def tagsOf (o : Owner) (x : Chronicle) : List Tag :=
  (x.entries.filter (·.1 = o)).map (·.2)

/-- A batch is attached as a whole, unless a tag of it has a blank key. The first such tag is
reported. -/
def attach (o : Owner) (tags : List Tag) (x : Chronicle) : Except TagError Unit × Chronicle :=
  match tags.find? (!·.isValid) with
  | some t => (.error (.emptyKey t.value), x)
  | none => (.ok (), ⟨x.entries ++ tags.map fun t => (o, t)⟩)

def detach (o : Owner) (t : Tag) (x : Chronicle) : Bool × Chronicle :=
  ((o, t) ∈ x.entries, ⟨deleteLatest (o, t) x.entries⟩)

def detachAll (o : Owner) : List Tag → Chronicle → Nat × Chronicle
  | [], x => (0, x)
  | t :: rest, x =>
    let (n, y) := detachAll o rest x
    let (found, z) := y.detach o t
    (if found then n + 1 else n, z)

def exchange (old new : List Tag) (x : Chronicle) : Except TagError Unit × Chronicle :=
  match x.attach .everybody new with
  | (.error e, _) => (.error e, x)
  | (.ok _, _) => (x.detachAll .everybody old).2.attach .everybody new

def clear (c : ContextId) (x : Chronicle) : Nat × Chronicle :=
  (x.entries.countP (·.1 = .context c), ⟨x.entries.filter (·.1 ≠ .context c)⟩)

def snapshot (c : ContextId) (x : Chronicle) : List Tag := x.tagsOf .everybody ++ x.tagsOf (.context c)

def contextCount (x : Chronicle) : Nat := (x.entries.filterMap (·.1.context?)).dedup.length

end Chronicle

inductive StoreCall
  | addTag (c : ContextId) (t : Tag)
  | addTags (c : ContextId) (tags : List Tag)
  | removeTag (c : ContextId) (t : Tag)
  | removeTags (c : ContextId) (tags : List Tag)
  | addGlobal (t : Tag)
  | removeGlobal (t : Tag)
  | replaceGlobals (old new : List Tag)
  | clearContext (c : ContextId)
  | snapshot (c : ContextId)
  | contextCount

inductive Answer
  | attached (r : Except TagError Unit)
  | found (b : Bool)
  | counted (n : Nat)
  | listed (tags : List Tag)

namespace StoreCall

def context? : StoreCall → Option ContextId
  | addTag c _ | addTags c _ | removeTag c _ | removeTags c _ | clearContext c => some c
  | _ => none

def ask (s : StoreId) : StoreCall → Act Answer
  | addTag c t => Answer.attached <$> Program.addTag s c t
  | addTags c tags => Answer.attached <$> Program.addTags s c tags
  | removeTag c t => Answer.found <$> Program.removeTag s c t
  | removeTags c tags => Answer.counted <$> Program.removeTags s c tags
  | addGlobal t => Answer.attached <$> Program.addGlobal s t
  | removeGlobal t => Answer.found <$> Program.removeGlobal s t
  | replaceGlobals old new => Answer.attached <$> Program.replaceGlobals s old new
  | clearContext c => Answer.counted <$> Program.clearContext s c
  | snapshot c => Answer.listed <$> Program.snapshot s c
  | contextCount => do return .counted (← store s).tags.contextCount

def replay (x : Chronicle) : StoreCall → Answer × Chronicle
  | addTag c t => (x.attach (.context c) [t]).map .attached id
  | addTags c tags => (x.attach (.context c) tags).map .attached id
  | removeTag c t => (x.detach (.context c) t).map .found id
  | removeTags c tags => (x.detachAll (.context c) tags).map .counted id
  | addGlobal t => (x.attach .everybody [t]).map .attached id
  | removeGlobal t => (x.detach .everybody t).map .found id
  | replaceGlobals old new => (x.exchange old new).map .attached id
  | clearContext c => (x.clear c).map .counted id
  | snapshot c => (.listed (x.snapshot c), x)
  | contextCount => (.counted x.contextCount, x)

def askAll (s : StoreId) : List (ThreadId × StoreCall) → Act (List Answer)
  | [] => pure []
  | (thread, k) :: rest => do
    resume thread
    let answer ← k.ask s
    let answers ← askAll s rest
    pure (answer :: answers)

def replayAll (x : Chronicle) : List StoreCall → List Answer × Chronicle
  | [] => ([], x)
  | k :: rest =>
    let (answer, y) := k.replay x
    let (answers, z) := replayAll y rest
    (answer :: answers, z)

end StoreCall

namespace Chronicle

variable {x : Chronicle} {o o' : Owner} {t : Tag}

theorem mem_tagsOf : t ∈ x.tagsOf o ↔ (o, t) ∈ x.entries := by
  simp [tagsOf]

theorem tagsOf_cons (e : Owner × Tag) (rest : List (Owner × Tag)) :
    tagsOf o ⟨e :: rest⟩ = if e.1 = o then e.2 :: tagsOf o ⟨rest⟩ else tagsOf o ⟨rest⟩ := by
  unfold tagsOf
  by_cases he : e.1 = o <;> simp [he]

theorem tagsOf_append (entries : List (Owner × Tag)) (tags : List Tag) :
    tagsOf o' ⟨entries ++ tags.map fun t => (o, t)⟩ =
      if o' = o then tagsOf o ⟨entries⟩ ++ tags else tagsOf o' ⟨entries⟩ := by
  have hnew : tagsOf o' ⟨tags.map fun t => (o, t)⟩ = if o' = o then tags else [] := by
    unfold tagsOf
    by_cases ho : o' = o
    · subst ho
      rw [if_pos rfl, List.filter_eq_self.2 (by simp), List.map_map]
      exact List.map_id tags
    · simp [ho, Ne.symm ho]
  have happend : tagsOf o' ⟨entries ++ tags.map fun t => (o, t)⟩ =
      tagsOf o' ⟨entries⟩ ++ tagsOf o' ⟨tags.map fun t => (o, t)⟩ := by simp [tagsOf]
  rw [happend, hnew]
  by_cases ho : o' = o <;> simp [ho]

theorem tagsOf_delete (entries : List (Owner × Tag)) :
    tagsOf o' ⟨deleteLatest (o, t) entries⟩ =
      if o' = o then deleteLatest t (tagsOf o ⟨entries⟩) else tagsOf o' ⟨entries⟩ := by
  induction entries with
  | nil => by_cases ho : o' = o <;> simp [deleteLatest, tagsOf, ho]
  | cons e rest ih =>
    have hmem : (o, t) ∈ rest ↔ t ∈ tagsOf o ⟨rest⟩ := mem_tagsOf.symm
    by_cases hlater : (o, t) ∈ rest
    · rw [deleteLatest, if_pos hlater, tagsOf_cons, ih]
      by_cases ho : o' = o
      · subst ho
        by_cases he : e.1 = o'
        · simp only [if_pos he, if_true, tagsOf_cons]
          rw [deleteLatest, if_pos (hmem.1 hlater)]
        · simp [he, tagsOf_cons]
      · simp [ho, tagsOf_cons]
    · rw [deleteLatest, if_neg hlater]
      by_cases he : e = (o, t)
      · subst he
        rw [if_pos rfl]
        by_cases ho : o' = o
        · subst ho
          rw [if_pos rfl, tagsOf_cons, if_pos rfl, deleteLatest, if_neg fun h => hlater (hmem.2 h),
            if_pos rfl]
        · rw [if_neg ho, tagsOf_cons, if_neg (Ne.symm ho)]
      · rw [if_neg he]
        by_cases ho : o' = o
        · subst ho
          rw [if_pos rfl, tagsOf_cons]
          by_cases heo : e.1 = o'
          · have het : e.2 ≠ t := fun het => he (Prod.ext heo het)
            rw [if_pos heo, deleteLatest, if_neg fun h => hlater (hmem.2 h), if_neg het]
          · rw [if_neg heo, deleteLatest_of_notMem fun h => hlater (hmem.2 h)]
        · rw [if_neg ho]

theorem tagsOf_detach : (x.detach o t).2.tagsOf o' =
    if o' = o then removeLatest t (x.tagsOf o) else x.tagsOf o' := by
  rw [removeLatest_eq]
  exact tagsOf_delete x.entries

theorem found_detach : (x.detach o t).1 = decide (t ∈ x.tagsOf o) :=
  decide_eq_decide.2 mem_tagsOf.symm

theorem detachAll_eq (batch : List Tag) :
    (x.detachAll o batch).1 = (removeBatch batch (x.tagsOf o)).2 ∧ ∀ o',
      (x.detachAll o batch).2.tagsOf o' =
        if o' = o then (removeBatch batch (x.tagsOf o)).1 else x.tagsOf o' := by
  induction batch with
  | nil =>
    refine ⟨rfl, fun o' => ?_⟩
    by_cases ho : o' = o
    · rw [if_pos ho, ho]
      rfl
    · rw [if_neg ho]
      rfl
  | cons t rest ih =>
    obtain ⟨hcount, htags⟩ := ih
    have hown : (x.detachAll o rest).2.tagsOf o = (removeBatch rest (x.tagsOf o)).1 := by
      rw [htags, if_pos rfl]
    have hstep : removeBatch (t :: rest) (x.tagsOf o) =
        if t ∈ (removeBatch rest (x.tagsOf o)).1 then
          (removeLatest t (removeBatch rest (x.tagsOf o)).1, (removeBatch rest (x.tagsOf o)).2 + 1)
        else removeBatch rest (x.tagsOf o) := rfl
    have hnext : x.detachAll o (t :: rest) =
        (if ((x.detachAll o rest).2.detach o t).1 then (x.detachAll o rest).1 + 1
          else (x.detachAll o rest).1, ((x.detachAll o rest).2.detach o t).2) := rfl
    rw [hnext, hstep, found_detach, hown, hcount]
    dsimp only
    by_cases ht : t ∈ (removeBatch rest (x.tagsOf o)).1
    · simp only [ht, decide_true, if_true, true_and]
      intro o'
      rw [tagsOf_detach, hown, htags]
      by_cases ho : o' = o <;> simp [ho]
    · simp only [ht, decide_false, Bool.false_eq_true, if_false, true_and]
      intro o'
      rw [tagsOf_detach, hown, htags]
      by_cases ho : o' = o
      · rw [if_pos ho, if_pos ho, removeLatest_eq, deleteLatest_of_notMem ht]
      · rw [if_neg ho, if_neg ho]

theorem tagsOf_clear (c : ContextId) : (x.clear c).2.tagsOf o =
    if o = .context c then [] else x.tagsOf o := by
  unfold tagsOf clear
  dsimp only
  rw [List.filter_filter]
  by_cases ho : o = .context c
  · rw [if_pos ho, List.map_eq_nil_iff, List.filter_eq_nil_iff]
    simp [ho]
  · rw [if_neg ho]
    congr 1
    apply List.filter_congr
    intro e _
    by_cases he : e.1 = o <;> simp [he, ho]

theorem clear_fst (c : ContextId) : (x.clear c).1 = (x.tagsOf (.context c)).length := by
  unfold tagsOf clear
  rw [List.length_map, List.countP_eq_length_filter]

theorem mem_contexts_iff (c : ContextId) :
    c ∈ (x.entries.filterMap (·.1.context?)).dedup ↔ x.tagsOf (.context c) ≠ [] := by
  have howner : ∀ o : Owner, o.context? = some c ↔ o = .context c := by
    intro o
    cases o <;> simp [Owner.context?]
  rw [List.mem_dedup, List.mem_filterMap, List.ne_nil_iff_exists_cons]
  constructor
  · rintro ⟨e, he, hc⟩
    have hmem : e.2 ∈ x.tagsOf (.context c) := by
      rw [mem_tagsOf, ← (howner e.1).1 hc]
      exact he
    exact List.ne_nil_iff_exists_cons.1 (List.ne_nil_of_mem hmem)
  · rintro ⟨t, rest, hcons⟩
    have hmem : t ∈ x.tagsOf (.context c) := by simp [hcons]
    exact ⟨(.context c, t), mem_tagsOf.1 hmem, rfl⟩

end Chronicle
end ProfilingAgent

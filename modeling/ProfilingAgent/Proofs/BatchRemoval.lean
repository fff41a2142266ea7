import Mathlib.Algebra.BigOperators.Group.Finset.Basic
import ProfilingAgent.Proofs.Chronicle

set_option autoImplicit false

namespace ProfilingAgent

open Act Program

/-- Each tag without its latest occurrences, as many as the batch has. A tag stays where at least that
many occurrences of it come later. -/
def thinned (batch : List Tag) : List Tag → List Tag
  | [] => []
  | t :: rest => if batch.count t ≤ rest.count t then t :: thinned batch rest else thinned batch rest

section Thinned

variable {a b batch tags : List Tag} {t : Tag}

theorem thinned_congr (h : ∀ t, a.count t = b.count t) (tags : List Tag) : thinned a tags = thinned b tags := by
  induction tags with
  | nil => rfl
  | cons t rest ih => rw [thinned, thinned, h, ih]

theorem thinned_perm (h : a.Perm b) (tags : List Tag) : thinned a tags = thinned b tags :=
  thinned_congr (fun t => h.count_eq t) tags

theorem thinned_nil (tags : List Tag) : thinned [] tags = tags := by
  induction tags with
  | nil => rfl
  | cons t rest ih => rw [thinned, if_pos (by simp), ih]

theorem filter_thinned {p : Tag → Bool} (h : ∀ t ∈ batch, p t = false) (tags : List Tag) :
    (thinned batch tags).filter p = tags.filter p := by
  induction tags with
  | nil => rfl
  | cons t rest ih =>
    rw [thinned]
    by_cases ht : t ∈ batch
    · have hdropped : (t :: rest).filter p = rest.filter p := List.filter_cons_of_neg (by simp [h t ht])
      split
      · rw [hdropped, List.filter_cons_of_neg (by simp [h t ht]), ih]
      · rw [hdropped, ih]
    · rw [if_pos (by simp [List.count_eq_zero.2 ht]), List.filter_cons, List.filter_cons, ih]

theorem count_thinned (batch tags : List Tag) (t : Tag) :
    (thinned batch tags).count t = tags.count t - batch.count t := by
  induction tags with
  | nil => simp [thinned]
  | cons u rest ih =>
    by_cases hu : u = t
    · subst hu
      rw [thinned]
      split
      · rw [List.count_cons_self, List.count_cons_self, ih]
        omega
      · rw [List.count_cons_self, ih]
        omega
    · rw [thinned, List.count_cons_of_ne hu, ← ih]
      split
      · exact List.count_cons_of_ne hu
      · rfl

theorem thinned_thinned (a b tags : List Tag) : thinned b (thinned a tags) = thinned (a ++ b) tags := by
  induction tags with
  | nil => rfl
  | cons t rest ih =>
    have hleft := count_thinned a rest t
    have hboth : (a ++ b).count t = a.count t + b.count t := List.count_append
    by_cases hstays : a.count t ≤ rest.count t
    · rw [thinned, if_pos hstays, thinned, thinned, ih, hleft, hboth]
      by_cases hkept : b.count t ≤ rest.count t - a.count t
      · rw [if_pos hkept, if_pos (by omega)]
      · rw [if_neg hkept, if_neg (by omega)]
    · rw [thinned, if_neg hstays, thinned, if_neg (by omega), ih]

theorem thinned_singleton (t : Tag) (tags : List Tag) : thinned [t] tags = deleteLatest t tags := by
  induction tags with
  | nil => rfl
  | cons u rest ih =>
    rw [thinned, deleteLatest, ih]
    by_cases hu : t = u
    · subst hu
      have hcount : [t].count t ≤ rest.count t ↔ t ∈ rest := by
        rw [List.count_singleton_self, Nat.one_le_iff_ne_zero, ← Nat.pos_iff_ne_zero, List.count_pos_iff]
      simp only [hcount]
      by_cases ht : t ∈ rest
      · rw [if_pos ht, if_pos ht]
      · rw [if_neg ht, if_neg ht, deleteLatest_of_notMem ht]
        rfl
    · have hcount : [t].count u = 0 := List.count_eq_zero.2 (by simpa using Ne.symm hu)
      rw [hcount, if_pos (Nat.zero_le _), if_neg (Ne.symm hu)]
      by_cases ht : t ∈ rest
      · rw [if_pos ht]
      · rw [if_neg ht, deleteLatest_of_notMem ht]

theorem removeBatch_cons (t : Tag) (rest tags : List Tag) : removeBatch (t :: rest) tags =
    if t ∈ (removeBatch rest tags).1 then
      (removeLatest t (removeBatch rest tags).1, (removeBatch rest tags).2 + 1)
    else removeBatch rest tags := rfl

theorem length_removeLatest (h : t ∈ tags) : (removeLatest t tags).length + 1 = tags.length := by
  have hpos := List.length_pos_of_mem h
  unfold removeLatest
  rw [List.length_reverse, List.length_erase_of_mem (List.mem_reverse.2 h), List.length_reverse]
  omega

theorem removeBatch_fst (batch tags : List Tag) : (removeBatch batch tags).1 = thinned batch tags := by
  induction batch with
  | nil => exact (thinned_nil tags).symm
  | cons t rest ih =>
    have hstep : thinned (t :: rest) tags = deleteLatest t (thinned rest tags) := by
      rw [← thinned_singleton, thinned_thinned]
      exact thinned_perm (List.perm_append_singleton t rest).symm tags
    rw [removeBatch_cons, hstep, ← ih]
    split
    · exact removeLatest_eq t _
    · rename_i ht
      exact (deleteLatest_of_notMem ht).symm

theorem length_removeBatch (batch tags : List Tag) :
    (removeBatch batch tags).2 + (removeBatch batch tags).1.length = tags.length := by
  induction batch with
  | nil => exact Nat.zero_add _
  | cons t rest ih =>
    rw [removeBatch_cons]
    split
    · rename_i ht
      have hone := length_removeLatest ht
      dsimp only
      omega
    · exact ih

/-- How many tags of a list a batch takes off: of each tag as many as both have. -/
def common (batch tags : List Tag) : Nat := ∑ t ∈ batch.toFinset, min (batch.count t) (tags.count t)

theorem common_perm (h : a.Perm b) (tags : List Tag) : common a tags = common b tags := by
  unfold common
  rw [List.toFinset_eq_of_perm a b h]
  exact Finset.sum_congr rfl fun t _ => by rw [h.count_eq]

theorem common_add_length_thinned (batch tags : List Tag) :
    common batch tags + (thinned batch tags).length = tags.length := by
  have hleft : ((thinned batch tags : List Tag) : Multiset Tag) = (tags : Multiset Tag) - batch := by
    ext t
    rw [Multiset.count_sub, Multiset.coe_count, Multiset.coe_count, Multiset.coe_count, count_thinned]
  have hcommon : common batch tags = Multiset.card ((tags : Multiset Tag) ∩ batch) := by
    have hsum := Multiset.sum_count_eq_card (s := batch.toFinset) (m := (tags : Multiset Tag) ∩ batch)
      fun t ht => by simpa using (Multiset.mem_inter.1 ht).2
    rw [← hsum]
    unfold common
    refine Finset.sum_congr rfl fun t _ => ?_
    rw [Multiset.count_inter, Multiset.coe_count, Multiset.coe_count, Nat.min_comm]
  have hall := congrArg Multiset.card (Multiset.sub_add_inter (tags : Multiset Tag) batch)
  rw [Multiset.card_add, ← hleft, ← hcommon, Multiset.coe_card, Multiset.coe_card] at hall
  omega

theorem removeBatch_eq (batch tags : List Tag) :
    removeBatch batch tags = (thinned batch tags, common batch tags) := by
  have hremoved := length_removeBatch batch tags
  have hcommon := common_add_length_thinned batch tags
  have hfst := removeBatch_fst batch tags
  refine Prod.ext hfst ?_
  rw [hfst] at hremoved
  dsimp only
  omega

end Thinned

section Common

variable {t : Tag} {tags : List Tag}

theorem common_append (a b tags : List Tag) :
    common (a ++ b) tags = common a tags + common b (thinned a tags) := by
  have hfirst := common_add_length_thinned a tags
  have hsecond := common_add_length_thinned b (thinned a tags)
  have hboth := common_add_length_thinned (a ++ b) tags
  rw [thinned_thinned] at hsecond
  omega

theorem common_singleton_le (t : Tag) (tags : List Tag) : common [t] tags ≤ 1 := by
  unfold common
  rw [List.toFinset_cons, List.toFinset_nil, insert_empty_eq, Finset.sum_singleton,
    List.count_singleton_self]
  exact Nat.min_le_left _ _

end Common

namespace TagStore

def entitled (x : TagStore) (c : ContextId) (tags : List Tag) : TagStore :=
  { x with contexts := x.contexts.put c tags }

structure SameTags (x y : TagStore) : Prop where
  globals : x.globals = y.globals
  contexts : ∀ c, x.contexts.tagsOf c = y.contexts.tagsOf c

theorem SameTags.trans {x y z : TagStore} (h : SameTags x y) (h' : SameTags y z) : SameTags x z :=
  ⟨h.globals.trans h'.globals, fun c => (h.contexts c).trans (h'.contexts c)⟩

variable (x : TagStore) (c : ContextId)

theorem entitled_tagsOf (tags : List Tag) (d : ContextId) :
    (x.entitled c tags).contexts.tagsOf d = if d = c then tags else x.contexts.tagsOf d :=
  ContextTags.tagsOf_put x.contexts c d tags

theorem sameTags_entitled : SameTags x (x.entitled c (x.contexts.tagsOf c)) where
  globals := rfl
  contexts d := by
    rw [entitled_tagsOf]
    by_cases hd : d = c
    · rw [if_pos hd, hd]
    · rw [if_neg hd]

theorem sameTags_entitled_entitled (a b : List Tag) :
    SameTags ((x.entitled c a).entitled c b) (x.entitled c b) where
  globals := rfl
  contexts d := by
    rw [entitled_tagsOf, entitled_tagsOf, entitled_tagsOf]
    by_cases hd : d = c
    · rw [if_pos hd, if_pos hd]
    · rw [if_neg hd, if_neg hd, if_neg hd]

theorem removeTags_eq (batch : List Tag) : x.removeTags c batch =
    (x.entitled c (thinned batch (x.contexts.tagsOf c)), common batch (x.contexts.tagsOf c)) := by
  unfold removeTags
  rw [removeBatch_eq]
  rfl

theorem replaceGlobals_eq {new : List Tag} (hnew : ∀ t ∈ new, t.isValid = true) (old : List Tag) :
    x.replaceGlobals old new = .ok { x with globals := thinned old x.globals ++ new } := by
  unfold replaceGlobals
  rw [(Tag.checkAll_eq_ok_iff new).2 hnew, removeBatch_fst]

end TagStore

namespace Program

variable {p : Program} {s : StoreId}

/-- Whatever order the tags of a batch are taken off in, one by one, each is found as often as the batch
and the context both have it. -/
theorem removeEach_yields (h : p.Aware s) (c : ContextId) (order : List Tag) :
    ∃ answers left, Yields (order.mapM (removeTag s c)) p s answers left ∧
      left.SameTags ((p.stores s).tags.entitled c (thinned order ((p.stores s).tags.contexts.tagsOf c))) ∧
      answers.count true = common order ((p.stores s).tags.contexts.tagsOf c) := by
  induction order generalizing p with
  | nil =>
    refine ⟨[], (p.stores s).tags, ⟨p, rfl, .refl p s⟩, ?_, rfl⟩
    rw [thinned_nil]
    exact (p.stores s).tags.sameTags_entitled c
  | cons t rest ih =>
    have hremoved : Yields (removeTags s c [t]) p s _ _ := removeTags_yields h c [t]
    rw [TagStore.removeTags_eq] at hremoved
    have hone : Yields (removeTag s c t) p s
        (decide (common [t] ((p.stores s).tags.contexts.tagsOf c) = 1)) _ :=
      hremoved.bind_pure fun n => decide (n = 1)
    obtain ⟨q, hon, hq⟩ := hone
    obtain ⟨answers, left, ⟨r, hrest, hr⟩, hsame, hcount⟩ := ih (hq.aware.2 h)
    rw [hq.tags, TagStore.entitled_tagsOf, if_pos rfl] at hsame hcount
    rw [thinned_thinned] at hsame
    refine ⟨decide (common [t] ((p.stores s).tags.contexts.tagsOf c) = 1) :: answers, left,
      ⟨r, ?_, hq.trans hr⟩, hsame.trans (TagStore.sameTags_entitled_entitled _ c _ _), ?_⟩
    · rw [List.mapM_cons, on_bind, hon]
      dsimp only
      rw [on_bind, hrest]
      rfl
    · have hle := common_singleton_le t ((p.stores s).tags.contexts.tagsOf c)
      have hall := common_append [t] rest ((p.stores s).tags.contexts.tagsOf c)
      rw [List.singleton_append] at hall
      rw [List.count_cons, hcount, hall]
      by_cases hfound : common [t] ((p.stores s).tags.contexts.tagsOf c) = 1
      · simp [hfound, Nat.add_comm]
      · have hnone : common [t] ((p.stores s).tags.contexts.tagsOf c) = 0 := by omega
        simp [hnone]

/-- In a store that has seen every fork, a batch in any order takes the same tags off a context: each
tag's latest occurrences, as many as the batch has of it. The answer counts them, and the context is gone
if it has none left. Taking the tags off one by one leaves the same and finds as many. Global tags are
exchanged in the same way, with the new ones behind what is left of the old. -/
theorem batches_removed_as_multisets (h : p.Aware s) (c : ContextId) (batch : List Tag) :
    ∃ left : TagStore, left.globals = (p.stores s).tags.globals ∧
      (∀ d, left.contexts.tagsOf d = if d = c then thinned batch ((p.stores s).tags.contexts.tagsOf c)
        else (p.stores s).tags.contexts.tagsOf d) ∧
      (left.contexts.holds c = false ↔ thinned batch ((p.stores s).tags.contexts.tagsOf c) = []) ∧
      ∀ order : List Tag, order.Perm batch →
        Yields (removeTags s c order) p s (common batch ((p.stores s).tags.contexts.tagsOf c)) left ∧
        (∃ answers last, Yields (order.mapM (removeTag s c)) p s answers last ∧ last.SameTags left ∧
          answers.count true = common batch ((p.stores s).tags.contexts.tagsOf c)) ∧
        ∀ new : List Tag, (∀ t ∈ new, t.isValid = true) →
          Yields (replaceGlobals s order new) p s (.ok ()) { (p.stores s).tags with
            globals := thinned batch (p.stores s).tags.globals ++ new } := by
  refine ⟨(p.stores s).tags.entitled c (thinned batch ((p.stores s).tags.contexts.tagsOf c)), rfl,
    fun d => TagStore.entitled_tagsOf _ c _ d, ?_, fun order horder => ⟨?_, ?_, fun new hnew => ?_⟩⟩
  · rw [← Bool.not_eq_true, ContextTags.holds_iff, not_not, TagStore.entitled_tagsOf, if_pos rfl]
  · have hbatch : Yields (removeTags s c order) p s _ _ := removeTags_yields h c order
    rw [TagStore.removeTags_eq, thinned_perm horder, common_perm horder] at hbatch
    exact hbatch
  · obtain ⟨answers, last, hlast, hsame, hcount⟩ := removeEach_yields h c order
    rw [thinned_perm horder] at hsame
    exact ⟨answers, last, hlast, hsame, hcount.trans (common_perm horder _)⟩
  · have hexchanged : Yields (replaceGlobals s order new) p s _ _ :=
      revise_yields h (·.replaceGlobals order new)
    rw [TagStore.replaceGlobals_eq _ hnew, thinned_perm horder] at hexchanged
    exact hexchanged

def crowded : Program :=
  let tags := [⟨"zone", "a"⟩, ⟨"team", "b"⟩, ⟨"zone", "a"⟩, ⟨"zone", "a"⟩]
  (start 1 false).retag 0 ⟨tags, ContextTags.empty.put ⟨7⟩ tags⟩

theorem batches_removed_as_multisets_crowded :
    crowded.Aware 0 ∧ [⟨"team", "b"⟩, ⟨"user", "c"⟩, ⟨"zone", "a"⟩, ⟨"zone", "a"⟩].Perm
      [(⟨"zone", "a"⟩ : Tag), ⟨"user", "c"⟩, ⟨"team", "b"⟩, ⟨"zone", "a"⟩] ∧
    (∀ t ∈ [(⟨"team", "d"⟩ : Tag)], t.isValid = true) ∧
    ∃ left, left.contexts.tagsOf ⟨7⟩ = [⟨"zone", "a"⟩] ∧ left.contexts.holds ⟨7⟩ = true ∧
      Yields (removeTags 0 ⟨7⟩ [⟨"team", "b"⟩, ⟨"user", "c"⟩, ⟨"zone", "a"⟩, ⟨"zone", "a"⟩]) crowded 0 3 left ∧
      Yields (replaceGlobals 0 [⟨"team", "b"⟩, ⟨"user", "c"⟩, ⟨"zone", "a"⟩, ⟨"zone", "a"⟩] [⟨"team", "d"⟩])
        crowded 0 (.ok ()) { (crowded.stores 0).tags with globals := [⟨"zone", "a"⟩, ⟨"team", "d"⟩] } := by
  have haware : crowded.Aware 0 := rfl
  have horder : [⟨"team", "b"⟩, ⟨"user", "c"⟩, ⟨"zone", "a"⟩, ⟨"zone", "a"⟩].Perm
      [(⟨"zone", "a"⟩ : Tag), ⟨"user", "c"⟩, ⟨"team", "b"⟩, ⟨"zone", "a"⟩] := by decide
  have hvalid : ∀ t ∈ [(⟨"team", "d"⟩ : Tag)], t.isValid = true := by decide
  obtain ⟨left, -, htags, hheld, hbatch⟩ := batches_removed_as_multisets haware ⟨7⟩
    [⟨"zone", "a"⟩, ⟨"user", "c"⟩, ⟨"team", "b"⟩, ⟨"zone", "a"⟩]
  obtain ⟨hremoved, -, hexchanged⟩ := hbatch _ horder
  have hleft : thinned [⟨"zone", "a"⟩, ⟨"user", "c"⟩, ⟨"team", "b"⟩, ⟨"zone", "a"⟩]
      ((crowded.stores 0).tags.contexts.tagsOf ⟨7⟩) = [⟨"zone", "a"⟩] := by decide
  refine ⟨haware, horder, hvalid, left, (htags ⟨7⟩).trans hleft, ?_, hremoved, hexchanged _ hvalid⟩
  rw [hleft] at hheld
  simpa using hheld

end Program
end ProfilingAgent

import ProfilingAgent.Proofs.HostContexts

set_option autoImplicit false

namespace ProfilingAgent

open Act Program

namespace Host

variable {p p₀ q : Program} {lists : ContextId → List Tag} {a b : UInt64}

inductive ThreadCall
  | add (thread : UInt64) (key value : HostText)
  | remove (thread : UInt64) (key value : HostText)

def tagOf (key value : HostText) : Option Tag :=
  match given key, given value with
  | .text k, .text v => some ⟨k, v⟩
  | _, _ => none

namespace ThreadCall

def thread : ThreadCall → UInt64
  | add thread _ _ | remove thread _ _ => thread

def perform : ThreadCall → Act Bool
  | add thread key value => addThreadTag thread key value
  | remove thread key value => removeThreadTag thread key value

def performAll : List ThreadCall → Act (List Bool)
  | [] => pure []
  | k :: rest => do
    let answer ← k.perform
    let answers ← performAll rest
    pure (answer :: answers)

def effect (tags : List Tag) : ThreadCall → List Tag
  | add _ key value =>
    match tagOf key value with
    | some t => if t.isValid then tags ++ [t] else tags
    | none => tags
  | remove _ key value =>
    match tagOf key value with
    | some t => removeLatest t tags
    | none => tags

def adds (t : Tag) : ThreadCall → Prop
  | add _ key value => tagOf key value = some t
  | remove _ _ _ => False

def tag : ThreadCall → Option Tag
  | add _ key value | remove _ key value => tagOf key value

def about (p : Program) (k : ThreadCall) : ContextId := p.hostContext k.thread

end ThreadCall

theorem required_on (name : String) (t : HostText) : ∃ notes, (required name t).on p =
    (.ok (match given t with | .text s => some s | _ => none), p.annotate notes) := by
  unfold required
  cases given t with
  | nothing => exact ⟨_, rfl⟩
  | invalid => exact ⟨_, rfl⟩
  | text s => exact ⟨p.notes, rfl⟩

theorem requiredTag_on (key value : HostText) : ∃ notes,
    (requiredTag key value).on p = (.ok (tagOf key value), p.annotate notes) := by
  obtain ⟨notes, hkey⟩ := required_on (p := p) "key" key
  obtain ⟨notes', hvalue⟩ := required_on (p := p.annotate notes) "value" value
  refine ⟨notes', ?_⟩
  unfold requiredTag tagOf
  rw [on_bind, hkey]
  dsimp only
  rw [on_bind, hvalue]
  cases given key <;> cases given value <;> rfl

/-- Nothing is said about texts that can be used. -/
theorem requiredTag_of_tag {key value : HostText} {t : Tag} (ht : tagOf key value = some t) :
    (requiredTag key value).on p = (.ok (some t), p) := by
  unfold tagOf at ht
  unfold requiredTag required
  cases hkey : given key <;> cases hvalue : given value <;> rw [hkey, hvalue] at ht <;> cases ht
  rfl

theorem guarded_on {α : Type} {x : Act α} {fallback r : α} (h : x.on p = (.ok r, q)) :
    (guarded fallback x).on p = (.ok r, q) := by
  unfold guarded
  rw [on_tryCatch, h]

/-- With a tag, a call goes on to the store of the host's agent and to the context of the thread. -/
theorem call_on {thread : UInt64} {key value : HostText} {t : Tag} {s : StoreId} {c : ContextId}
    {f : StoreId → ContextId → Tag → Act Bool} {answer : Bool} {r u : Program}
    (ht : tagOf key value = some t) (hstore : callStore.on p = (.ok s, q))
    (hcontext : (threadOf thread).on q = (.ok c, u)) (hcall : (f s c t).on u = (.ok answer, r)) :
    (guarded false (do
      match ← requiredTag key value with
      | none => pure false
      | some t =>
        let s ← callStore
        let c ← threadOf thread
        f s c t)).on p = (.ok answer, r) := by
  refine guarded_on ?_
  rw [on_bind, requiredTag_of_tag ht]
  dsimp only
  rw [on_bind, hstore]
  dsimp only
  rw [on_bind, hcontext]
  exact hcall

theorem call_hosts (h : Hosts p₀ lists p) (thread : UInt64) {key value : HostText} {t : Tag}
    (ht : tagOf key value = some t) {f : StoreId → ContextId → Tag → Act Bool}
    {lists' : ContextId → List Tag}
    (hf : ∀ a q, Hosts p₀ lists q → q.hostAgent = some a → ∃ answer r,
      (f (q.agents a).store (p₀.hostContext thread) t).on q = (.ok answer, r) ∧ Hosts p₀ lists' r) :
    ∃ answer q, (guarded false (do
      match ← requiredTag key value with
      | none => pure false
      | some t =>
        let s ← callStore
        let c ← threadOf thread
        f s c t)).on p = (.ok answer, q) ∧ Hosts p₀ lists' q := by
  obtain ⟨a, q, hstore, hq, ha⟩ := h.callStore
  obtain ⟨r, hcontext, hr, hhost, hagents⟩ := hq.threadOf thread
  obtain ⟨answer, left, hcall, hleft⟩ := hf a r hr (hhost.trans ha)
  rw [hagents] at hcall
  exact ⟨answer, left, call_on ht hstore hcontext hcall, hleft⟩

theorem call_refused {f : Tag → Act Bool} {key value : HostText} (ht : tagOf key value = none) :
    ∃ notes, (guarded false (do
      match ← requiredTag key value with
      | none => pure false
      | some t => f t)).on p = (.ok false, p.annotate notes) := by
  obtain ⟨notes, hon⟩ := requiredTag_on (p := p) key value
  refine ⟨notes, guarded_on ?_⟩
  rw [on_bind, hon]
  dsimp only
  rw [ht]
  rfl

theorem ThreadCall.perform_untagged {k : ThreadCall} (hk : k.tag = none) :
    ∃ notes, k.perform.on p = (.ok false, p.annotate notes) := by
  cases k with
  | add thread key value => exact call_refused hk
  | remove thread key value => exact call_refused hk

theorem ThreadCall.effect_untagged {k : ThreadCall} (hk : k.tag = none) (tags : List Tag) :
    k.effect tags = tags := by
  cases k with
  | add thread key value => simp only [effect, show tagOf key value = none from hk]
  | remove thread key value => simp only [effect, show tagOf key value = none from hk]

/-- A call returns and changes the tags of one context. -/
theorem ThreadCall.perform_hosts (h : Hosts p₀ lists p) (k : ThreadCall) :
    ∃ answer q, k.perform.on p = (.ok answer, q) ∧
      Hosts p₀ (Function.update lists (k.about p₀) (k.effect (lists (k.about p₀)))) q := by
  cases htag : k.tag with
  | none =>
    obtain ⟨notes, hon⟩ := perform_untagged (p := p) htag
    refine ⟨false, _, hon, ?_⟩
    rw [effect_untagged htag, Function.update_eq_self]
    exact h.annotate notes
  | some t =>
    cases k with
    | add thread key value =>
      change tagOf key value = some t at htag
      refine call_hosts h thread htag fun a q hq ha => ?_
      obtain ⟨result, r, hadd, hr⟩ := hq.addTag ha (p₀.hostContext thread) t
      simp only [effect, htag]
      rw [on_bind (Program.addTag _ _ _), hadd]
      cases result with
      | ok _ => exact ⟨true, r, rfl, hr⟩
      | error e => exact ⟨false, r.annotate _, rfl, hr.annotate _⟩
    | remove thread key value =>
      change tagOf key value = some t at htag
      refine call_hosts h thread htag fun a q hq ha => ?_
      obtain ⟨found, r, hremove, hr⟩ := hq.removeTag ha (p₀.hostContext thread) t
      simp only [effect, htag]
      exact ⟨found, r, hremove, hr⟩

def listsAfter (p : Program) (lists : ContextId → List Tag) (calls : List ThreadCall) :
    ContextId → List Tag :=
  calls.foldl (fun lists k => Function.update lists (k.about p) (k.effect (lists (k.about p)))) lists

theorem ThreadCall.performAll_hosts (h : Hosts p₀ lists p) (calls : List ThreadCall) :
    ∃ answers q, (performAll calls).on p = (.ok answers, q) ∧
      Hosts p₀ (listsAfter p₀ lists calls) q := by
  induction calls generalizing p lists with
  | nil => exact ⟨[], p, rfl, h⟩
  | cons k rest ih =>
    obtain ⟨answer, q, hon, hq⟩ := k.perform_hosts h
    obtain ⟨answers, r, hon', hr⟩ := ih hq
    refine ⟨answer :: answers, r, ?_, hr⟩
    unfold performAll
    rw [on_bind, hon]
    dsimp only
    rw [on_bind, hon']
    rfl

theorem listsAfter_apply (p : Program) (lists : ContextId → List Tag) (calls : List ThreadCall)
    (c : ContextId) : listsAfter p lists calls c =
      (calls.filter (·.about p = c)).foldl ThreadCall.effect (lists c) := by
  induction calls generalizing lists with
  | nil => rfl
  | cons k rest ih =>
    refine (ih _).trans ?_
    change List.foldl _ (Function.update lists (k.about p) (k.effect (lists (k.about p))) c) _ = _
    by_cases hk : k.about p = c
    · subst hk
      rw [List.filter_cons_of_pos (by simp), List.foldl_cons, Function.update_self]
    · rw [List.filter_cons_of_neg (by simpa using hk), Function.update_of_ne (Ne.symm hk)]

def afterCalls (p : Program) (calls : List ThreadCall) : Program :=
  ((ThreadCall.performAll calls).on p).2

def shown (thread : UInt64) : Act (List Tag) := do
  let s ← hostedStore
  snapshot s (← threadOf thread)

theorem shown_on (h : Hosts p₀ lists p) (thread : UInt64) : ∃ q,
    (shown thread).on p = (.ok (q.hostGlobals ++ lists (p₀.hostContext thread)), q) := by
  obtain ⟨a, q, hstore, hq, ha⟩ := h.hostedStore
  obtain ⟨r, hcontext, hr, hhost, hagents⟩ := hq.threadOf thread
  obtain ⟨w, hsnapshot⟩ := hr.snapshot (hhost.trans ha) (p₀.hostContext thread)
  refine ⟨w, ?_⟩
  unfold shown
  rw [on_bind, hstore]
  dsimp only
  rw [on_bind, hcontext]
  dsimp only
  rw [← hagents, hsnapshot]

theorem hosts_afterCalls (h : p.Hosting) (calls : List ThreadCall) :
    ∃ answers, (ThreadCall.performAll calls).on p = (.ok answers, afterCalls p calls) ∧
      Hosts p (listsAfter p p.hostLists calls) (afterCalls p calls) := by
  obtain ⟨answers, q, hon, hq⟩ := ThreadCall.performAll_hosts h.hosts calls
  have hafter : afterCalls p calls = q := congrArg Prod.snd hon
  exact ⟨answers, hafter ▸ hon, hafter ▸ hq⟩

theorem hostTags_afterCalls (h : p.Hosting) (calls : List ThreadCall) (thread : UInt64) :
    (afterCalls p calls).hostTags thread =
      (calls.filter (·.about p = p.hostContext thread)).foldl ThreadCall.effect (p.hostTags thread) := by
  obtain ⟨-, -, hafter⟩ := hosts_afterCalls h calls
  unfold hostTags
  rw [hafter.tags, hafter.hostContext, listsAfter_apply]

theorem ThreadCall.count_effect_le {t : Tag} {k : ThreadCall} (h : ¬ k.adds t) (tags : List Tag) :
    (k.effect tags).count t ≤ tags.count t := by
  cases k with
  | add thread key value =>
    cases ht : tagOf key value with
    | none => simp only [effect, ht, Nat.le_refl]
    | some u =>
      have hne : u ≠ t := fun heq => h (ht.trans (congrArg some heq))
      simp only [effect, ht]
      split
      · rw [List.count_append, List.count_singleton, if_neg (by simpa using hne), Nat.add_zero]
      · exact Nat.le_refl _
  | remove thread key value =>
    cases ht : tagOf key value with
    | none => simp only [effect, ht, Nat.le_refl]
    | some u =>
      simp only [effect, ht]
      unfold removeLatest
      rw [List.count_reverse, ← List.count_reverse (l := tags)]
      exact List.erase_sublist.count_le t

theorem count_effects_le {t : Tag} {calls : List ThreadCall} (h : ∀ k ∈ calls, ¬ k.adds t)
    (tags : List Tag) : (calls.foldl ThreadCall.effect tags).count t ≤ tags.count t := by
  induction calls generalizing tags with
  | nil => exact Nat.le_refl _
  | cons k rest ih =>
    exact (ih (fun k' hk' => h k' (List.mem_cons_of_mem k hk')) _).trans
      (ThreadCall.count_effect_le (h k List.mem_cons_self) tags)

/-- A tag that is added for one thread alone is not there for another one any more often than before. -/
def Unseen (p : Program) (a b : UInt64) : Prop :=
  ∀ (calls : List ThreadCall) (t : Tag), (∀ k ∈ calls, k.adds t → k.thread = a) →
    ((afterCalls p calls).hostTags b).count t ≤ (p.hostTags b).count t

/-- The tags of one thread are the same as if there had been no calls for the other one. -/
def Untouched (p : Program) (a b : UInt64) : Prop :=
  ∀ calls : List ThreadCall, (afterCalls p calls).hostTags a =
    (afterCalls p (calls.filter (·.thread ≠ b))).hostTags a

theorem ThreadCall.effect_add {key value : HostText} {t : Tag} (ht : tagOf key value = some t)
    (hvalid : t.isValid = true) (thread : UInt64) (tags : List Tag) :
    (add thread key value).effect tags = tags ++ [t] := by
  simp only [effect, ht, if_pos hvalid]

theorem ThreadCall.effect_remove {key value : HostText} {t : Tag} (ht : tagOf key value = some t)
    (thread : UInt64) (tags : List Tag) :
    (remove thread key value).effect tags = removeLatest t tags := by
  simp only [effect, ht]

section Contexts

variable (hp : p.Hosting)

include hp

theorem unseen_of_ne (h : p.hostContext a ≠ p.hostContext b) : Unseen p a b := by
  intro calls t hadds
  rw [hostTags_afterCalls hp]
  refine count_effects_le (fun k hk hadd => h ?_) _
  obtain ⟨hmem, habout⟩ := List.mem_filter.1 hk
  rw [← hadds k hmem hadd]
  exact of_decide_eq_true habout

theorem untouched_of_ne (h : p.hostContext a ≠ p.hostContext b) : Untouched p a b := by
  intro calls
  rw [hostTags_afterCalls hp, hostTags_afterCalls hp, List.filter_filter]
  congr 1
  refine List.filter_congr fun k _ => ?_
  by_cases habout : k.about p = p.hostContext a
  · have hthread : k.thread ≠ b := fun hk => h (habout.symm.trans (congrArg p.hostContext hk))
    simp [habout, hthread]
  · simp [habout]

section Shared

variable {key value : HostText} {t : Tag} (ht : tagOf key value = some t) (hvalid : t.isValid = true)
  (h : p.hostContext a = p.hostContext b)

include ht hvalid h

theorem not_unseen_of_eq : ¬ Unseen p a b := by
  intro hunseen
  have hle := hunseen [.add a key value] t fun k hk _ => by
    rw [List.mem_singleton.1 hk]
    rfl
  have habout : [ThreadCall.add a key value].filter (·.about p = p.hostContext b) = [.add a key value] := by
    simp [ThreadCall.about, ThreadCall.thread, h]
  rw [hostTags_afterCalls hp, habout, List.foldl_cons, ThreadCall.effect_add ht hvalid,
    List.foldl_nil, List.count_append, List.count_singleton_self] at hle
  omega

theorem not_untouched_of_eq (hne : a ≠ b) : ¬ Untouched p a b := by
  intro huntouched
  have heq := huntouched [.add a key value, .remove b key value]
  have hboth : [ThreadCall.add a key value, .remove b key value].filter (·.about p = p.hostContext a) =
      [.add a key value, .remove b key value] := by
    simp [ThreadCall.about, ThreadCall.thread, h]
  have hkept : [ThreadCall.add a key value, .remove b key value].filter (·.thread ≠ b) =
      [.add a key value] := by
    simp [ThreadCall.thread, hne]
  have habout : [ThreadCall.add a key value].filter (·.about p = p.hostContext a) = [.add a key value] := by
    simp [ThreadCall.about, ThreadCall.thread]
  rw [hkept, hostTags_afterCalls hp, hostTags_afterCalls hp, hboth, habout, List.foldl_cons,
    ThreadCall.effect_add ht hvalid, List.foldl_cons, ThreadCall.effect_remove ht, removeLatest_append,
    List.foldl_nil, List.foldl_cons, ThreadCall.effect_add ht hvalid, List.foldl_nil] at heq
  exact absurd (List.self_eq_append_right.1 heq) (List.cons_ne_nil _ _)

end Shared

end Contexts
end Host

theorem ContextId.ofHostThread_congr {a b : UInt64} {pid : UInt32} (hpid : pid ≠ 0)
    (h : a % pid.toUInt64 = b % pid.toUInt64) : ofHostThread a pid = ofHostThread b pid := by
  unfold ofHostThread
  rw [if_neg hpid, if_neg hpid, h]

namespace Host

/-- The calls of a host for threads return, and a snapshot of a thread shows the global tags and then
what the calls have made of the tags of the thread's context. Two threads are kept apart exactly if their
numbers, reduced modulo the process id, have different hashes; if the reduced numbers are the same, then
each of the two shows and loses the tags of the other. -/
theorem host_threads_apart {p : Program} {a b : UInt64} (hp : p.Hosting) (ha : a ≠ 0) (hb : b ≠ 0)
    (hne : a ≠ b) :
    (∀ calls, ∃ answers q, (ThreadCall.performAll calls).on p = (.ok answers, afterCalls p calls) ∧
      (shown b).on (afterCalls p calls) =
        (.ok (q.hostGlobals ++ (afterCalls p calls).hostTags b), q)) ∧
    (Unseen p a b ↔ ContextId.ofHostThread a p.pid ≠ ContextId.ofHostThread b p.pid) ∧
    (Untouched p a b ↔ ContextId.ofHostThread a p.pid ≠ ContextId.ofHostThread b p.pid) ∧
    (p.pid ≠ 0 → a % p.pid.toUInt64 = b % p.pid.toUInt64 → ¬ Unseen p a b ∧ ¬ Untouched p a b) := by
  have hcontexts : p.hostContext a ≠ p.hostContext b ↔
      ContextId.ofHostThread a p.pid ≠ ContextId.ofHostThread b p.pid := by
    unfold hostContext
    rw [if_neg ha, if_neg hb]
  have ht : tagOf (some [0x6b]) (some [0x76]) = some ⟨"k", "v"⟩ := by decide +kernel
  have hvalid : (⟨"k", "v"⟩ : Tag).isValid = true := by decide
  have hunseen : Unseen p a b ↔ p.hostContext a ≠ p.hostContext b :=
    ⟨fun h heq => not_unseen_of_eq hp ht hvalid heq h, unseen_of_ne hp⟩
  have huntouched : Untouched p a b ↔ p.hostContext a ≠ p.hostContext b :=
    ⟨fun h heq => not_untouched_of_eq hp ht hvalid heq hne h, untouched_of_ne hp⟩
  rw [hunseen, huntouched, hcontexts]
  refine ⟨fun calls => ?_, Iff.rfl, Iff.rfl, fun hpid hmod => ?_⟩
  · obtain ⟨answers, hon, hafter⟩ := hosts_afterCalls hp calls
    obtain ⟨q, hshown⟩ := shown_on hafter.toHosting.hosts b
    exact ⟨answers, q, hon, hshown⟩
  · have hsame := ContextId.ofHostThread_congr hpid hmod
    exact ⟨not_not.2 hsame, not_not.2 hsame⟩

/-- In a process that has just started, the first two threads are kept apart. -/
theorem host_threads_apart_adjacent :
    (Program.start 7 false).Hosting ∧ (1 : UInt64) ≠ 0 ∧ (2 : UInt64) ≠ 0 ∧ (1 : UInt64) ≠ 2 ∧
      Unseen (Program.start 7 false) 1 2 ∧ Untouched (Program.start 7 false) 1 2 := by
  have hosting : (Program.start 7 false).Hosting := ⟨(Reachable.start 7 false).atRest, nofun, .inl nofun⟩
  have hcontexts : ContextId.ofHostThread 1 7 ≠ ContextId.ofHostThread 2 7 := by decide +kernel
  obtain ⟨-, hunseen, huntouched, -⟩ :=
    host_threads_apart (a := 1) (b := 2) hosting (by decide) (by decide) (by decide)
  exact ⟨hosting, by decide, by decide, by decide, hunseen.2 hcontexts, huntouched.2 hcontexts⟩

/-- A tag that was added for the thread whose number is the process id is shown for the thread whose
number is twice the process id, and is gone once it is removed there. -/
theorem tags_of_congruent_threads_shared :
    (7 : UInt64) ≠ 0 ∧ (14 : UInt64) ≠ 0 ∧ (7 : UInt64) ≠ 14 ∧
      tagOf (some [0x6b]) (some [0x76]) = some ⟨"k", "v"⟩ ∧
      ((shown 14).on (afterCalls (Program.start 7 false) [.add 7 (some [0x6b]) (some [0x76])])).1 =
        .ok [⟨"k", "v"⟩] ∧
      ((shown 7).on (afterCalls (Program.start 7 false) [.add 7 (some [0x6b]) (some [0x76]),
        .remove 14 (some [0x6b]) (some [0x76])])).1 = .ok [] := by
  refine ⟨by decide, by decide, by decide, by decide +kernel, ?_, ?_⟩
  · decide +kernel
  · decide +kernel

end Host
end ProfilingAgent

import ProfilingAgent.Proofs.Reconfiguration

set_option autoImplicit false

namespace ProfilingAgent

open Act Program

/-- Global tags are what users entered and the tags of the current configuration. Entered tags that no
configuration has stand in the order in which they were entered. If no entered tag is a configured one,
then all of them do, and the other tags are those of the current configuration in their order. An entered
tag that equals a configured one can lose its place to it, since the last of equal tags is taken off. -/
structure Mixed (configured entered current tags : List Tag) : Prop where
  balance : (tags : Multiset Tag) = entered + current
  order : tags.filter (· ∉ configured) = entered.filter (· ∉ configured)
  apart : (∀ t ∈ entered, t ∉ configured) →
    tags.filter (· ∉ configured) = entered ∧ tags.filter (· ∈ configured) = current

namespace Mixed

variable {configured entered current tags : List Tag}

theorem filter_of_forall_mem (h : ∀ t ∈ tags, t ∈ configured) :
    tags.filter (· ∉ configured) = [] ∧ tags.filter (· ∈ configured) = tags :=
  ⟨List.filter_eq_nil_iff.2 fun t ht => by simpa using h t ht,
    List.filter_eq_self.2 fun t ht => by simpa using h t ht⟩

theorem filter_of_forall_notMem (h : ∀ t ∈ tags, t ∉ configured) :
    tags.filter (· ∉ configured) = tags ∧ tags.filter (· ∈ configured) = [] :=
  ⟨List.filter_eq_self.2 fun t ht => by simpa using h t ht,
    List.filter_eq_nil_iff.2 fun t ht => by simpa using h t ht⟩

theorem start (configured entered : List Tag) : Mixed configured entered [] entered where
  balance := by simp
  order := rfl
  apart := filter_of_forall_notMem

theorem enter (h : Mixed configured entered current tags) (more : List Tag) :
    Mixed configured (entered ++ more) current (tags ++ more) where
  balance := by
    rw [← Multiset.coe_add, ← Multiset.coe_add, h.balance, add_right_comm]
  order := by rw [List.filter_append, List.filter_append, h.order]
  apart hapart := by
    obtain ⟨hentered, hcurrent⟩ := h.apart fun t ht => hapart t (List.mem_append_left more ht)
    obtain ⟨hkept, hnone⟩ := filter_of_forall_notMem fun t ht => hapart t (List.mem_append_right entered ht)
    rw [List.filter_append, List.filter_append, hentered, hkept, hcurrent, hnone, List.append_nil]
    exact ⟨rfl, rfl⟩

theorem exchange {next : List Tag} (h : Mixed configured entered current tags)
    (hcurrent : ∀ t ∈ current, t ∈ configured) (hnext : ∀ t ∈ next, t ∈ configured) :
    Mixed configured entered next (thinned current tags ++ next) := by
  have hleft : ((thinned current tags : List Tag) : Multiset Tag) = entered := by
    rw [← removeBatch_fst, coe_removeBatch, h.balance, Multiset.add_sub_cancel_right]
  have hkept : (thinned current tags ++ next).filter (· ∉ configured) = tags.filter (· ∉ configured) := by
    rw [List.filter_append, (filter_of_forall_mem hnext).1, List.append_nil,
      filter_thinned fun t ht => by simpa using hcurrent t ht]
  refine ⟨?_, hkept.trans h.order, fun hapart => ⟨hkept.trans (h.apart hapart).1, ?_⟩⟩
  · rw [← Multiset.coe_add, hleft]
  · have hnone : ∀ t ∈ thinned current tags, t ∉ configured := by
      intro t ht
      apply hapart t
      rw [← Multiset.mem_coe, ← hleft]
      exact ht
    rw [List.filter_append, (filter_of_forall_notMem hnone).2, (filter_of_forall_mem hnext).2,
      List.nil_append]

end Mixed

inductive Request
  | start (c : Settings)
  | reconfigure (c : Settings)
  | addGlobal (t : Tag)

namespace Request

def settings? : Request → Option Settings
  | start c | reconfigure c => some c
  | addGlobal _ => none

def tag? : Request → Option Tag
  | start _ | reconfigure _ => none
  | addGlobal t => some t

def configurations (requests : List Request) : List Settings := requests.filterMap settings?

/-- The tags that can be attached among those that are entered, in order. -/
def newTags (requests : List Request) : List Tag := (requests.filterMap tag?).filter (·.isValid)

theorem newTags_of_tag?_eq_none {request : Request} (h : request.tag? = none) (rest : List Request) :
    newTags (request :: rest) = newTags rest := by
  unfold newTags
  rw [List.filterMap_cons_none h]

theorem newTags_addGlobal (t : Tag) (rest : List Request) :
    newTags (.addGlobal t :: rest) = [t].filter (·.isValid) ++ newTags rest := by
  unfold newTags
  rw [← List.filter_append]
  rfl

end Request

def changes (cs : List Settings) : Nat := (cs.zip cs.tail).countP fun e => e.1 ≠ e.2

theorem changes_cons (c d : Settings) (cs : List Settings) :
    changes (c :: d :: cs) = changes (d :: cs) + if c ≠ d then 1 else 0 := by
  unfold changes
  simp [List.countP_cons]

namespace SamplerCall

def started? : SamplerCall → Option Settings
  | start _ c _ => some c
  | _ => none

def isStop : SamplerCall → Bool
  | stop .. => true
  | _ => false

theorem started_start (a : AgentId) (c : Settings) (globals : List Tag) (new : List SamplerCall) :
    (start a c globals :: new).filterMap (·.started?) = c :: new.filterMap (·.started?) := rfl

theorem started_stop (a : AgentId) (flushed : Option (List Tag)) (new : List SamplerCall) :
    (stop a flushed :: new).filterMap (·.started?) = new.filterMap (·.started?) := rfl

end SamplerCall

/-- What the sampler of an agent is told while its agent runs and is given configurations: nothing if one
is the same as before, and otherwise to stop and to start. -/
inductive Told (a : AgentId) : Settings → List Settings → List SamplerCall → Prop
  | done (c : Settings) : Told a c [] []
  | same {c : Settings} {cs : List Settings} {new : List SamplerCall} (h : Told a c cs new) :
    Told a c (c :: cs) new
  | other {c d : Settings} {cs : List Settings} {new : List SamplerCall} {flushed : Option (List Tag)}
    {globals : List Tag} (hne : d ≠ c) (h : Told a d cs new) :
    Told a c (d :: cs) (.stop a flushed :: .start a d globals :: new)

namespace Told

variable {a : AgentId} {c : Settings} {cs : List Settings} {new : List SamplerCall}

theorem agent (h : Told a c cs new) : ∀ k ∈ new, k.agent = a := by
  induction h with
  | done c => simp
  | same _ ih => exact ih
  | other _ _ ih =>
    intro k hk
    rcases List.mem_cons.1 hk with rfl | hk
    · rfl
    · rcases List.mem_cons.1 hk with rfl | hk
      · rfl
      · exact ih k hk

theorem stops (h : Told a c cs new) : new.countP (·.isStop) = changes (c :: cs) := by
  induction h with
  | done c => rfl
  | same _ ih => rw [ih, changes_cons, if_neg (by simp), Nat.add_zero]
  | other hne _ ih =>
    rw [List.countP_cons_of_pos rfl, List.countP_cons_of_neg (by simp [SamplerCall.isStop]), ih,
      changes_cons, if_pos (Ne.symm hne)]

theorem starts (h : Told a c cs new) :
    (new.filterMap (·.started?)).length = changes (c :: cs) := by
  induction h with
  | done c => rfl
  | same _ ih => rw [ih, changes_cons, if_neg (by simp), Nat.add_zero]
  | other hne _ ih =>
    rw [SamplerCall.started_stop, SamplerCall.started_start, List.length_cons, ih, changes_cons,
      if_pos (Ne.symm hne)]

theorem last (h : Told a c cs new) : (new.filterMap (·.started?)).getLastD c = cs.getLastD c := by
  induction h with
  | done c => rfl
  | same _ ih => rw [ih, List.getLastD_cons]
  | other _ _ ih =>
    rw [SamplerCall.started_stop, SamplerCall.started_start, List.getLastD_cons, List.getLastD_cons, ih]

end Told

namespace Program

open Request

variable {p q r : Program} {a : AgentId} {s : StoreId} {c d : Settings} {script : Script}

/-- The agent takes the configuration and runs with it. If it does so already, then nothing happens but
that something is said. -/
structure Takes (a : AgentId) (c : Settings) (x : Act (Except AgentError Unit)) (p q : Program) : Prop where
  result : x.on p = (.ok (.ok ()), q)
  state : (Program.state a).on q = (.ok .running, q)
  settings : (settingsOf a).on q = (.ok (some c), q)
  again : (p.agents a).phase = .running → (p.agents a).settings = some c → ∃ notes, q = p.annotate notes

inductive Serves (a : AgentId) (s : StoreId) : List Request → Program → Program → Prop
  | done (p : Program) : Serves a s [] p p
  | start {c : Settings} {rest : List Request} {p q r : Program} (htakes : Takes a c (startAgent a c) p q)
    (hrest : Serves a s rest q r) : Serves a s (.start c :: rest) p r
  | reconfigure {c : Settings} {rest : List Request} {p q r : Program}
    (htakes : Takes a c (Program.reconfigure a c) p q) (hrest : Serves a s rest q r) :
    Serves a s (.reconfigure c :: rest) p r
  | addGlobal {t : Tag} {rest : List Request} {result : Except TagError Unit} {p q r : Program}
    (hon : (Program.addGlobal s t).on p = (.ok result, q)) (hrest : Serves a s rest q r) :
    Serves a s (.addGlobal t :: rest) p r

theorem attempted_addGlobal (tags : TagStore) (t : Tag) :
    (attempted tags (tags.addGlobal t)).2.globals = tags.globals ++ [t].filter (·.isValid) := by
  unfold TagStore.addGlobal Tag.check
  cases ht : t.isValid with
  | true =>
    rw [if_pos rfl, List.filter_cons_of_pos ht]
    rfl
  | false =>
    rw [if_neg Bool.false_ne_true, List.filter_cons_of_neg (by simp [ht]), List.filter_nil, List.append_nil]
    rfl

theorem Still.addGlobal (h : p.Still s) (t : Tag) : ∃ result q,
    (Program.addGlobal s t).on p = (.ok result, q) ∧ Same p q ∧ q.Aware s ∧
      (q.stores s).tags.globals = (p.stores s).tags.globals ++ [t].filter (·.isValid) := by
  obtain ⟨result, q, hon, -, hq⟩ := (h.revised (·.addGlobal t)).gives
  refine ⟨result, q, hon, hq.same, hq.aware, ?_⟩
  rw [hq.tags]
  exact attempted_addGlobal _ t

theorem RunsWith.state (h : RunsWith script a s c p) : (Program.state a).on p = (.ok .running, p) := by
  unfold Program.state
  rw [on_bind, teller.abreast h.abreast]
  exact congrArg (fun phase => (Except.ok phase, p)) h.phase

theorem RunsWith.settingsOf (h : RunsWith script a s c p) :
    (Program.settingsOf a).on p = (.ok (some c), p) :=
  congrArg (fun settings => (Except.ok settings, p)) h.settings

theorem RunsWith.annotate (h : RunsWith script a s c p) (notes : List (ThreadId × Log.Event)) :
    RunsWith script a s c (p.annotate notes) :=
  ⟨⟨h.store, h.sampler, h.abreast⟩, h.phase, h.settings, h.unlocked, h.aware⟩

theorem Untried.annotate (h : Untried script a s p) (notes : List (ThreadId × Log.Event)) :
    Untried script a s (p.annotate notes) :=
  ⟨⟨h.store, h.sampler, h.abreast⟩, h.phase, h.unlocked, h.free, h.still.congr rfl (.annotate p notes)⟩

theorem Apt.same (h : Apt script a s p) (hq : Same p q) : Apt script a s q :=
  h.transit (.of_same hq) fun _ => ⟨rfl, rfl, rfl⟩

theorem RunsWith.same (h : RunsWith script a s c p) (hq : Same p q) (haware : q.Aware s) :
    RunsWith script a s c q :=
  ⟨h.toApt.same hq, by rw [hq.agents, h.phase], by rw [hq.agents, h.settings],
    by rw [hq.agents, h.unlocked], haware⟩

theorem Untried.same (h : Untried script a s p) (hq : Same p q) (haware : q.Aware s) :
    Untried script a s q :=
  ⟨h.toApt.same hq, by rw [hq.agents, h.phase], by rw [hq.agents, h.unlocked], by rw [hq.slot, h.free],
    .inl haware⟩

theorem Initiates.on {x : Act (Except AgentError Unit)} (hx : Initiates a c x) (p : Program) :
    ∃ notes, x.on p = (Program.startAgent a c).on (p.annotate notes) := by
  cases hx with
  | start => exact ⟨p.notes, rfl⟩
  | reconfigure => exact ⟨_, rfl⟩

theorem Untried.configure (h : Untried script a s p) (hobliging : script.Obliging) (c : Settings)
    {x : Act (Except AgentError Unit)} (hx : Initiates a c x) : ∃ globals q, Takes a c x p q ∧
      Taken script a s c [.start a c globals] ((p.stores s).tags.globals ++ c.validTags) p q := by
  obtain ⟨notes, hx⟩ := hx.on p
  obtain ⟨_, q, hon, rfl, globals, hq⟩ := ((h.annotate notes).startAgent hobliging c).gives
  refine ⟨globals, q, ⟨hx.trans hon, hq.runs.state, hq.runs.settingsOf, fun hrun => ?_⟩, hq.runs,
    hq.calls, hq.tags⟩
  rw [h.phase] at hrun
  cases hrun

inductive Advance (script : Script) (a : AgentId) (s : StoreId) (c : Settings) (p q : Program) :
    Settings → Prop
  | same (hcalls : q.calls = p.calls) (hstores : q.stores = p.stores) : Advance script a s c p q c
  | other {d : Settings} {flushed : Option (List Tag)} {globals : List Tag} (hne : d ≠ c)
    (htaken : Taken script a s d [.stop a flushed, .start a d globals]
      (thinned c.validTags (p.stores s).tags.globals ++ d.validTags) p q) : Advance script a s c p q d

theorem RunsWith.configure (h : RunsWith script a s c p) (hobliging : script.Obliging) (d : Settings)
    {x : Act (Except AgentError Unit)} (hx : Initiates a d x) :
    ∃ q, Takes a d x p q ∧ RunsWith script a s d q ∧ Advance script a s c p q d := by
  obtain ⟨notes, hx⟩ := hx.on p
  obtain ⟨_, q, hon, rfl, hsame, hother⟩ := ((h.annotate notes).startAgent hobliging d).gives
  by_cases hd : d = c
  · subst hd
    obtain ⟨notes', rfl⟩ := hsame rfl
    have hruns : RunsWith script a s d ((p.annotate notes).annotate notes') := (h.annotate _).annotate _
    exact ⟨_, ⟨hx.trans hon, hruns.state, hruns.settingsOf, fun _ _ => ⟨notes', rfl⟩⟩, hruns, .same rfl rfl⟩
  · obtain ⟨flushed, globals, hq⟩ := hother hd
    refine ⟨q, ⟨hx.trans hon, hq.runs.state, hq.runs.settingsOf, fun _ hset => ?_⟩, hq.runs,
      .other hd ⟨hq.runs, hq.calls, hq.tags⟩⟩
    exact absurd (Option.some.inj (hset.symm.trans h.settings)) hd

/-- If the sampler leaves global tags alone, then requests with these configurations lead from a mix of
entered tags and the current ones to a mix of all entered tags and the next ones. -/
def Blends (script : Script) (s : StoreId) (cs : List Settings) (current next : List Tag)
    (requests : List Request) (p q : Program) : Prop :=
  script.Modest → ∀ configured before, (∀ d ∈ cs, ∀ t ∈ d.validTags, t ∈ configured) →
    Mixed configured before current (p.stores s).tags.globals →
    Mixed configured (before ++ newTags requests) next (q.stores s).tags.globals

theorem Blends.entered {cs : List Settings} {current next : List Tag} {rest : List Request} {t : Tag}
    (hglobals : (q.stores s).tags.globals = (p.stores s).tags.globals ++ [t].filter (·.isValid))
    (h : Blends script s cs current next rest q r) :
    Blends script s cs current next (.addGlobal t :: rest) p r := by
  intro hmodest configured before hall hmixed
  rw [newTags_addGlobal, ← List.append_assoc]
  apply h hmodest configured _ hall
  rw [hglobals]
  exact hmixed.enter _

structure SettlesOn (script : Script) (a : AgentId) (s : StoreId) (c : Settings) (requests : List Request)
    (p q : Program) : Prop where
  runs : RunsWith script a s ((configurations requests).getLastD c) q
  calls : ∃ new, q.calls = p.calls ++ new ∧ Told a c (configurations requests) new
  tags : Blends script s (c :: configurations requests) c.validTags
    ((configurations requests).getLastD c).validTags requests p q

theorem SettlesOn.done (h : RunsWith script a s c p) : SettlesOn script a s c [] p p where
  runs := h
  calls := ⟨[], by simp, .done c⟩
  tags _ _ before _ hmixed := by
    change Mixed _ (before ++ []) _ _
    rw [List.append_nil]
    exact hmixed

theorem SettlesOn.configured {request : Request} {rest : List Request} (hq : Advance script a s c p q d)
    (h : SettlesOn script a s d rest q r) (hsettings : request.settings? = some d)
    (htag : request.tag? = none) : SettlesOn script a s c (request :: rest) p r := by
  have hconfigurations : configurations (request :: rest) = d :: configurations rest :=
    List.filterMap_cons_some hsettings
  have hnewTags := newTags_of_tag?_eq_none htag rest
  obtain ⟨new, hcalls, htold⟩ := h.calls
  have hlast : (d :: configurations rest).getLastD c = (configurations rest).getLastD d :=
    List.getLastD_cons ..
  cases hq with
  | same hsameCalls hstores =>
    refine ⟨?_, ⟨new, by rw [hcalls, hsameCalls], ?_⟩, fun hmodest configured before hall hmixed => ?_⟩
    · rw [hconfigurations, hlast]
      exact h.runs
    · rw [hconfigurations]
      exact .same htold
    · rw [hconfigurations, List.forall_mem_cons] at hall
      rw [hnewTags, hconfigurations, hlast]
      exact h.tags hmodest configured before hall.2 (by rw [hstores]; exact hmixed)
  | other hne htaken =>
    refine ⟨?_, ⟨_, hcalls.trans (by rw [htaken.calls, List.append_assoc]), ?_⟩,
      fun hmodest configured before hall hmixed => ?_⟩
    · rw [hconfigurations, hlast]
      exact h.runs
    · rw [hconfigurations]
      exact .other hne htold
    · rw [hconfigurations] at hall
      obtain ⟨hcurrent, hall⟩ := List.forall_mem_cons.1 hall
      rw [hnewTags, hconfigurations, hlast]
      apply h.tags hmodest configured before hall
      rw [htaken.tags hmodest]
      exact hmixed.exchange hcurrent (hall d List.mem_cons_self)

theorem SettlesOn.entered {rest : List Request} {t : Tag} (hq : Same p q)
    (hglobals : (q.stores s).tags.globals = (p.stores s).tags.globals ++ [t].filter (·.isValid))
    (h : SettlesOn script a s c rest q r) : SettlesOn script a s c (.addGlobal t :: rest) p r where
  runs := h.runs
  calls := by
    rw [← hq.calls]
    exact h.calls
  tags := h.tags.entered hglobals

theorem RunsWith.serves (h : RunsWith script a s c p) (hobliging : script.Obliging)
    (requests : List Request) : ∃ q, Serves a s requests p q ∧ SettlesOn script a s c requests p q := by
  induction requests generalizing p c with
  | nil => exact ⟨p, .done p, .done h⟩
  | cons request rest ih =>
    cases request with
    | start d =>
      obtain ⟨q, htakes, hruns, hq⟩ := h.configure hobliging d .start
      obtain ⟨r, hserves, hr⟩ := ih hruns
      exact ⟨r, .start htakes hserves, hr.configured hq rfl rfl⟩
    | reconfigure d =>
      obtain ⟨q, htakes, hruns, hq⟩ := h.configure hobliging d .reconfigure
      obtain ⟨r, hserves, hr⟩ := ih hruns
      exact ⟨r, .reconfigure htakes hserves, hr.configured hq rfl rfl⟩
    | addGlobal t =>
      obtain ⟨result, q, hon, hq, haware, hglobals⟩ := Still.addGlobal (.inl h.aware) t
      obtain ⟨r, hserves, hr⟩ := ih (h.same hq haware)
      exact ⟨r, .addGlobal hon hserves, hr.entered hq hglobals⟩

structure SettlesFirst (script : Script) (a : AgentId) (s : StoreId) (c : Settings) (cs : List Settings)
    (requests : List Request) (p q : Program) : Prop where
  runs : RunsWith script a s (cs.getLastD c) q
  calls : ∃ globals new, q.calls = p.calls ++ .start a c globals :: new ∧ Told a c cs new
  tags : Blends script s (c :: cs) [] (cs.getLastD c).validTags requests p q

theorem SettlesOn.first {request : Request} {rest : List Request} {globals : List Tag}
    (hq : Taken script a s c [.start a c globals] ((p.stores s).tags.globals ++ c.validTags) p q)
    (h : SettlesOn script a s c rest q r) (htag : request.tag? = none) :
    SettlesFirst script a s c (configurations rest) (request :: rest) p r where
  runs := h.runs
  calls := by
    obtain ⟨new, hcalls, htold⟩ := h.calls
    exact ⟨globals, new, by rw [hcalls, hq.calls, List.append_assoc]; rfl, htold⟩
  tags hmodest configured before hall hmixed := by
    have hstarted := hmixed.exchange nofun (hall c List.mem_cons_self)
    rw [thinned_nil] at hstarted
    rw [newTags_of_tag?_eq_none htag]
    apply h.tags hmodest configured before hall
    rw [hq.tags hmodest]
    exact hstarted

theorem SettlesFirst.entered {cs : List Settings} {rest : List Request} {t : Tag} (hq : Same p q)
    (hglobals : (q.stores s).tags.globals = (p.stores s).tags.globals ++ [t].filter (·.isValid))
    (h : SettlesFirst script a s c cs rest q r) :
    SettlesFirst script a s c cs (.addGlobal t :: rest) p r where
  runs := h.runs
  calls := by
    rw [← hq.calls]
    exact h.calls
  tags := h.tags.entered hglobals

theorem Untried.serves (h : Untried script a s p) (hobliging : script.Obliging) {requests : List Request}
    {c : Settings} {cs : List Settings} (hcs : configurations requests = c :: cs) :
    ∃ q, Serves a s requests p q ∧ SettlesFirst script a s c cs requests p q := by
  induction requests generalizing p with
  | nil => cases hcs
  | cons request rest ih =>
    cases request with
    | start d =>
      obtain ⟨rfl, rfl⟩ := List.cons.inj hcs
      obtain ⟨globals, q, htakes, hq⟩ := h.configure hobliging d .start
      obtain ⟨r, hserves, hr⟩ := hq.runs.serves hobliging rest
      exact ⟨r, .start htakes hserves, hr.first hq rfl⟩
    | reconfigure d =>
      obtain ⟨rfl, rfl⟩ := List.cons.inj hcs
      obtain ⟨globals, q, htakes, hq⟩ := h.configure hobliging d .reconfigure
      obtain ⟨r, hserves, hr⟩ := hq.runs.serves hobliging rest
      exact ⟨r, .reconfigure htakes hserves, hr.first hq rfl⟩
    | addGlobal t =>
      obtain ⟨result, q, hon, hq, haware, hglobals⟩ := h.still.addGlobal t
      obtain ⟨r, hserves, hr⟩ := ih (h.same hq haware) hcs
      exact ⟨r, .addGlobal hon hserves, hr.entered hq hglobals⟩

/-- In a process where nothing has been halted and no fork is pending, an agent that has never been
configured can be, if the slot is free. -/
theorem NonePending.untried (hfork : p.NonePending) (hp : Unbroken p) (halive : (p.agents a).alive = true)
    (hphase : (p.agents a).phase = .fresh) (hsampler : (p.agents a).sampler = .scripted script)
    (hfree : p.slot = none) : Untried script a (p.agents a).store p where
  store := rfl
  sampler := hsampler
  abreast := hfork a halive
  phase := hphase
  unlocked := hp.keeps_held.1.unlocked a
  free := hfree
  still := hfork.still _

/-- Requests to an agent that has never been configured, whose sampler always starts and always stops or
fails to. Each configuration is taken, and the agent runs with it afterwards. The same configuration
again changes nothing. In the end the agent runs with the last one, and so did the last start. The sampler
has been started once more often than the configuration has changed, and stopped as often. If it leaves
global tags alone, they are those that users entered and the valid tags of the last configuration. Those
that users entered are in their order if no configuration has them. -/
theorem last_configuration_counts {requests : List Request} (hfresh : Untried script a s p)
    (hobliging : script.Obliging) (hlast : (configurations requests).getLast? = some c) :
    ∃ q new, Serves a s requests p q ∧ (state a).on q = (.ok .running, q) ∧
      (settingsOf a).on q = (.ok (some c), q) ∧
      q.calls = p.calls ++ new ∧ (∀ k ∈ new, k.agent = a) ∧
      (new.filterMap (·.started?)).length = 1 + changes (configurations requests) ∧
      new.countP (·.isStop) = changes (configurations requests) ∧
      (new.filterMap (·.started?)).getLast? = some c ∧
      (script.Modest → Mixed ((configurations requests).flatMap (·.validTags))
        ((p.stores s).tags.globals ++ newTags requests) c.validTags (q.stores s).tags.globals) := by
  obtain ⟨first, cs, hcs⟩ : ∃ first cs, configurations requests = first :: cs := by
    cases hcs : configurations requests with
    | nil =>
      rw [hcs] at hlast
      cases hlast
    | cons first cs => exact ⟨first, cs, rfl⟩
  rw [hcs, List.getLast?_cons, ← List.getLastD_eq_getLast?] at hlast
  obtain rfl := Option.some.inj hlast
  obtain ⟨q, hserves, hruns, ⟨globals, new, hcalls, htold⟩, htags⟩ := hfresh.serves hobliging hcs
  refine ⟨q, _, hserves, hruns.state, hruns.settingsOf, hcalls, ?_, ?_, ?_, ?_, fun hmodest => ?_⟩
  · exact List.forall_mem_cons.2 ⟨rfl, htold.agent⟩
  · rw [SamplerCall.started_start, List.length_cons, htold.starts, hcs, Nat.add_comm]
  · rw [List.countP_cons_of_neg (by simp [SamplerCall.isStop]), htold.stops, hcs]
  · rw [SamplerCall.started_start, List.getLast?_cons, ← List.getLastD_eq_getLast?, htold.last]
  · apply htags hmodest _ _ _ (.start _ _)
    intro d hd t ht
    rw [hcs]
    exact List.mem_flatMap.2 ⟨d, hd, ht⟩

def stumbling : Script where
  onStart _ := {}
  onStop n := ⟨[], if n % 2 = 0 then .fails else .succeeds⟩
  onReset _ := {}

/-- Three changes among five configurations, with tags before, in between and after. -/
def mixedRequests : List Request :=
  [.addGlobal ⟨"zone", "b"⟩, .start (.tagged "team" "a"), .reconfigure (.tagged "team" "a"),
    .addGlobal ⟨"", "c"⟩, .addGlobal ⟨"app", "d"⟩, .reconfigure (.tagged "role" "x"),
    .start (.tagged " " "y"), .start (.tagged "team" "a"), .addGlobal ⟨"unit", "e"⟩]

theorem last_configuration_counts_mixed :
    Untried stumbling 0 0 (manned stumbling) ∧ stumbling.Obliging ∧
    (configurations mixedRequests).getLast? = some (.tagged "team" "a") ∧
    ∃ q new, Serves 0 0 mixedRequests (manned stumbling) q ∧
      (state 0).on q = (.ok .running, q) ∧ (settingsOf 0).on q = (.ok (some (.tagged "team" "a")), q) ∧
      q.calls = new ∧ (new.filterMap (·.started?)).length = 4 ∧ new.countP (·.isStop) = 3 ∧
      (new.filterMap (·.started?)).getLast? = some (.tagged "team" "a") ∧
      (q.stores 0).tags.globals.Perm [⟨"zone", "b"⟩, ⟨"app", "d"⟩, ⟨"unit", "e"⟩, ⟨"team", "a"⟩] ∧
      (q.stores 0).tags.globals.filter
          (· ∉ [⟨"team", "a"⟩, ⟨"team", "a"⟩, ⟨"role", "x"⟩, ⟨"team", "a"⟩]) =
        [⟨"zone", "b"⟩, ⟨"app", "d"⟩, ⟨"unit", "e"⟩] := by
  have hmanned : Unbroken (manned stumbling) :=
    .move (.start 1 false) (.operate (.newAgent 0 (.scripted stumbling))) trivial rfl
  have hfork : (manned stumbling).NonePending := by
    intro a halive
    cases a with
    | zero => rfl
    | succ a => cases halive
  have hfresh : Untried stumbling 0 0 (manned stumbling) := hfork.untried hmanned rfl rfl rfl rfl
  have hobliging : stumbling.Obliging := by
    refine fun n => ⟨rfl, fun m => ?_⟩
    unfold stumbling
    dsimp only
    split <;> nofun
  have hmodest : stumbling.Modest := fun n => ⟨nofun, nofun, nofun⟩
  have hlast : (configurations mixedRequests).getLast? = some (.tagged "team" "a") := rfl
  obtain ⟨q, new, hserves, hstate, hsettings, hcalls, -, hstarts, hstops, hstarted, htags⟩ :=
    last_configuration_counts hfresh hobliging hlast
  have hentered : newTags mixedRequests = [⟨"zone", "b"⟩, ⟨"app", "d"⟩, ⟨"unit", "e"⟩] := by decide
  have hmixed := htags hmodest
  rw [hentered] at hmixed
  exact ⟨hfresh, hobliging, hlast, q, new, hserves, hstate, hsettings, hcalls, hstarts, hstops, hstarted,
    Multiset.coe_eq_coe.1 hmixed.balance, hmixed.order⟩

end Program
end ProfilingAgent

import ProfilingAgent.Proofs.Standing

set_option autoImplicit false

/-!
# Sound programs

What holds of a program at every moment, also while agents are in transition: who holds a lock has
seen every fork, who runs has the slot, and a store tells only agents that use it. If no sampler
panics, then moreover every agent that is not in transition agrees with its sampler, and nobody
has the slot for nothing.

`Follows` says how a program may come after another. An agent in transition is left alone unless it
is the one that acts, and nobody starts to run, takes the slot or gets other settings unless it is
the one that is started.
-/
namespace ProfilingAgent.Program

def callsOf (p : Program) (a : AgentId) : List SamplerCall := p.calls.filter (·.agent = a)

/-- The agent has seen every fork. -/
def Abreast (p : Program) (a : AgentId) : Prop := (p.agents a).seen = p.generation

def Calm (p : Program) : Prop := ∀ a script, (p.agents a).sampler = .scripted script → script.Calm

def Quiet (p : Program) : Prop :=
  ∀ a script, (p.agents a).sampler = .scripted script → script.Quiet

def Modest (p : Program) : Prop :=
  ∀ a script, (p.agents a).sampler = .scripted script → script.Modest

/-- What the sampler of an agent does changes no global tags, and nobody else is told about a fork when it
uses the store. -/
def Reserved (p : Program) (a : AgentId) : Prop :=
  ∀ script, (p.agents a).sampler = .scripted script →
    script.Quiet ∨ script.Modest ∧ (p.stores (p.agents a).store).hook.watcher = some (.agent a)

def Discreet (p : Program) : Prop := ∀ a, (p.agents a).alive = true → p.Reserved a

theorem Quiet.discreet {p : Program} (h : p.Quiet) : p.Discreet := fun a _ script hs => .inl (h a script hs)

theorem Calm.congr {p q : Program} (h : ∀ a, (q.agents a).sampler = (p.agents a).sampler) :
    q.Calm ↔ p.Calm := by
  unfold Calm
  simp only [h]

theorem Abreast.congr {p q : Program} {a : AgentId} (hseen : (q.agents a).seen = (p.agents a).seen)
    (hgen : q.generation = p.generation) : q.Abreast a ↔ p.Abreast a := by
  unfold Abreast
  rw [hseen, hgen]

/-- The calls that the sampler of an agent got were permitted and leave it standing so. The idle
sampler keeps no record. -/
def Stands (p : Program) (a : AgentId) (st : Standing) : Prop :=
  match (p.agents a).sampler with
  | .idle => p.callsOf a = []
  | .scripted script =>
    Standing.Obeyed script (p.callsOf a) ∧ Standing.ofCalls script (p.callsOf a) = st

structure Aligned (p : Program) (a : AgentId) : Prop where
  stands : p.Stands a
    ⟨(p.agents a).starts, (p.agents a).phase = .running, (p.agents a).settings⟩
  settings : (p.agents a).phase = .running → (p.agents a).settings ≠ none

structure Sound (p : Program) : Prop where
  held : ∀ a, (p.agents a).locked = true → p.Abreast a
  slotted : ∀ a, (p.agents a).phase = .running → p.slot = some a
  home : ∀ s a, (p.stores s).hook.watcher = some (.agent a) →
    a < p.agents.size ∧ (p.agents a).store = s
  aligned : p.Calm → ∀ a, (p.agents a).locked = false → p.Aligned a
  holder : p.Calm → ∀ a, p.slot = some a →
    (p.agents a).locked = true ∨ (p.agents a).phase = .running ∧ (p.agents a).alive = true

theorem Sound.unlocked {p : Program} {a : AgentId} (hp : p.Sound) (ha : ¬ p.Abreast a) :
    (p.agents a).locked = false := by
  cases hl : (p.agents a).locked with
  | false => rfl
  | true => exact absurd (hp.held a hl) ha

def Ebb (before after : Phase) : Prop := after = before ∨ before = .running ∧ after = .stopped

theorem Ebb.trans {x y z : Phase} (h : Ebb x y) (h' : Ebb y z) : Ebb x z := by
  rcases h with rfl | ⟨hx, rfl⟩
  · exact h'
  · rcases h' with rfl | ⟨hy, _⟩
    · exact .inr ⟨hx, rfl⟩
    · cases hy

/-- `q` can come after `p` while `own` is in transition and `free` is being started. -/
structure Follows (own free : Option AgentId) (p q : Program) : Prop where
  generation : q.generation = p.generation
  size : p.agents.size ≤ q.agents.size
  watcher : ∀ s, (q.stores s).hook.watcher = (p.stores s).hook.watcher
  store : ∀ a, (q.agents a).store = (p.agents a).store
  sampler : ∀ a, (q.agents a).sampler = (p.agents a).sampler
  alive : ∀ a, (q.agents a).alive = (p.agents a).alive
  abreast : ∀ a, p.Abreast a → q.Abreast a
  /-- A store that has come to see a fork has told its watcher. -/
  told : ∀ s, (q.stores s).hook.seen = (p.stores s).hook.seen ∨
    (q.stores s).hook.seen = p.generation ∧ ∀ a, (p.stores s).hook.watcher = some (.agent a) →
      (p.agents a).alive = true → q.Abreast a
  /-- Nobody is reset who has seen the fork. -/
  calls : ∃ new, q.calls = p.calls ++ new ∧ ∀ a, p.Abreast a → SamplerCall.reset a ∉ new
  locked : ∀ a, some a ≠ own → (q.agents a).locked = (p.agents a).locked
  settings : ∀ a, some a ≠ free → (q.agents a).settings = (p.agents a).settings
  phase : ∀ a, some a ≠ free → Ebb (p.agents a).phase (q.agents a).phase
  slot : ∀ a, some a ≠ free → q.slot = some a → p.slot = some a
  /-- Who holds a lock is left alone. -/
  spared : ∀ a, some a ≠ own → (p.agents a).locked = true →
    q.agents a = p.agents a ∧ q.callsOf a = p.callsOf a ∧ (p.slot = some a → q.slot = some a)
  /-- Who is in transition has seen every fork. -/
  owner : ∀ a, some a = own → q.Abreast a
  sound : q.Sound

theorem Stands.congr {p q : Program} {a : AgentId} {st : Standing} (h : p.Stands a st)
    (hsampler : (q.agents a).sampler = (p.agents a).sampler) (hcalls : q.callsOf a = p.callsOf a) :
    q.Stands a st := by
  unfold Stands at h ⊢
  rw [hsampler, hcalls]
  exact h

theorem Aligned.congr {p q : Program} {a : AgentId} (h : p.Aligned a)
    (hrow : q.agents a = p.agents a) (hcalls : q.callsOf a = p.callsOf a) : q.Aligned a where
  stands := by
    rw [hrow]
    exact h.stands.congr (by rw [hrow]) hcalls
  settings := by
    rw [hrow]
    exact h.settings

@[simp] theorem annotate_stands {p : Program} {a : AgentId} {st : Standing}
    {notes : List (ThreadId × Log.Event)} : (p.annotate notes).Stands a st ↔ p.Stands a st :=
  Iff.rfl

theorem annotate_aligned {p : Program} {a : AgentId} {notes : List (ThreadId × Log.Event)} :
    (p.annotate notes).Aligned a ↔ p.Aligned a :=
  ⟨fun h => h.congr rfl rfl, fun h => h.congr rfl rfl⟩

theorem callsOf_of_append {p q : Program} {new : List SamplerCall} {a : AgentId}
    (h : q.calls = p.calls ++ new) : q.callsOf a = p.callsOf a ++ new.filter (·.agent = a) := by
  unfold callsOf
  rw [h, List.filter_append]

namespace Follows

variable {own free : Option AgentId} {p q r : Program}

theorem here (h : p.Sound) (ho : ∀ a, some a = own → p.Abreast a) : Follows own free p p where
  generation := rfl
  size := Nat.le_refl _
  watcher _ := rfl
  store _ := rfl
  sampler _ := rfl
  alive _ := rfl
  abreast _ ha := ha
  told _ := .inl rfl
  calls := ⟨[], by simp, by simp⟩
  locked _ _ := rfl
  settings _ _ := rfl
  phase _ _ := .inl rfl
  slot _ _ h := h
  spared _ _ _ := ⟨rfl, rfl, id⟩
  owner := ho
  sound := h

theorem refl (h : p.Sound) : Follows none none p p := here h fun _ ha => by cases ha

theorem trans (h : Follows own free p q) (h' : Follows none free q r) : Follows own free p r where
  generation := h'.generation.trans h.generation
  size := Nat.le_trans h.size h'.size
  watcher s := (h'.watcher s).trans (h.watcher s)
  store a := (h'.store a).trans (h.store a)
  sampler a := (h'.sampler a).trans (h.sampler a)
  alive a := (h'.alive a).trans (h.alive a)
  abreast a ha := h'.abreast a (h.abreast a ha)
  told s := by
    rcases h'.told s with hs' | ⟨hs', ht'⟩
    · rw [hs']
      exact (h.told s).imp_right fun hs => ⟨hs.1, fun a hw ha => h'.abreast a (hs.2 a hw ha)⟩
    · refine .inr ⟨hs'.trans h.generation, fun a hw ha => ht' a ?_ ?_⟩
      · rw [h.watcher s, hw]
      · rw [h.alive a, ha]
  calls := by
    obtain ⟨new, hnew, hn⟩ := h.calls
    obtain ⟨new', hnew', hn'⟩ := h'.calls
    refine ⟨new ++ new', by rw [hnew', hnew, List.append_assoc], fun a ha hmem => ?_⟩
    rcases List.mem_append.1 hmem with hm | hm
    · exact hn a ha hm
    · exact hn' a (h.abreast a ha) hm
  locked a ha := (h'.locked a (by simp)).trans (h.locked a ha)
  settings a ha := (h'.settings a ha).trans (h.settings a ha)
  phase a ha := (h.phase a ha).trans (h'.phase a ha)
  slot a ha hs := h.slot a ha (h'.slot a ha hs)
  spared a ha hl := by
    obtain ⟨hrow, hcalls, hslot⟩ := h.spared a ha hl
    obtain ⟨hrow', hcalls', hslot'⟩ := h'.spared a (by simp) (by rw [hrow, hl])
    exact ⟨hrow'.trans hrow, hcalls'.trans hcalls, fun hs => hslot' (hslot hs)⟩
  owner a ha := h'.abreast a (h.owner a ha)
  sound := h'.sound

theorem widen (h : Follows own none p q) (free : Option AgentId) : Follows own free p q where
  generation := h.generation
  size := h.size
  watcher := h.watcher
  store := h.store
  sampler := h.sampler
  alive := h.alive
  abreast := h.abreast
  told := h.told
  calls := h.calls
  locked := h.locked
  settings a _ := h.settings a (by simp)
  phase a _ := h.phase a (by simp)
  slot a _ := h.slot a (by simp)
  spared := h.spared
  owner := h.owner
  sound := h.sound

theorem calm (h : Follows own free p q) : q.Calm ↔ p.Calm := Calm.congr h.sampler

theorem modest (h : Follows own free p q) : q.Modest ↔ p.Modest := by
  unfold Modest
  simp only [h.sampler]

theorem discreet (h : Follows own free p q) : q.Discreet ↔ p.Discreet := by
  unfold Discreet Reserved
  simp only [h.sampler, h.store, h.alive, h.watcher]

end Follows

/-- Two programs agree on agents, calls, the slot, and who watches. -/
structure Same (p q : Program) : Prop where
  generation : q.generation = p.generation
  agents : q.agents = p.agents
  slot : q.slot = p.slot
  calls : q.calls = p.calls
  watcher : ∀ s, (q.stores s).hook.watcher = (p.stores s).hook.watcher

namespace Same

variable {p q r : Program}

theorem refl (p : Program) : Same p p := ⟨rfl, rfl, rfl, rfl, fun _ => rfl⟩

theorem trans (h : Same p q) (h' : Same q r) : Same p r where
  generation := h'.generation.trans h.generation
  agents := h'.agents.trans h.agents
  slot := h'.slot.trans h.slot
  calls := h'.calls.trans h.calls
  watcher t := (h'.watcher t).trans (h.watcher t)

theorem calm (h : Same p q) : q.Calm ↔ p.Calm := Calm.congr fun _ => by rw [h.agents]

theorem discreet (h : Same p q) : q.Discreet ↔ p.Discreet := by
  unfold Discreet Reserved
  simp only [h.agents, h.watcher]

theorem callsOf (h : Same p q) (a : AgentId) : q.callsOf a = p.callsOf a := by
  unfold Program.callsOf
  rw [h.calls]

theorem abreast (h : Same p q) (a : AgentId) : q.Abreast a ↔ p.Abreast a :=
  Abreast.congr (by rw [h.agents]) h.generation

theorem aligned (h : Same p q) {a : AgentId} (ha : p.Aligned a) : q.Aligned a :=
  ha.congr (by rw [h.agents]) (h.callsOf a)

theorem sound (h : Same p q) (hp : p.Sound) : q.Sound where
  held a := by
    rw [h.abreast, h.agents]
    exact hp.held a
  slotted a := by
    rw [h.slot, h.agents]
    exact hp.slotted a
  home s a := by
    rw [h.watcher, h.agents]
    exact hp.home s a
  aligned hc a := by
    rw [h.agents]
    exact fun ha => h.aligned (hp.aligned (h.calm.1 hc) a ha)
  holder hc a := by
    rw [h.slot, h.agents]
    exact hp.holder (h.calm.1 hc) a

theorem follows (h : Same p q) (hp : p.Sound)
    (hseen : ∀ s, (q.stores s).hook.seen = (p.stores s).hook.seen) : Follows none none p q where
  generation := h.generation
  size := Nat.le_of_eq (by rw [h.agents])
  watcher := h.watcher
  store _ := by rw [h.agents]
  sampler _ := by rw [h.agents]
  alive _ := by rw [h.agents]
  abreast a ha := (h.abreast a).2 ha
  told s := .inl (hseen s)
  calls := ⟨[], by simp [h.calls], by simp⟩
  locked _ _ := by rw [h.agents]
  settings _ _ := by rw [h.agents]
  phase _ _ := .inl (by rw [h.agents])
  slot a _ hs := h.slot ▸ hs
  spared a _ _ := ⟨by rw [h.agents], h.callsOf a, fun hs => h.slot.trans hs⟩
  owner _ h := by cases h
  sound := h.sound hp

theorem annotate (p : Program) (notes : List (ThreadId × Log.Event)) :
    Same p (p.annotate notes) := ⟨rfl, rfl, rfl, rfl, fun _ => rfl⟩

theorem count (p : Program) (counters : Table Counter) : Same p (p.count counters) :=
  ⟨rfl, rfl, rfl, rfl, fun _ => rfl⟩

theorem retag (p : Program) (s : StoreId) (tags : TagStore) : Same p (p.retag s tags) where
  generation := rfl
  agents := rfl
  slot := rfl
  calls := rfl
  watcher t := by
    by_cases h : t = s <;> simp [h]

theorem mark (p : Program) (s : StoreId) : Same p (p.mark s) where
  generation := rfl
  agents := rfl
  slot := rfl
  calls := rfl
  watcher t := by
    by_cases h : t = s <;> simp [h]

end Same

theorem Follows.of_mark {p q : Program} {s : StoreId} (h : Follows none none (p.mark s) q)
    (hw : ∀ a, (p.stores s).hook.watcher = some (.agent a) → (p.agents a).alive = true →
      q.Abreast a) : Follows none none p q where
  generation := h.generation
  size := h.size
  watcher t := (h.watcher t).trans ((Same.mark p s).watcher t)
  store := h.store
  sampler := h.sampler
  alive := h.alive
  abreast := h.abreast
  told t := by
    have ht := h.told t
    rw [(Same.mark p s).watcher t] at ht
    by_cases hts : t = s
    · subst hts
      refine .inr ⟨?_, hw⟩
      rcases ht with ht | ht
      · simpa using ht
      · exact ht.1
    · simpa [hts] using ht
  calls := h.calls
  locked := h.locked
  settings := h.settings
  phase := h.phase
  slot := h.slot
  spared := h.spared
  owner := h.owner
  sound := h.sound

structure Own (a : AgentId) (p q : Program) : Prop where
  generation : q.generation = p.generation
  size : p.agents.size ≤ q.agents.size
  hook : ∀ s, (q.stores s).hook = (p.stores s).hook
  others : ∀ b, b ≠ a → q.agents b = p.agents b
  store : (q.agents a).store = (p.agents a).store
  sampler : (q.agents a).sampler = (p.agents a).sampler
  alive : (q.agents a).alive = (p.agents a).alive
  seen : (q.agents a).seen = (p.agents a).seen
  locked : (q.agents a).locked = (p.agents a).locked
  calls : ∃ new, q.calls = p.calls ++ new ∧ ∀ c ∈ new, c.agent = a
  slot : ∀ b, b ≠ a → (q.slot = some b ↔ p.slot = some b)

namespace Own

variable {a : AgentId} {p q r : Program}

theorem all (h : Own a p q) (b : AgentId) :
    (q.agents b).store = (p.agents b).store ∧ (q.agents b).sampler = (p.agents b).sampler ∧
      (q.agents b).alive = (p.agents b).alive ∧ (q.agents b).seen = (p.agents b).seen ∧
      (q.agents b).locked = (p.agents b).locked := by
  by_cases hb : b = a
  · subst hb
    exact ⟨h.store, h.sampler, h.alive, h.seen, h.locked⟩
  · rw [h.others b hb]
    exact ⟨rfl, rfl, rfl, rfl, rfl⟩

theorem callsOf (h : Own a p q) {b : AgentId} (hb : b ≠ a) : q.callsOf b = p.callsOf b := by
  obtain ⟨new, hnew, hn⟩ := h.calls
  rw [callsOf_of_append hnew]
  have : new.filter (·.agent = b) = [] := by
    rw [List.filter_eq_nil_iff]
    intro c hc
    simpa [hn c hc] using hb.symm
  rw [this, List.append_nil]

theorem abreast (h : Own a p q) (b : AgentId) : q.Abreast b ↔ p.Abreast b :=
  Abreast.congr (h.all b).2.2.2.1 h.generation

theorem calm (h : Own a p q) : q.Calm ↔ p.Calm := Calm.congr fun b => (h.all b).2.1

theorem sound (h : Own a p q) (hp : p.Sound) (hl : (p.agents a).locked = true)
    (hrun : (q.agents a).phase = .running → q.slot = some a) : q.Sound where
  held b hb := by
    rw [(h.all b).2.2.2.2] at hb
    exact (h.abreast b).2 (hp.held b hb)
  slotted b hb := by
    by_cases hba : b = a
    · subst hba
      exact hrun hb
    · rw [h.others b hba] at hb
      exact (h.slot b hba).2 (hp.slotted b hb)
  home s b hw := by
    rw [h.hook] at hw
    obtain ⟨hsize, hstore⟩ := hp.home s b hw
    exact ⟨Nat.lt_of_lt_of_le hsize h.size, (h.all b).1.trans hstore⟩
  aligned hc b hb := by
    have hba : b ≠ a := by
      rintro rfl
      rw [h.locked, hl] at hb
      cases hb
    rw [(h.all b).2.2.2.2] at hb
    exact (hp.aligned (h.calm.1 hc) b hb).congr (h.others b hba) (h.callsOf hba)
  holder hc b hb := by
    by_cases hba : b = a
    · subst hba
      exact .inl (h.locked.trans hl)
    · rw [h.others b hba]
      exact hp.holder (h.calm.1 hc) b ((h.slot b hba).1 hb)

theorem trans (h : Own a p q) (h' : Own a q r) : Own a p r where
  generation := h'.generation.trans h.generation
  size := Nat.le_trans h.size h'.size
  hook s := (h'.hook s).trans (h.hook s)
  others b hb := (h'.others b hb).trans (h.others b hb)
  store := h'.store.trans h.store
  sampler := h'.sampler.trans h.sampler
  alive := h'.alive.trans h.alive
  seen := h'.seen.trans h.seen
  locked := h'.locked.trans h.locked
  calls := by
    obtain ⟨new, hnew, hn⟩ := h.calls
    obtain ⟨new', hnew', hn'⟩ := h'.calls
    refine ⟨new ++ new', by rw [hnew', hnew, List.append_assoc], fun c hc => ?_⟩
    exact (List.mem_append.1 hc).elim (hn c) (hn' c)
  slot b hb := (h'.slot b hb).trans (h.slot b hb)

theorem amend {f : Agent → Agent} (hf : ∀ x, (f x).store = x.store ∧ (f x).sampler = x.sampler ∧
    (f x).alive = x.alive ∧ (f x).seen = x.seen ∧ (f x).locked = x.locked) :
    Own a p (p.amend a f) where
  generation := rfl
  size := size_le_amend p a f
  hook _ := rfl
  others b hb := amend_of_ne p a b f hb
  store := by simp [hf]
  sampler := by simp [hf]
  alive := by simp [hf]
  seen := by simp [hf]
  locked := by simp [hf]
  calls := ⟨[], by simp, by simp⟩
  slot _ _ := Iff.rfl

theorem call {c : SamplerCall} (hc : c.agent = a) : Own a p (p.call c) where
  generation := rfl
  size := Nat.le_refl _
  hook _ := rfl
  others _ _ := rfl
  store := rfl
  sampler := rfl
  alive := rfl
  seen := rfl
  locked := rfl
  calls := ⟨[c], rfl, by simp [hc]⟩
  slot _ _ := Iff.rfl

theorem give {slot : Option AgentId} (h : ∀ b, b ≠ a → (slot = some b ↔ p.slot = some b)) :
    Own a p (p.give slot) where
  generation := rfl
  size := Nat.le_refl _
  hook _ := rfl
  others _ _ := rfl
  store := rfl
  sampler := rfl
  alive := rfl
  seen := rfl
  locked := rfl
  calls := ⟨[], by simp, by simp⟩
  slot := h

theorem yieldSlot : Own a p (p.yieldSlot a) := by
  unfold Program.yieldSlot
  split
  · rename_i h
    apply give
    intro b hb
    simp [h, hb.symm]
  · have h : Own a p (p.give p.slot) := give fun _ _ => Iff.rfl
    exact h

end Own

structure Ebbs (a : AgentId) (p q : Program) : Prop where
  settings : (q.agents a).settings = (p.agents a).settings
  phase : Ebb (p.agents a).phase (q.agents a).phase
  slot : q.slot = some a → p.slot = some a

/-- A change of an agent in transition to itself. It may be reset if it had not seen the fork when
the transition was asked for. -/
theorem Follows.own {a : AgentId} {free : Option AgentId} {p q r : Program}
    (h : Follows (some a) free p q)
    (hl : (q.agents a).locked = true) (ho : Own a q r)
    (hrun : (r.agents a).phase = .running → r.slot = some a)
    (hfree : some a ≠ free → Ebbs a q r)
    (hreset : ∀ new, r.calls = q.calls ++ new → p.Abreast a → SamplerCall.reset a ∉ new) :
    Follows (some a) free p r where
  generation := ho.generation.trans h.generation
  size := Nat.le_trans h.size ho.size
  watcher s := by rw [ho.hook, h.watcher]
  store b := (ho.all b).1.trans (h.store b)
  sampler b := (ho.all b).2.1.trans (h.sampler b)
  alive b := (ho.all b).2.2.1.trans (h.alive b)
  abreast b hb := (ho.abreast b).2 (h.abreast b hb)
  told s := by
    rw [ho.hook]
    exact (h.told s).imp_right fun hs => ⟨hs.1, fun b hw hb => (ho.abreast b).2 (hs.2 b hw hb)⟩
  calls := by
    obtain ⟨new, hnew, hn⟩ := h.calls
    obtain ⟨new', hnew', hn'⟩ := ho.calls
    refine ⟨new ++ new', by rw [hnew', hnew, List.append_assoc], fun b hb hmem => ?_⟩
    rcases List.mem_append.1 hmem with hm | hm
    · exact hn b hb hm
    · have hba : b = a := hn' _ hm
      exact hreset new' hnew' (hba ▸ hb) (hba ▸ hm)
  locked b hb := ((ho.all b).2.2.2.2).trans (h.locked b hb)
  settings b hb := by
    by_cases hba : b = a
    · subst hba
      exact (hfree hb).settings.trans (h.settings b hb)
    · rw [ho.others b hba]
      exact h.settings b hb
  phase b hb := by
    by_cases hba : b = a
    · subst hba
      exact (h.phase b hb).trans (hfree hb).phase
    · rw [ho.others b hba]
      exact h.phase b hb
  slot b hb hs := by
    by_cases hba : b = a
    · subst hba
      exact h.slot b hb ((hfree hb).slot hs)
    · exact h.slot b hb ((ho.slot b hba).1 hs)
  spared b hb hlb := by
    have hba : b ≠ a := by simpa using hb
    obtain ⟨hrow, hcalls, hslot⟩ := h.spared b hb hlb
    exact ⟨(ho.others b hba).trans hrow, (ho.callsOf hba).trans hcalls,
      fun hs => (ho.slot b hba).2 (hslot hs)⟩
  owner b hb := (ho.abreast b).2 (h.owner b hb)
  sound := ho.sound h.sound hl hrun

theorem Follows.alter {a : AgentId} {free : Option AgentId} {p q r : Program}
    (h : Follows (some a) free p q)
    (hl : (q.agents a).locked = true) (ho : Own a q r) (hcalls : r.calls = q.calls)
    (hrun : (r.agents a).phase = .running → r.slot = some a)
    (hfree : some a ≠ free → Ebbs a q r) : Follows (some a) free p r := by
  apply h.own hl ho hrun hfree
  intro new hnew _
  have hn : new = [] := by simpa [hcalls] using hnew
  simp [hn]

end ProfilingAgent.Program

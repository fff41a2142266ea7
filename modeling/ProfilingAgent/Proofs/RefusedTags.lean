import ProfilingAgent.Proofs.StoresAside

set_option autoImplicit false

namespace ProfilingAgent

open Act Program

namespace Program

variable {α : Type} {p q : Program} {s : StoreId}

def BlankKey (tags : List Tag) (e : TagError) : Prop :=
  ∃ t, Tag.FirstBlank tags t ∧ e = .emptyKey t.value

/-- To attach these tags fails only because of a blank key, and has changed nothing then. -/
def Refuses (s : StoreId) (tags : List Tag) (x : Act (Except TagError α)) (p : Program) : Prop :=
  Ends x p (fun r q => ∀ e, r = .error e → Unaltered s p q ∧ BlankKey tags e) fun _ _ => False

theorem Still.refuses {use : TagStore → Except TagError TagStore} {tags : List Tag} (h : p.Still s)
    (huse : ∀ x e, use x = .error e → BlankKey tags e) : Refuses s tags (Program.revise tellAgent s use) p := by
  unfold Refuses Program.revise
  rw [ends_bind]
  refine Ends.mono h.check (fun _ q ⟨_, hq⟩ => ?_) fun _ _ h => h
  simp only [ends_bind, ends_store]
  cases hr : use (q.stores s).tags with
  | ok x => exact fun e he => by cases he
  | error e =>
    rintro e' ⟨⟩
    exact ⟨hq, huse _ _ hr⟩

theorem blankKey_of_addTags {x : TagStore} {d : ContextId} {tags : List Tag} {e : TagError}
    (h : x.addTags d tags = .error e) : BlankKey tags e := by
  unfold TagStore.addTags at h
  split at h
  · rename_i hcheck
    cases h
    exact (Tag.checkAll_eq_error_iff _ _).1 hcheck
  · split at h <;> cases h

theorem blankKey_of_addGlobal {x : TagStore} {t : Tag} {e : TagError} (h : x.addGlobal t = .error e) :
    BlankKey [t] e := by
  refine (Tag.checkAll_eq_error_iff _ _).1 ?_
  unfold TagStore.addGlobal at h
  unfold Tag.checkAll
  split at h
  · rename_i hcheck
    cases h
    rw [hcheck]
  · cases h

theorem blankKey_of_replaceGlobals {x : TagStore} {old new : List Tag} {e : TagError}
    (h : x.replaceGlobals old new = .error e) : BlankKey new e := by
  unfold TagStore.replaceGlobals at h
  split at h
  · rename_i hcheck
    cases h
    exact (Tag.checkAll_eq_error_iff _ _).1 hcheck
  · cases h

theorem Still.refuses_addTags (h : p.Still s) (d : ContextId) (tags : List Tag) :
    Refuses s tags (Program.addTags s d tags) p := by
  unfold Refuses Program.addTags addTagsWith
  rw [ends_bind]
  refine Ends.mono (h.refuses fun _ _ => blankKey_of_addTags) (fun r q hr => ?_) fun _ _ h => h
  cases r with
  | error e => exact hr
  | ok _ =>
    dsimp only
    split
    · exact fun e he => by cases he
    · exact fun e he => by cases he

theorem Still.refuses_enterContext (h : p.Still s) (d : ContextId) (tags : List Tag) :
    Refuses s tags (Program.enterContext s d tags) p := by
  unfold Refuses Program.enterContext
  rw [ends_bind]
  refine Ends.mono (h.refuses_addTags d tags) (fun r q hr => ?_) fun _ _ h => h
  cases r with
  | error e =>
    rintro e' ⟨⟩
    exact hr e rfl
  | ok _ => exact fun e he => by cases he

inductive Attaches (s : StoreId) : {α : Type} → List Tag → Act (Except TagError α) → Prop
  | addTag (d : ContextId) (t : Tag) : Attaches s [t] (addTag s d t)
  | addTags (d : ContextId) (tags : List Tag) : Attaches s tags (addTags s d tags)
  | addGlobal (t : Tag) : Attaches s [t] (addGlobal s t)
  | replaceGlobals (old new : List Tag) : Attaches s new (replaceGlobals s old new)
  | enterContext (d : ContextId) (tags : List Tag) : Attaches s tags (enterContext s d tags)

theorem Attaches.refuses {tags : List Tag} {x : Act (Except TagError α)} (hx : Attaches s tags x)
    (h : p.Still s) : Refuses s tags x p := by
  cases hx with
  | addTag d t => exact h.refuses_addTags d [t]
  | addTags d tags => exact h.refuses_addTags d tags
  | addGlobal t =>
    have hrefuses : Refuses s [t] (Program.revise tellAgent s (·.addGlobal t)) p :=
      h.refuses fun _ _ => blankKey_of_addGlobal
    exact hrefuses
  | replaceGlobals old new =>
    have hrefuses : Refuses s tags (Program.revise tellAgent s (·.replaceGlobals old tags)) p :=
      h.refuses fun _ _ => blankKey_of_replaceGlobals
    exact hrefuses
  | enterContext d tags => exact h.refuses_enterContext d tags

theorem Still.refuses_enter (h : p.Still s) (provider : Provider) (tags : List Tag) :
    ∃ d p', (currentContext provider).on p = (.ok d, p') ∧ Turned p p' ∧
      (enter s provider tags).on p = (Program.enterContext s d tags).on p' ∧
      Refuses s tags (Program.enterContext s d tags) p' := by
  obtain ⟨d, p', hon, hturned, -⟩ := currentContext_turned (p := p) provider
  refine ⟨d, p', hon, hturned, ?_, ?_⟩
  · unfold enter
    rw [on_bind, hon]
  · obtain ⟨threads, thread, next, rfl⟩ := hturned
    have hstill := h.congr (q := { p with threads := threads, thread := thread, nextContext := next }) rfl
      ⟨rfl, rfl, rfl, rfl, fun _ => rfl⟩
    exact hstill.refuses_enterContext d tags

end Program
end ProfilingAgent

import ProfilingAgent.Proofs.LaidOutNumbers
import ProfilingAgent.Proofs.StructuredTags
import ProfilingAgent.Proofs.DirectReading
import ProfilingAgent.Settings.Headers

set_option autoImplicit false

namespace ProfilingAgent

open Json Json.Reader

namespace Json.Reader

/-- A value whose brackets stand less than `depth` deep in each other. -/
inductive Within : Nat → Value → Prop
  | null {depth : Nat} : Within depth .null
  | bool {depth : Nat} (b : Bool) : Within depth (.bool b)
  | number {depth : Nat} (n : Number) : Within depth (.number n)
  | string {depth : Nat} (s : String) : Within depth (.string s)
  | array {depth : Nat} {vs : List Value} (hdepth : 0 < depth) (h : ∀ v ∈ vs, Within depth v) :
    Within (depth + 1) (.array vs)
  | object {depth : Nat} {es : List (String × Value)} (hdepth : 0 < depth)
    (h : ∀ e ∈ es, Within depth e.2) : Within (depth + 1) (.object es)

theorem exists_forall₂ {α β : Type} {R : α → β → Prop} {as : List α} (h : ∀ a ∈ as, ∃ b, R a b) :
    ∃ bs, List.Forall₂ R as bs := by
  induction as with
  | nil => exact ⟨[], .nil⟩
  | cons a as ih =>
    obtain ⟨b, hb⟩ := h a List.mem_cons_self
    obtain ⟨bs, hbs⟩ := ih fun a ha => h a (List.mem_cons_of_mem _ ha)
    exact ⟨b :: bs, .cons hb hbs⟩

theorem readsAs_real (depth : Nat) {x : Binary64} (h : x.isFinite = true) :
    ∃ k, ReadsAs depth (.number (.real x h)) (.number k) := by
  obtain ⟨k, hread⟩ := valueAt_real h
  refine ⟨k, readsAs_number ?_ fun rest fuel p hrest => hread rest fuel depth p hrest⟩
  obtain ⟨w, hreal, htext | htext⟩ := text_writing h
  · obtain ⟨first, more, hcons, hfirst⟩ := hreal.chars_cons
    exact ⟨first, more, htext.trans hcons, begins_of_isDigit hfirst⟩
  · exact ⟨'-', w.chars, htext, rfl, by decide⟩

theorem readsAs_anyNumber (depth : Nat) (n : Number) : ∃ k, ReadsAs depth (.number n) (.number k) := by
  cases n with
  | whole n h => exact ⟨_, readsAs_whole depth n h⟩
  | real x h => exact readsAs_real depth h

def SameText (v u : Value) : Prop := ∀ s, v = .string s ↔ u = .string s

def Reread (depth : Nat) (e f : String × Value) : Prop := EntryReadsAs depth e f ∧ SameText e.2 f.2

theorem exists_reread {depth : Nat} {es : List (String × Value)}
    (h : ∀ e ∈ es, ∃ u, ReadsAs depth e.2 u ∧ SameText e.2 u) : ∃ fs, List.Forall₂ (Reread depth) es fs := by
  refine exists_forall₂ fun e he => ?_
  obtain ⟨u, hu, htext⟩ := h e he
  exact ⟨(e.1, u), ⟨rfl, hu⟩, htext⟩

theorem Within.readsAs {depth : Nat} {v : Value} (h : Within depth v) :
    ∃ u, ReadsAs depth v u ∧ SameText v u := by
  induction h with
  | null => exact ⟨.null, readsAs_null _, fun _ => Iff.rfl⟩
  | bool b => exact ⟨.bool b, readsAs_bool _ b, fun _ => Iff.rfl⟩
  | number n =>
    obtain ⟨k, hk⟩ := readsAs_anyNumber _ n
    exact ⟨.number k, hk, fun _ => ⟨nofun, nofun⟩⟩
  | string s => exact ⟨.string s, readsAs_string _ s, fun _ => Iff.rfl⟩
  | array hdepth _ ih =>
    obtain ⟨us, hus⟩ := exists_forall₂ ih
    exact ⟨.array us, readsAs_array hdepth (hus.imp fun _ _ => And.left), fun _ => ⟨nofun, nofun⟩⟩
  | object hdepth _ ih =>
    obtain ⟨fs, hfs⟩ := exists_reread ih
    exact ⟨.object fs, readsAs_object hdepth (hfs.imp fun _ _ => And.left), fun _ => ⟨nofun, nofun⟩⟩

theorem written_object {depth : Nat} {es : List (String × Value)} (h : Within depth (.object es)) :
    ∃ n fs, List.Forall₂ (Reread n) es fs ∧
      (writtenValue depth).run (Value.object es).text = .ok (.object fs) := by
  cases h with
  | @object depth es hdepth hes =>
    obtain ⟨fs, hfs⟩ := exists_reread fun e he => (hes e he).readsAs
    obtain ⟨q, hgives⟩ := (readsAs_object hdepth (hfs.imp fun _ _ => And.left)).gives_writtenValue
    exact ⟨depth, fs, hfs, run_eq_ok_iff.2 ⟨⟨[], q⟩, hgives, rfl⟩⟩

end Json.Reader

namespace Headers

variable {n : Nat} {es fs : List (String × Value)}

theorem normal_eq_string_iff {v : Value} {s : String} : v.normal = .string s ↔ v = .string s := by
  cases v <;> simp [Value.normal]

theorem texts_cons_of_not {name : String} {v : Value} (h : ∀ s, v ≠ .string s) (es : List (String × Value)) :
    texts ((name, v) :: es) = .error (.notText name) := by
  cases v with
  | string s => exact absurd rfl (h s)
  | _ => rfl

theorem texts_map (ps : List (String × String)) : texts (ps.map fun e => (e.1, .string e.2)) = .ok ps := by
  induction ps with
  | nil => rfl
  | cons e ps ih =>
    rw [List.map_cons, texts, ih]
    rfl

theorem texts_eq_ok {ps : List (String × String)} (h : texts es = .ok ps) :
    es = ps.map fun e => (e.1, .string e.2) := by
  induction es generalizing ps with
  | nil =>
    obtain rfl := Except.ok.inj h
    rfl
  | cons e es ih =>
    obtain ⟨name, v⟩ := e
    cases v with
    | string s =>
      change (texts es).map _ = _ at h
      cases hrest : texts es with
      | error e =>
        rw [hrest] at h
        cases h
      | ok qs =>
        rw [hrest] at h
        obtain rfl := Except.ok.inj h
        rw [ih hrest]
        rfl
    | _ => cases h

theorem texts_reread (h : List.Forall₂ (Reread n) es fs) : texts (Value.normalEntries fs) = texts es := by
  induction h with
  | nil => rfl
  | @cons e f es fs he _ ih =>
    obtain ⟨name, v⟩ := e
    obtain ⟨name', u⟩ := f
    obtain ⟨⟨rfl, -⟩, htext⟩ : (name' = name ∧ _) ∧ SameText v u := he
    rw [Value.normalEntries]
    by_cases hv : ∃ s, v = .string s
    · obtain ⟨s, hs⟩ := hv
      obtain rfl := (htext s).1 hs
      subst hs
      exact congrArg (Except.map ((name', s) :: ·)) ih
    · rw [not_exists] at hv
      rw [texts_cons_of_not hv, texts_cons_of_not fun s hs => hv s ((htext s).2 (normal_eq_string_iff.1 hs))]

theorem keys_reread (h : List.Forall₂ (Reread n) es fs) : fs.map Prod.fst = es.map Prod.fst := by
  induction h with
  | nil => rfl
  | cons he _ ih => rw [List.map_cons, List.map_cons, ih, he.1.1]

theorem ofText_of_written {s : String} (h : Value.written s = .ok (.object es)) :
    ofText s = (texts (Dict.ofList (Value.normalEntries es)).entries).map Dict.ofList := by
  unfold ofText
  rw [Tag.Structured.allBlank_of_written h, Value.ofText_of_written h, Value.normal]
  rfl

theorem ofText_object (d : Dict Value) (h : Within depthLimit (.object d.entries)) :
    ofText (Value.object d.entries).text = (texts d.entries).map Dict.ofList := by
  obtain ⟨n, fs, hfs, hwritten⟩ := written_object h
  have hincreasing : KeysIncrease (Value.normalEntries fs) := by
    have hkeys : (d.entries.map Prod.fst).Pairwise (· < ·) := List.pairwise_map.2 d.increasing
    rw [← keys_reread hfs, ← Layer.keys_normalEntries fs] at hkeys
    exact List.pairwise_map.1 hkeys
  rw [ofText_of_written hwritten, Dict.entries_ofList hincreasing, texts_reread hfs]

end Headers
end ProfilingAgent

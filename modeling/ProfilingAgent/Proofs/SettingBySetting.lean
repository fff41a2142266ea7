import ProfilingAgent.Proofs.Dictionaries
import ProfilingAgent.Proofs.Layers
import ProfilingAgent.Settings.Reading

set_option autoImplicit false

namespace ProfilingAgent

open Json Log

namespace Setting

theorem name_of_ofName? {key : String} {s : Setting} (h : ofName? key = some s) : key = s.name := by
  have hname := List.find?_some h
  exact (beq_iff_eq.1 hname).symm

theorem ne_name_of_ofName? {key : String} (h : ofName? key = none) (s : Setting) : key ≠ s.name := by
  rintro rfl
  rw [ofName?_name] at h
  cases h

end Setting

namespace Layer

variable {s t : Setting} {v : Value} {l : Layer} {es : List (String × Value)}

theorem get_setting_other (h : t ≠ s) (v : Value) (rate : Noted (Option UInt32)) (l : Layer) :
    (Lenient.setting s v rate l).value.get t = l.get t := by
  cases s <;> cases t <;> first | rfl | exact absurd rfl h

theorem get_setting_same (s : Setting) (v : Value) (rate : Noted (Option UInt32)) (l : Layer) :
    (Lenient.setting s v rate l).value.get s = (Lenient.setting s v rate empty).value.get s := by
  cases s <;> rfl

def told (s : Setting) (v : Value) : Option s.Value := (readSetting s v empty).value.get s

theorem get_readSetting_other (h : t ≠ s) (v : Value) (l : Layer) :
    (readSetting s v l).value.get t = l.get t := by
  unfold readSetting
  split
  · rfl
  · exact get_setting_other h _ _ l

theorem get_readSetting_same (v : Value) (h : l.get s = none) :
    (readSetting s v l).value.get s = told s v := by
  unfold told readSetting
  split
  · exact h.trans (get_empty s).symm
  · exact get_setting_same s _ _ l

def valueOf (es : List (String × Value)) (key : String) : Option Value :=
  (es.find? (·.1 == key)).map (·.2)

/-- What entries say about a setting: what the entry with its name says. -/
def toldBy (s : Setting) (es : List (String × Value)) : Option s.Value :=
  (valueOf es s.name).bind (told s)

theorem valueOf_cons_same (key : String) (v : Value) (es : List (String × Value)) :
    valueOf ((key, v) :: es) key = some v := by
  unfold valueOf
  simp

theorem valueOf_cons_other {key k : String} (h : key ≠ k) (v : Value) (es : List (String × Value)) :
    valueOf ((key, v) :: es) k = valueOf es k := by
  unfold valueOf
  rw [List.find?_cons_of_neg (by simpa using h)]

theorem valueOf_eq_none {key : String} (h : key ∉ es.map Prod.fst) : valueOf es key = none := by
  unfold valueOf
  rw [Option.map_eq_none_iff, List.find?_eq_none]
  intro e he heq
  exact h (List.mem_map.2 ⟨e, he, beq_iff_eq.1 heq⟩)

theorem toldBy_eq_none (h : s.name ∉ es.map Prod.fst) : toldBy s es = none := by
  unfold toldBy
  rw [valueOf_eq_none h]
  rfl

theorem toldBy_cons_same (s : Setting) (v : Value) (es : List (String × Value)) :
    toldBy s ((s.name, v) :: es) = told s v := by
  unfold toldBy
  rw [valueOf_cons_same]
  rfl

theorem toldBy_cons_other {key : String} (h : key ≠ s.name) (v : Value) (es : List (String × Value)) :
    toldBy s ((key, v) :: es) = toldBy s es := by
  unfold toldBy
  rw [valueOf_cons_other h]

def Open (l : Layer) (es : List (String × Value)) : Prop :=
  ∀ s : Setting, s.name ∈ es.map Prod.fst → l.get s = none

theorem open_empty (es : List (String × Value)) : Open empty es := fun s _ => get_empty s

theorem Open.step {key : String} (hopen : Open l ((key, v) :: es)) (hkey : key = t.name)
    (hnodup : (((key, v) :: es).map Prod.fst).Nodup) (u : Value) :
    Open (readSetting t u l).value es := by
  intro s hs
  have hne : s ≠ t := by
    rintro rfl
    exact (List.nodup_cons.1 hnodup).1 (hkey ▸ hs)
  rw [get_readSetting_other hne]
  exact hopen s (List.mem_cons_of_mem _ hs)

theorem Open.rest {key : String} (hopen : Open l ((key, v) :: es)) : Open l es :=
  fun s hs => hopen s (List.mem_cons_of_mem _ hs)

theorem told_step {key : String} (hopen : Open l ((key, v) :: es)) (hkey : key = t.name)
    (hnodup : (((key, v) :: es).map Prod.fst).Nodup) (s : Setting) :
    (toldBy s es).or ((readSetting t v l).value.get s) = (toldBy s ((key, v) :: es)).or (l.get s) := by
  subst hkey
  by_cases hs : s = t
  · subst hs
    have hfree := hopen s List.mem_cons_self
    rw [toldBy_eq_none (List.nodup_cons.1 hnodup).1, get_readSetting_same v hfree, toldBy_cons_same,
      hfree, Option.none_or, Option.or_none]
  · have hne : t.name ≠ s.name := fun heq => hs (Setting.name_injective heq).symm
    rw [get_readSetting_other hs, toldBy_cons_other hne]

theorem get_readEntries (hnodup : (es.map Prod.fst).Nodup) (hopen : Open l es) (s : Setting) :
    (readEntries es l).value.get s = (toldBy s es).or (l.get s) := by
  induction es generalizing l with
  | nil => rfl
  | cons e rest ih =>
    obtain ⟨key, v⟩ := e
    have hrest := (List.nodup_cons.1 hnodup).2
    unfold readEntries
    cases hname : Setting.ofName? key with
    | none =>
      rw [toldBy_cons_other (Setting.ne_name_of_ofName? hname s)]
      exact ih hrest hopen.rest
    | some t =>
      have hkey := Setting.name_of_ofName? hname
      rw [← told_step hopen hkey hnodup]
      exact ih hrest (hopen.step hkey hnodup v)

theorem keys_normalEntries (es : List (String × Value)) :
    (Value.normalEntries es).map Prod.fst = es.map Prod.fst := by
  induction es with
  | nil => rfl
  | cons e rest ih =>
    obtain ⟨key, v⟩ := e
    rw [Value.normalEntries, List.map_cons, ih, List.map_cons]

theorem nodup_normalEntries (h : (es.map Prod.fst).Nodup) :
    ((Value.normalEntries es).map Prod.fst).Nodup := keys_normalEntries es ▸ h

theorem valueOf_ofList (hnodup : (es.map Prod.fst).Nodup) (key : String) :
    valueOf (Dict.ofList es).entries key = valueOf es key := by
  apply Option.ext
  intro v
  change (Dict.ofList es).get? key = some v ↔ (es.find? (·.1 == key)).map (·.2) = some v
  rw [Dict.get?_ofList_of_nodup hnodup, find?_eq_some_of_nodup hnodup]

/-- A layer that is read from a complete object says what the entries say one by one. -/
theorem get_ofValue (hnodup : (es.map Prod.fst).Nodup) :
    ∃ l, (ofValue (Value.object es).normal).value = .ok l ∧
      ∀ s, l.get s = toldBy s (Value.normalEntries es) := by
  refine ⟨(readEntries (Dict.ofList (Value.normalEntries es)).entries empty).value, ?_, fun s => ?_⟩
  · rw [Value.normal]
    rfl
  · rw [get_readEntries (Dict.ofList _).increasing.nodup (open_empty _), get_empty, Option.or_none]
    unfold toldBy
    rw [valueOf_ofList (nodup_normalEntries hnodup)]

end Layer
end ProfilingAgent

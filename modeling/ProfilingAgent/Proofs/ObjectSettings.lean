import ProfilingAgent.Proofs.HiddenSecrets

set_option autoImplicit false

namespace ProfilingAgent

open Json Log

namespace Layer

variable {d : Dict Value} {s t : Setting}

def toldOf (s : Setting) (v : Value) : List Event := (readSetting s v empty).events

theorem events_readSetting (s : Setting) (v : Value) (l : Layer) :
    (readSetting s v l).events = toldOf s v := by
  unfold toldOf readSetting
  split
  · rfl
  · cases s <;> rfl

def toldOfEntry (e : String × Value) : List Event :=
  match Setting.ofName? e.1 with
  | none => []
  | some s => toldOf s e.2

theorem toldOfEntry_name (s : Setting) (v : Value) : toldOfEntry (s.name, v) = toldOf s v := by
  unfold toldOfEntry
  rw [Setting.ofName?_name]

theorem events_readEntries (es : List (String × Value)) (l : Layer) :
    (readEntries es l).events = es.flatMap toldOfEntry := by
  induction es generalizing l with
  | nil => rfl
  | cons e rest ih =>
    obtain ⟨key, v⟩ := e
    rw [List.flatMap_cons, toldOfEntry]
    unfold readEntries
    cases Setting.ofName? key with
    | none => exact ih l
    | some s =>
      change (readSetting s v l).events ++ (readEntries rest (readSetting s v l).value).events = _
      rw [events_readSetting, ih]

def ofObject (d : Dict Value) : Layer := (readEntries d.entries empty).value

theorem get_ofObject (d : Dict Value) (s : Setting) :
    (ofObject d).get s = (d.get? s.name).bind (told s) := by
  unfold ofObject
  rw [get_readEntries d.increasing.nodup (open_empty _), get_empty, Option.or_none]
  rfl

theorem get_ofObject_same (d : Dict Value) (s : Setting) (v : Value) :
    (ofObject (d.insert s.name v)).get s = told s v := by
  rw [get_ofObject, Dict.get?_insert, if_pos rfl]
  rfl

theorem get_ofObject_other (h : t ≠ s) (d : Dict Value) (v : Value) :
    (ofObject (d.insert s.name v)).get t = (ofObject d).get t := by
  rw [get_ofObject, Dict.get?_insert, if_neg fun hname => h (Setting.name_injective hname).symm, get_ofObject]

theorem agreeBut_insert (d : Dict Value) (s : Setting) (v w : Value) :
    AgreeBut [s] (ofObject (d.insert s.name v)) (ofObject (d.insert s.name w)) := by
  intro t ht
  have hne : t ≠ s := fun heq => ht (List.mem_singleton.2 heq)
  rw [get_ofObject_other hne, get_ofObject_other hne]

theorem remarks_congr {a b : Layer} (h : a.get .sampleRate = b.get .sampleRate) : a.remarks = b.remarks := by
  have hrate : a.sampleRate = b.sampleRate := h
  unfold remarks
  rw [hrate]

end Layer

namespace Settings

def ofObject (d : Dict Value) : Noted (Except Fault Settings) := do
  match ← Layer.ofValue (.object d.entries) with
  | .ok l => do
    let s ← l.settle
    pure (.ok s)
  | .error fault => pure (.error fault)

theorem value_ofObject (d : Dict Value) : (ofObject d).value = .ok (Layer.ofObject d).resolve := rfl

theorem events_ofObject (d : Dict Value) :
    (ofObject d).events = d.entries.flatMap Layer.toldOfEntry ++ (Layer.ofObject d).remarks := by
  change ((Layer.readEntries d.entries .empty).events ++ []) ++ ((Layer.ofObject d).remarks ++ []) = _
  rw [List.append_nil, List.append_nil, Layer.events_readEntries]

/-- What is told of one value stands between things that do not depend on it. -/
theorem events_insert (d : Dict Value) {s : Setting} (h : s ≠ .sampleRate) : ∃ before after,
    ∀ v, (ofObject (d.insert s.name v)).events = before ++ (Layer.toldOf s v ++ after) := by
  obtain ⟨before, after, hsplit⟩ := insertEntry_split s.name d.entries
  refine ⟨before.flatMap Layer.toldOfEntry, after.flatMap Layer.toldOfEntry ++ (Layer.ofObject d).remarks,
    fun v => ?_⟩
  have hentries : (d.insert s.name v).entries = before ++ (s.name, v) :: after := hsplit v
  rw [events_ofObject, Layer.remarks_congr (Layer.get_ofObject_other h.symm d v), hentries,
    List.flatMap_append, List.flatMap_cons, Layer.toldOfEntry_name]
  simp only [List.append_assoc]

theorem events_insert_iff (d : Dict Value) {s : Setting} (h : s ≠ .sampleRate) (v w : Value) :
    (ofObject (d.insert s.name v)).events = (ofObject (d.insert s.name w)).events ↔
      Layer.toldOf s v = Layer.toldOf s w := by
  obtain ⟨before, after, hevents⟩ := events_insert d h
  rw [hevents, hevents, List.append_cancel_left_eq, List.append_cancel_right_eq]

end Settings

end ProfilingAgent

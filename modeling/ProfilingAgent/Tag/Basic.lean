import ProfilingAgent.Json.Fault
import ProfilingAgent.Text.Blank

set_option autoImplicit false

namespace ProfilingAgent

structure Tag where
  key : String
  value : String
deriving DecidableEq, Inhabited, Repr

inductive TagError
  | emptyKey (value : String)
  | delimiter (key : String) (character : Char)
  | whitespace (key : String)
  | json (fault : Json.Fault)
deriving DecidableEq, Repr

namespace TagError

def message : TagError → String
  | emptyKey value => "tag key must not be empty (value '" ++ value ++ "')"
  | delimiter key character =>
    "tag '" ++ key ++ "' cannot be encoded in the legacy format: '" ++
      String.singleton character ++ "' is a delimiter"
  | whitespace key =>
    "tag '" ++ key ++
      "' cannot be encoded in the legacy format: surrounding whitespace is lost when parsed"
  | json fault => "invalid tag JSON: " ++ fault.message

end TagError

namespace Tag

def text (t : Tag) : String := t.key ++ "=" ++ t.value

def isValid (t : Tag) : Bool := !Text.allBlank t.key

def check (t : Tag) : Except TagError Unit :=
  if t.isValid then .ok () else .error (.emptyKey t.value)

def checkAll : List Tag → Except TagError Unit
  | [] => .ok ()
  | t :: rest =>
    match t.check with
    | .ok _ => checkAll rest
    | .error e => .error e

def le (a b : Tag) : Bool := a.key < b.key || (a.key == b.key && (a.value < b.value || a.value == b.value))

def sort (tags : List Tag) : List Tag := tags.mergeSort le

theorem checkAll_eq_ok_iff (tags : List Tag) :
    checkAll tags = .ok () ↔ ∀ t ∈ tags, t.isValid = true := by
  induction tags with
  | nil => simp [checkAll]
  | cons t rest ih =>
    cases h : t.isValid <;> simp [checkAll, check, h, ih]

def FirstBlank (tags : List Tag) (t : Tag) : Prop :=
  ∃ before after, tags = before ++ t :: after ∧ (∀ u ∈ before, u.isValid = true) ∧ t.isValid = false

theorem firstBlank_cons {t u : Tag} {tags : List Tag} : FirstBlank (u :: tags) t ↔
    (u.isValid = false ∧ u = t) ∨ (u.isValid = true ∧ FirstBlank tags t) := by
  constructor
  · rintro ⟨before, after, htags, hbefore, ht⟩
    cases before with
    | nil =>
      obtain ⟨rfl, -⟩ := List.cons.inj htags
      exact .inl ⟨ht, rfl⟩
    | cons first before =>
      obtain ⟨rfl, rfl⟩ := List.cons.inj htags
      exact .inr ⟨hbefore u List.mem_cons_self,
        before, after, rfl, fun v hv => hbefore v (List.mem_cons_of_mem u hv), ht⟩
  · rintro (⟨hu, rfl⟩ | ⟨hu, before, after, rfl, hbefore, ht⟩)
    · exact ⟨[], tags, rfl, fun v hv => (List.not_mem_nil hv).elim, hu⟩
    · exact ⟨u :: before, after, rfl, List.forall_mem_cons.2 ⟨hu, hbefore⟩, ht⟩

theorem checkAll_eq_error_iff (tags : List Tag) (e : TagError) :
    checkAll tags = .error e ↔ ∃ t, FirstBlank tags t ∧ e = .emptyKey t.value := by
  induction tags with
  | nil =>
    refine iff_of_false (by simp [checkAll]) ?_
    rintro ⟨t, ⟨before, after, htags, -⟩, -⟩
    simp at htags
  | cons u rest ih =>
    cases hu : u.isValid with
    | false => simp [checkAll, check, firstBlank_cons, hu, eq_comm]
    | true => simp [checkAll, check, firstBlank_cons, hu, ih]

end Tag
end ProfilingAgent

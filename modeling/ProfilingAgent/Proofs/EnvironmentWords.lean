import ProfilingAgent.Environment.Grammar
import ProfilingAgent.Proofs.Trimming

set_option autoImplicit false

namespace ProfilingAgent.Environment

open Text

/-- A text without blanks at its ends and without any character that the grammar has a use for. -/
structure Unadorned (v : String) : Prop where
  ne_empty : v ≠ ""
  trimmed : trimChars v.toList = v.toList
  plain : ∀ c ∈ v.toList, c ∉ [',', '{', '}', '[', ']', '"', '\'']

def typing (v : String) : Typed :=
  if v = "true" then .bool true else if v = "false" then .bool false else word v.toList

theorem isBlank_of_isSpace {c : Char} (h : isSpace c = true) : isBlank c = true := by
  simp only [isSpace, Bool.or_eq_true, decide_eq_true_eq] at h
  rcases h with (((rfl | rfl) | rfl) | rfl) | rfl <;> rfl

theorem skipSpaces_eq_nil {cs : List Char} (h : skipSpaces cs = []) : ∀ c ∈ cs, isBlank c = true :=
  fun c hc => isBlank_of_isSpace (List.dropWhile_eq_nil_iff.1 h c hc)

theorem lower_letter_ne {c : Char} (hc : c = 't' ∨ c = 'f') (rest : List Char) {w : String} {d : Char}
    (hw : w.toList.head? = some d) (hd : d ≠ 't' ∧ d ≠ 'f') : lower (String.ofList (c :: rest)) ≠ w := by
  rintro rfl
  unfold lower at hw
  rw [String.toList_ofList, String.toList_ofList] at hw
  rcases hc with rfl | rfl
  · exact hd.1 (Option.some.inj hw).symm
  · exact hd.2 (Option.some.inj hw).symm

theorem real_letter {c : Char} (hc : c = 't' ∨ c = 'f') (rest : List Char) :
    Binary64.ofText? (String.ofList (c :: rest)) = none := by
  have hinf : lower (String.ofList (c :: rest)) ≠ "inf" := @lower_letter_ne c hc rest _ 'i' rfl (by decide)
  have hinfinity : lower (String.ofList (c :: rest)) ≠ "infinity" :=
    @lower_letter_ne c hc rest _ 'i' rfl (by decide)
  have hnan : lower (String.ofList (c :: rest)) ≠ "nan" := @lower_letter_ne c hc rest _ 'n' rfl (by decide)
  have hmagnitude : Binary64.readMagnitude (c :: rest) = none := by rcases hc with rfl | rfl <;> rfl
  unfold Binary64.ofText?
  rw [String.toList_ofList, Option.map_eq_none_iff]
  have hsign : ∀ signed : Bool × List Char, signed = (false, c :: rest) →
      (if lower (String.ofList signed.2) = "inf" ∨ lower (String.ofList signed.2) = "infinity" then
        some Binary64.infinity
      else if lower (String.ofList signed.2) = "nan" then some Binary64.notANumber
      else Binary64.readMagnitude signed.2) = none := by
    rintro signed rfl
    rw [if_neg (not_or.2 ⟨hinf, hinfinity⟩), if_neg hnan]
    exact hmagnitude
  rcases hc with rfl | rfl
  · exact hsign _ rfl
  · exact hsign _ rfl

theorem word_letter {c : Char} (hc : c = 't' ∨ c = 'f') (rest : List Char) :
    word (c :: rest) = .text (String.ofList (c :: rest)) := by
  have hunsigned : unsigned? (c :: rest) = none := by rcases hc with rfl | rfl <;> rfl
  have hsigned : signed? (c :: rest) = none := by rcases hc with rfl | rfl <;> rfl
  unfold word
  dsimp only
  rw [real_letter hc, ite_self, hunsigned, hsigned]

namespace Unadorned

variable {v : String} (h : Unadorned v)

include h

theorem toList_ne_nil : v.toList ≠ [] := fun hnil => h.ne_empty (String.toList_eq_nil_iff.1 hnil)

theorem not_space_head {c : Char} (hc : v.toList.head? = some c) : isSpace c = false := by
  have hblank := (trimChars_eq_self_iff.1 h.trimmed).1 c hc
  by_contra hspace
  rw [isBlank_of_isSpace (by simpa using hspace)] at hblank
  cases hblank

theorem skipSpaces_toList : skipSpaces v.toList = v.toList := by
  obtain ⟨c, rest, hcons⟩ := List.exists_cons_of_ne_nil h.toList_ne_nil
  have hspace := h.not_space_head (c := c) (by rw [hcons]; rfl)
  unfold skipSpaces
  rw [hcons, List.dropWhile_cons_of_neg (by simp [hspace])]

theorem skipSpaces_ne_nil {before rest : List Char} (hsplit : v.toList = before ++ rest)
    (hrest : rest ≠ []) : skipSpaces rest ≠ [] := by
  intro hnil
  obtain ⟨c, hc⟩ := List.getLast?_isSome.2 hrest |> Option.isSome_iff_exists.1
  have hlast : v.toList.getLast? = some c := by
    rw [hsplit, List.getLast?_append, hc]
    rfl
  have hblank := (trimChars_eq_self_iff.1 h.trimmed).2 c hlast
  rw [skipSpaces_eq_nil hnil c (List.mem_of_getLast? hc)] at hblank
  cases hblank

theorem not_separator : ∀ c ∈ v.toList, isSeparator c = false := by
  intro c hc
  have hplain := h.plain c hc
  simp only [List.mem_cons, List.not_mem_nil, or_false, not_or] at hplain
  simp [isSeparator, hplain]

theorem head_plain {c : Char} {rest : List Char} (hcons : v.toList = c :: rest) :
    c ∉ [',', '{', '}', '[', ']', '"', '\''] := h.plain c (hcons ▸ List.mem_cons_self)

theorem bare_word {n : Nat} (htrue : ¬"true".toList <+: v.toList) (hfalse : ¬"false".toList <+: v.toList) :
    bare (n + 1) v.toList = .ok (word v.toList, []) := by
  have hall : ∀ c ∈ v.toList, (!isSeparator c) = true := fun c hc => by simp [h.not_separator c hc]
  unfold bare
  split
  · rename_i rest heq
    exact absurd ⟨rest, heq.symm⟩ htrue
  · rename_i rest heq
    exact absurd ⟨rest, heq.symm⟩ hfalse
  · rename_i rest heq
    exact absurd (by decide) (h.head_plain heq)
  · rename_i rest heq
    exact absurd (by decide) (h.head_plain heq)
  · rename_i rest heq
    exact absurd (by decide) (h.head_plain heq)
  · rename_i c rest heq
    exact absurd (by decide) (h.head_plain heq)
  · rename_i rest _ heq
    exact absurd (by decide) (h.head_plain heq)
  · rw [List.takeWhile_eq_self_iff.2 hall, List.dropWhile_eq_nil_iff.2 hall, h.trimmed]

theorem value_of_bare {n : Nat} {t : Typed} {rest : List Char}
    (hbare : bare n v.toList = .ok (t, rest)) :
    value (n + 1) v.toList = .ok (t, skipSpaces rest) := by
  unfold value
  rw [h.skipSpaces_toList, hbare]
  rfl

theorem ofText_of_bare {n : Nat} {t : Typed} {rest : List Char}
    (hfuel : 3 * v.length + 3 = n + 1) (hbare : bare n v.toList = .ok (t, rest)) :
    (rest = [] → Typed.ofText v = .ok t) ∧ (skipSpaces rest ≠ [] → Typed.ofText v = .ok (.text v)) := by
  unfold Typed.ofText
  rw [hfuel, h.value_of_bare hbare]
  constructor
  · rintro rfl
    rfl
  · intro hne
    obtain ⟨c, more, hmore⟩ := List.exists_cons_of_ne_nil hne
    rw [hmore]

theorem ofText_word {w : String} {t : Typed} {c : Char} {ws rest : List Char} (hw : w.toList = c :: ws)
    (hc : c = 't' ∨ c = 'f') (hsplit : v.toList = w.toList ++ rest)
    (hbare : ∀ n, bare (n + 1) v.toList = .ok (t, rest)) :
    Typed.ofText v = .ok (if v = w then t else word v.toList) := by
  obtain ⟨n, hfuel⟩ : ∃ n, 3 * v.length + 3 = (n + 1) + 1 := ⟨3 * v.length + 1, rfl⟩
  obtain ⟨hend, hmore⟩ := h.ofText_of_bare hfuel (hbare n)
  by_cases hrest : rest = []
  · have hv : v = w := by
      rw [← String.toList_inj, hsplit, hrest, List.append_nil]
    rw [if_pos hv, hend hrest]
  · have hv : v ≠ w := by
      rintro rfl
      exact hrest (by simpa using hsplit)
    have hcons : v.toList = c :: (ws ++ rest) := by rw [hsplit, hw, List.cons_append]
    rw [if_neg hv, hmore (h.skipSpaces_ne_nil hsplit hrest), hcons, word_letter hc, ← hcons,
      String.ofList_toList]

theorem ofText_typing : Typed.ofText v = .ok (typing v) := by
  unfold typing
  by_cases htrue : "true".toList <+: v.toList
  · obtain ⟨rest, hsplit⟩ := htrue
    have hfalse : v ≠ "false" := by
      rintro rfl
      have hhead : some 't' = some 'f' := congrArg List.head? hsplit
      exact absurd hhead (by decide)
    rw [if_neg hfalse]
    exact h.ofText_word rfl (.inl rfl) hsplit.symm fun n => by rw [← hsplit]; rfl
  · have hne : v ≠ "true" := by
      rintro rfl
      exact htrue List.prefix_rfl
    rw [if_neg hne]
    by_cases hfalse : "false".toList <+: v.toList
    · obtain ⟨rest, hsplit⟩ := hfalse
      exact h.ofText_word rfl (.inr rfl) hsplit.symm fun n => by rw [← hsplit]; rfl
    · have hne' : v ≠ "false" := by
        rintro rfl
        exact hfalse List.prefix_rfl
      rw [if_neg hne']
      have hbare : bare (3 * v.length + 2) v.toList = .ok (word v.toList, []) := h.bare_word htrue hfalse
      exact (h.ofText_of_bare rfl hbare).1 rfl

end Unadorned

end ProfilingAgent.Environment

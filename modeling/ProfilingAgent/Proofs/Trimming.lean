import Mathlib.Data.List.DropRight
import ProfilingAgent.Text.Blank

set_option autoImplicit false

namespace ProfilingAgent.Text

variable {cs : List Char} {c : Char}

theorem trimEnd_isPrefix (cs : List Char) : trimEnd cs <+: cs := List.rdropWhile_prefix isBlank cs

theorem trimStart_isSuffix (cs : List Char) : trimStart cs <:+ cs := List.dropWhile_suffix isBlank

theorem not_blank_of_head?_trimStart (h : (trimStart cs).head? = some c) : isBlank c = false := by
  have hhead := List.head?_dropWhile_not isBlank cs
  unfold trimStart at h
  rw [h] at hhead
  simpa using hhead

theorem not_blank_of_getLast?_trimEnd (h : (trimEnd cs).getLast? = some c) : isBlank c = false := by
  unfold trimEnd at h
  rw [List.getLast?_reverse] at h
  exact @not_blank_of_head?_trimStart cs.reverse c h

theorem trimStart_eq_self_iff : trimStart cs = cs ↔ ∀ c, cs.head? = some c → isBlank c = false := by
  constructor
  · intro h c hc
    exact not_blank_of_head?_trimStart (h.symm ▸ hc)
  · intro h
    cases cs with
    | nil => rfl
    | cons c rest => exact List.dropWhile_cons_of_neg (by simpa using h c rfl)

theorem trimEnd_eq_self_iff : trimEnd cs = cs ↔ ∀ c, cs.getLast? = some c → isBlank c = false := by
  have hstart := @trimStart_eq_self_iff cs.reverse
  rw [List.head?_reverse] at hstart
  rw [← hstart]
  exact List.reverse_eq_iff

theorem trimChars_isInfix (cs : List Char) : trimChars cs <:+: cs :=
  (trimEnd_isPrefix _).isInfix.trans (trimStart_isSuffix cs).isInfix

theorem trimChars_eq_nil_iff : trimChars cs = [] ↔ ∀ c ∈ cs, isBlank c = true := by
  have hend : ∀ {ds : List Char}, trimEnd ds = [] ↔ ∀ c ∈ ds, isBlank c = true :=
    List.rdropWhile_eq_nil_iff
  constructor
  · intro h c hc
    rw [← List.takeWhile_append_dropWhile (p := isBlank) (l := cs), List.mem_append] at hc
    rcases hc with hc | hc
    · exact List.mem_takeWhile_imp hc
    · exact hend.1 h c hc
  · intro h
    exact hend.2 fun c hc => h c ((trimStart_isSuffix cs).mem hc)

theorem not_blank_of_getLast?_trimChars (h : (trimChars cs).getLast? = some c) :
    isBlank c = false := not_blank_of_getLast?_trimEnd h

theorem not_blank_of_head?_trimChars (h : (trimChars cs).head? = some c) : isBlank c = false := by
  apply @not_blank_of_head?_trimStart cs
  obtain ⟨rest, hrest⟩ := trimEnd_isPrefix (trimStart cs)
  rw [← hrest, List.head?_append]
  exact Option.or_eq_some_iff.2 (.inl h)

theorem trimChars_eq_self_iff : trimChars cs = cs ↔
    (∀ c, cs.head? = some c → isBlank c = false) ∧ ∀ c, cs.getLast? = some c → isBlank c = false := by
  constructor
  · intro h
    exact ⟨fun c hc => not_blank_of_head?_trimChars (h.symm ▸ hc),
      fun c hc => not_blank_of_getLast?_trimChars (h.symm ▸ hc)⟩
  · rintro ⟨hhead, hlast⟩
    unfold trimChars
    rw [trimStart_eq_self_iff.2 hhead, trimEnd_eq_self_iff.2 hlast]

theorem trimChars_trimChars (cs : List Char) : trimChars (trimChars cs) = trimChars cs :=
  trimChars_eq_self_iff.2
    ⟨fun _ => not_blank_of_head?_trimChars, fun _ => not_blank_of_getLast?_trimChars⟩

end ProfilingAgent.Text

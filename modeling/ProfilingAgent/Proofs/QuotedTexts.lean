import Mathlib.Tactic.SplitIfs
import ProfilingAgent.Text.Quoted

set_option autoImplicit false

namespace ProfilingAgent.Text

def hexadecimalValue (ds : List Char) : Nat := ds.foldl (fun n c => n * 16 + (hexValue c).getD 0) 0

theorem hexValue_digit : ∀ d < 16, (hexValue (digit d)).getD 0 = d := by decide

theorem digit_ne_brace : ∀ d < 16, digit d ≠ '}' := by decide

theorem hexadecimalValue_hexadecimal (n : Nat) : hexadecimalValue (hexadecimal n) = n := by
  unfold hexadecimalValue
  rw [hexadecimal]
  split
  · rename_i h
    simp [hexValue_digit n h]
  · have hrest := hexadecimalValue_hexadecimal (n / 16)
    unfold hexadecimalValue at hrest
    rw [List.foldl_append, hrest, List.foldl_cons, List.foldl_nil,
      hexValue_digit _ (Nat.mod_lt _ (by decide))]
    omega
termination_by n

theorem brace_not_mem_hexadecimal (n : Nat) : '}' ∉ hexadecimal n := by
  rw [hexadecimal]
  split
  · rename_i h
    simpa using (digit_ne_brace n h).symm
  · have hrest := brace_not_mem_hexadecimal (n / 16)
    have hlast := (digit_ne_brace _ (Nat.mod_lt n (by decide : 0 < 16))).symm
    simp [hrest, hlast]
termination_by n

theorem append_mark_inj {mark : Char} {as bs xs ys : List Char} (has : mark ∉ as) (hbs : mark ∉ bs)
    (h : as ++ mark :: xs = bs ++ mark :: ys) : as = bs ∧ xs = ys := by
  induction as generalizing bs with
  | nil =>
    cases bs with
    | nil => exact ⟨rfl, (List.cons.inj h).2⟩
    | cons b bs => exact absurd (List.mem_cons.2 (.inl (List.cons.inj h).1)) hbs
  | cons a as ih =>
    cases bs with
    | nil => exact absurd (List.mem_cons.2 (.inl (List.cons.inj h).1.symm)) has
    | cons b bs =>
      obtain ⟨rfl, htail⟩ := List.cons.inj h
      obtain ⟨rfl, hrest⟩ := ih (fun hmem => has (List.mem_cons_of_mem _ hmem))
        (fun hmem => hbs (List.mem_cons_of_mem _ hmem)) htail
      exact ⟨rfl, hrest⟩

def marked? : Char → Option Char
  | '0' => some '\x00'
  | 't' => some '\t'
  | 'r' => some '\r'
  | 'n' => some '\n'
  | '"' => some '"'
  | '\\' => some '\\'
  | _ => none

theorem quotedChar_cases (c : Char) :
    (∃ m, quotedChar c = ['\\', m] ∧ marked? m = some c) ∨
      (quotedChar c = '\\' :: 'u' :: '{' :: (hexadecimal c.toNat ++ ['}'])) ∨
      (quotedChar c = [c] ∧ c ≠ '\\') := by
  unfold quotedChar
  split_ifs with hzero ht hr hn hquote hbackslash hhidden
  · exact .inl ⟨_, rfl, hzero ▸ rfl⟩
  · exact .inl ⟨_, rfl, ht ▸ rfl⟩
  · exact .inl ⟨_, rfl, hr ▸ rfl⟩
  · exact .inl ⟨_, rfl, hn ▸ rfl⟩
  · exact .inl ⟨_, rfl, by rw [hquote]; rfl⟩
  · exact .inl ⟨_, rfl, by rw [hbackslash]; rfl⟩
  · exact .inr (.inl rfl)
  · exact .inr (.inr ⟨rfl, hbackslash⟩)

theorem quotedChar_append_inj {c d : Char} {xs ys : List Char} (h : quotedChar c ++ xs = quotedChar d ++ ys) :
    c = d ∧ xs = ys := by
  rcases quotedChar_cases c with ⟨m, hc, hm⟩ | hc | ⟨hc, hne⟩ <;>
    rcases quotedChar_cases d with ⟨n, hd, hn⟩ | hd | ⟨hd, hne'⟩ <;>
    rw [hc, hd] at h
  · obtain ⟨-, rfl, rfl⟩ : '\\' = '\\' ∧ m = n ∧ xs = ys := by simpa using h
    exact ⟨Option.some.inj (hm.symm.trans hn), rfl⟩
  · obtain ⟨rfl, -⟩ : m = 'u' ∧ xs = _ := by simpa using h
    cases hm
  · exact absurd (List.cons.inj h).1.symm hne'
  · obtain ⟨rfl, -⟩ : 'u' = n ∧ _ = ys := by simpa using h
    cases hn
  · have hdigits : hexadecimal c.toNat ++ '}' :: xs = hexadecimal d.toNat ++ '}' :: ys := by simpa using h
    obtain ⟨hnumber, hrest⟩ :=
      append_mark_inj (brace_not_mem_hexadecimal _) (brace_not_mem_hexadecimal _) hdigits
    have hvalue := congrArg hexadecimalValue hnumber
    rw [hexadecimalValue_hexadecimal, hexadecimalValue_hexadecimal] at hvalue
    exact ⟨Char.toNat_inj.1 hvalue, hrest⟩
  · exact absurd (List.cons.inj h).1.symm hne'
  · exact absurd (List.cons.inj h).1 hne
  · exact absurd (List.cons.inj h).1 hne
  · exact List.cons.inj h

theorem flatMap_quotedChar_inj {cs ds : List Char} (h : cs.flatMap quotedChar = ds.flatMap quotedChar) :
    cs = ds := by
  have hsome : ∀ c, quotedChar c ≠ [] := by
    intro c
    rcases quotedChar_cases c with ⟨m, hc, -⟩ | hc | ⟨hc, -⟩
    all_goals
      rw [hc]
      exact List.cons_ne_nil _ _
  induction cs generalizing ds with
  | nil =>
    cases ds with
    | nil => rfl
    | cons d ds => exact absurd (List.append_eq_nil_iff.1 h.symm).1 (hsome d)
  | cons c cs ih =>
    cases ds with
    | nil => exact absurd (List.append_eq_nil_iff.1 h).1 (hsome c)
    | cons d ds =>
      obtain ⟨rfl, hrest⟩ := quotedChar_append_inj h
      rw [ih hrest]

theorem quoted_inj {s t : String} : quoted s = quoted t ↔ s = t := by
  refine ⟨fun h => ?_, fun h => by rw [h]⟩
  have hchars := congrArg String.toList h
  unfold quoted quotedChars at hchars
  rw [String.toList_ofList, String.toList_ofList] at hchars
  exact String.toList_inj.1 (flatMap_quotedChar_inj (List.append_cancel_right (List.cons.inj hchars).2))

end ProfilingAgent.Text

import ProfilingAgent.Proofs.ValuesInText

set_option autoImplicit false

namespace ProfilingAgent

namespace Text

theorem eq_zero_of_head?_digit : ∀ d, d < 10 → digit d = '0' → d = 0 := by decide

theorem decimal_zero : decimal 0 = ['0'] := by
  rw [decimal]
  rfl

theorem eq_zero_of_head?_decimal {n : Nat} (h : (decimal n).head? = some '0') : n = 0 := by
  rw [decimal] at h
  split at h
  · rename_i hlt
    exact eq_zero_of_head?_digit n hlt (Option.some.inj h)
  · rename_i hle
    obtain ⟨first, ds, heq⟩ := List.exists_cons_of_ne_nil (decimal_ne_nil (n / 10))
    rw [heq, List.cons_append] at h
    have hzero : n / 10 = 0 := eq_zero_of_head?_decimal (by rw [heq]; exact h)
    omega
termination_by n

theorem decimal_cons (n : Nat) :
    ∃ first ds, decimal n = first :: ds ∧ first.isDigit = true ∧ (first = '0' → n = 0) := by
  obtain ⟨first, ds, heq⟩ := List.exists_cons_of_ne_nil (decimal_ne_nil n)
  refine ⟨first, ds, heq, decimal_all_isDigit n first (heq ▸ List.mem_cons_self), ?_⟩
  rintro rfl
  exact eq_zero_of_head?_decimal (by rw [heq]; rfl)

def Leading (ds : List Char) : Prop :=
  (∀ d ∈ ds, d.isDigit = true) ∧ ∃ first more, ds = first :: more ∧ (first = '0' → more = [])

theorem leading_decimal (n : Nat) : Leading (decimal n) := by
  obtain ⟨first, ds, heq, -, hzero⟩ := decimal_cons n
  refine ⟨decimal_all_isDigit n, first, ds, heq, fun hfirst => ?_⟩
  obtain rfl := hzero hfirst
  rw [decimal_zero] at heq
  exact (List.cons.inj heq).2.symm

end Text

namespace Json.Reader

variable {rest : List Char} {c : Cursor} {n : Nat}

theorem le_foldl_digits (ds : List Char) (n : Nat) : n ≤ ds.foldl (fun n d => n * 10 + (d.toNat - 48)) n := by
  induction ds generalizing n with
  | nil => exact Nat.le_refl n
  | cons d ds ih =>
    have hrest := ih (n * 10 + (d.toNat - 48))
    rw [List.foldl_cons]
    omega

theorem gather_of_le (ds : List Char) : ∀ {significand : Nat},
    ds.foldl (fun n d => n * 10 + (d.toNat - 48)) significand ≤ significandLimit →
      gather significand ds = (ds.foldl (fun n d => n * 10 + (d.toNat - 48)) significand, 0) := by
  induction ds with
  | nil => exact fun _ => rfl
  | cons d ds ih =>
    intro significand h
    rw [List.foldl_cons] at h ⊢
    have hnext := le_foldl_digits ds (significand * 10 + (d.toNat - 48))
    unfold gather
    rw [if_neg (by omega), ih h]

theorem gather_eq {ds : List Char} (h : Text.digitsValue ds ≤ significandLimit) :
    gather 0 ds = (Text.digitsValue ds, 0) := gather_of_le ds h

def NoDigit (rest : List Char) : Prop := ∀ ch, rest.head? = some ch → ch.isDigit = false

def Stops (rest : List Char) : Prop :=
  ∀ ch, rest.head? = some ch → ch.isDigit = false ∧ ch ≠ '.' ∧ ch ≠ 'e' ∧ ch ≠ 'E'

theorem stops_nil : Stops [] := nofun

theorem stops_cons {ch : Char} (h : ch.isDigit = false ∧ ch ≠ '.' ∧ ch ≠ 'e' ∧ ch ≠ 'E') :
    Stops (ch :: rest) := by
  intro other hother
  obtain rfl := Option.some.inj hother
  exact h

theorem Stops.noDigit (h : Stops rest) : NoDigit rest := fun ch hch => (h ch hch).1

theorem noDigit_cons {ch : Char} (h : ch.isDigit = false) : NoDigit (ch :: rest) := by
  intro other hother
  obtain rfl := Option.some.inj hother
  exact h

variable {ds : List Char} {negative : Bool}

theorem takeWhile_digits (hds : ∀ d ∈ ds, d.isDigit = true) (hrest : NoDigit rest) :
    (ds ++ rest).takeWhile Char.isDigit = ds ∧ (ds ++ rest).dropWhile Char.isDigit = rest := by
  have hnone : rest.takeWhile Char.isDigit = [] ∧ rest.dropWhile Char.isDigit = rest := by
    cases rest with
    | nil => exact ⟨rfl, rfl⟩
    | cons ch rest =>
      have hch := hrest ch rfl
      exact ⟨List.takeWhile_cons_of_neg (by simp [hch]), List.dropWhile_cons_of_neg (by simp [hch])⟩
  rw [List.takeWhile_append_of_pos hds, List.dropWhile_append_of_pos hds, hnone.1, hnone.2, List.append_nil]
  exact ⟨rfl, rfl⟩

theorem gives_digits (hds : ∀ d ∈ ds, d.isDigit = true) (hrest : NoDigit rest) (p : Position) :
    ∃ q, Gives digits ⟨ds ++ rest, p⟩ ds ⟨rest, q⟩ := by
  obtain ⟨htake, hdrop⟩ := takeWhile_digits hds hrest
  refine ⟨(ds ++ rest).takeWhile Char.isDigit |>.foldl Position.after p, ?_⟩
  unfold Gives digits Cursor.skipWhile
  rw [htake, hdrop]

theorem gives_leading {first : Char} {more : List Char} (hds : ∀ d ∈ first :: more, d.isDigit = true)
    (hzero : first = '0' → more = []) (hrest : NoDigit rest) (p : Position) :
    ∃ q, Gives (number.leading first) ⟨first :: more ++ rest, p⟩ (first :: more) ⟨rest, q⟩ := by
  unfold number.leading
  by_cases hfirst : first = '0'
  · obtain rfl := hzero hfirst
    refine ⟨p.after first, ?_⟩
    have htail : (⟨[first] ++ rest, p⟩ : Cursor).tail = ⟨rest, p.after first⟩ := rfl
    rw [if_pos hfirst]
    apply gives_advance.2
    apply gives_peek.2
    rw [htail]
    dsimp only
    cases hhead : rest.head? with
    | none => exact gives_pure.2 ⟨by rw [hfirst], rfl⟩
    | some ch =>
      dsimp only
      rw [hrest ch hhead]
      exact gives_pure.2 ⟨by rw [hfirst], rfl⟩
  · rw [if_neg hfirst]
    exact gives_digits hds hrest p

def afterDigits (negative : Bool) (significand left : Nat) : Reader Number := do
  match ← peek with
  | some '.' => do advance; fractionPart negative significand left
  | some 'e' | some 'E' => do advance; exponentPart negative significand left
  | _ => if left = 0 then wholeNumber negative significand else scaledNumber negative significand left

theorem gives_number (hds : Text.Leading ds) (hfits : Text.digitsValue ds ≤ significandLimit)
    (hrest : NoDigit rest) (p : Position) : ∃ q, ∀ {k : Number} {d : Cursor},
      Gives (afterDigits negative (Text.digitsValue ds) 0) ⟨rest, q⟩ k d →
        Gives (number negative) ⟨ds ++ rest, p⟩ k d := by
  obtain ⟨hdigits, first, more, rfl, hzero⟩ := hds
  obtain ⟨q, hleading⟩ := gives_leading hdigits hzero hrest p
  refine ⟨q, fun {k d} h => ?_⟩
  unfold number
  apply gives_peek.2
  change Gives (if (!first.isDigit) = true then _ else _) _ _ _
  rw [hdigits first List.mem_cons_self]
  refine gives_bind.2 ⟨_, _, hleading, ?_⟩
  rw [gather_eq hfits]
  exact h

theorem gives_number_whole {k : Number} (hfits : n ≤ significandLimit)
    (hwhole : ∀ c, Gives (wholeNumber negative n) c k c) (hrest : Stops rest) (p : Position) :
    ∃ q, Gives (number negative) ⟨Text.decimal n ++ rest, p⟩ k ⟨rest, q⟩ := by
  have hvalue := Text.digitsValue_decimal n
  obtain ⟨q, hnumber⟩ := @gives_number rest (Text.decimal n) negative (Text.leading_decimal n)
    (by rwa [hvalue]) hrest.noDigit p
  refine ⟨q, hnumber ?_⟩
  rw [hvalue]
  apply gives_peek.2
  dsimp only
  split
  · rename_i hpoint
    exact absurd rfl (hrest '.' hpoint).2.1
  · rename_i he
    exact absurd rfl (hrest 'e' he).2.2.1
  · rename_i he
    exact absurd rfl (hrest 'E' he).2.2.2
  · rw [if_pos rfl]
    exact hwhole _

theorem ofInt?_of_inRange (k : Int) (h : -0x8000000000000000 ≤ k ∧ k < 0x10000000000000000) :
    Number.ofInt? k = some (.whole k h) := dif_pos h

theorem gives_wholeNumber_natural (h : -0x8000000000000000 ≤ (n : Int) ∧ (n : Int) < 0x10000000000000000)
    (c : Cursor) : Gives (wholeNumber false n) c (.whole n h) c := by
  unfold wholeNumber
  rw [ofInt?_of_inRange n h, if_neg (by simp)]
  exact gives_pure.2 ⟨rfl, rfl⟩

theorem gives_wholeNumber_negative (hn : n ≠ 0)
    (h : -0x8000000000000000 ≤ -(n : Int) ∧ -(n : Int) < 0x10000000000000000) (c : Cursor) :
    Gives (wholeNumber true n) c (.whole (-n) h) c := by
  have hsmall : n ≤ 0x8000000000000000 := by omega
  unfold wholeNumber
  rw [ofInt?_of_inRange (-n) h, if_pos (by simp [hn, hsmall])]
  exact gives_pure.2 ⟨rfl, rfl⟩

theorem valueAt_whole (n : Int) (h : -0x8000000000000000 ≤ n ∧ n < 0x10000000000000000)
    (hrest : Stops rest) (fuel depth : Nat) (p : Position) :
    ∃ q, ValueAt fuel depth ⟨Text.decimalInt n ++ rest, p⟩ (.number (.whole n h)) ⟨rest, q⟩ := by
  cases n with
  | ofNat n =>
    have hfits : n ≤ significandLimit := by
      have hlt : (n : Int) < 0x10000000000000000 := h.2
      unfold significandLimit
      omega
    obtain ⟨first, ds, heq, hdigit, -⟩ := Text.decimal_cons n
    obtain ⟨q, hnumber⟩ := gives_number_whole hfits (gives_wholeNumber_natural h) hrest p
    refine ⟨q, .natural ?_ hdigit hnumber⟩
    change (Text.decimal n ++ rest).head? = some first
    rw [heq]
    rfl
  | negSucc n =>
    have hfits : n + 1 ≤ significandLimit := by
      have hle : -0x8000000000000000 ≤ Int.negSucc n := h.1
      unfold significandLimit
      omega
    obtain ⟨q, hnumber⟩ := gives_number_whole hfits (gives_wholeNumber_negative n.succ_ne_zero h) hrest
      (p.after '-')
    exact ⟨q, .negative rfl hnumber⟩

end Json.Reader
end ProfilingAgent

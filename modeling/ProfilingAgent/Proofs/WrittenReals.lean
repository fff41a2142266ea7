import ProfilingAgent.Proofs.RoundedNumbers

set_option autoImplicit false

namespace ProfilingAgent.Json.Reader

open Binary64 Text

variable {rest ds places : List Char} {negative : Bool} {s : Nat} {k : Number}

theorem exponentValue_of_le (ds : List Char) : ∀ {value taken : Nat},
    ds.foldl (fun n d => n * 10 + (d.toNat - 48)) value ≤ exponentLimit →
      exponentValue value taken ds = .ok (ds.foldl (fun n d => n * 10 + (d.toNat - 48)) value) := by
  induction ds with
  | nil => exact fun _ => rfl
  | cons d ds ih =>
    intro value taken h
    rw [List.foldl_cons] at h ⊢
    have hnext := le_foldl_digits ds (value * 10 + (d.toNat - 48))
    unfold exponentValue
    rw [if_neg (by omega), ih h]

def exponentChars (e : Int) : List Char := (if e < 0 then '-' else '+') :: decimal e.natAbs

theorem gives_exponentSign (e : Int) (rest : List Char) (p : Position) : ∃ q,
    Gives exponentSign ⟨exponentChars e ++ rest, p⟩ (decide (e < 0)) ⟨decimal e.natAbs ++ rest, q⟩ := by
  unfold exponentChars exponentSign
  split
  · rename_i h
    exact ⟨p.after '-', gives_peek.2 (gives_advance.2 (gives_pure.2 ⟨(decide_eq_true h).symm, rfl⟩))⟩
  · rename_i h
    exact ⟨p.after '+', gives_peek.2 (gives_advance.2 (gives_pure.2 ⟨(decide_eq_false h).symm, rfl⟩))⟩

theorem gives_exponentPart {e place : Int} (he : e.natAbs ≤ exponentLimit)
    (hscaled : ∀ c, Gives (scaledNumber negative s (place + e)) c k c) (hrest : NoDigit rest) (p : Position) :
    ∃ q, Gives (exponentPart negative s place) ⟨exponentChars e ++ rest, p⟩ k ⟨rest, q⟩ := by
  obtain ⟨q, hsign⟩ := gives_exponentSign e rest p
  obtain ⟨first, more, hcons, hdigit, -⟩ := decimal_cons e.natAbs
  obtain ⟨htake, hdrop⟩ := takeWhile_digits (decimal_all_isDigit e.natAbs) hrest
  have hvalue : exponentValue 0 0 (decimal e.natAbs) = .ok e.natAbs := by
    have hdigits : (decimal e.natAbs).foldl (fun n d => n * 10 + (d.toNat - 48)) 0 = e.natAbs :=
      digitsValue_decimal e.natAbs
    rw [exponentValue_of_le _ (by rwa [hdigits]), hdigits]
  have hplace : (if decide (e < 0) = true then place - e.natAbs else place + e.natAbs) = place + e := by
    split
    · rename_i h
      have := of_decide_eq_true h
      omega
    · rename_i h
      have := of_decide_eq_false (Bool.eq_false_iff.2 h)
      omega
  have hhead : (decimal e.natAbs ++ rest).head? = some first := by rw [hcons]; rfl
  refine ⟨((decimal e.natAbs ++ rest).takeWhile Char.isDigit).foldl Position.after q, ?_⟩
  unfold exponentPart
  refine gives_bind.2 ⟨_, _, hsign, ?_⟩
  apply gives_peek.2
  dsimp only
  rw [hhead]
  refine gives_ite.2 (.inl ⟨hdigit, ?_⟩)
  unfold Gives Cursor.skipWhile
  dsimp only
  rw [hdrop, htake, hvalue]
  dsimp only
  rw [hplace]
  exact hscaled _

def afterPlaces (negative : Bool) (significand : Nat) (exponent : Int) : Reader Number := do
  match ← peek with
  | some 'e' | some 'E' => do advance; exponentPart negative significand exponent
  | _ => scaledNumber negative significand exponent

theorem gives_fractionPart (hsome : places ≠ []) (hplaces : ∀ c ∈ places, c.isDigit = true)
    (hfits : digitsValue (ds ++ places) ≤ significandLimit) (hrest : NoDigit rest) (p : Position) :
    ∃ q, ∀ {d : Cursor},
      Gives (afterPlaces negative (digitsValue (ds ++ places)) (-places.length)) ⟨rest, q⟩ k d →
        Gives (fractionPart negative (digitsValue ds) 0) ⟨places ++ rest, p⟩ k d := by
  obtain ⟨q, hdigits⟩ := gives_digits hplaces hrest p
  refine ⟨q, fun {d} h => ?_⟩
  have hgather : gather (digitsValue ds) places = (digitsValue (ds ++ places), 0) := by
    have hvalue : places.foldl (fun n d => n * 10 + (d.toNat - 48)) (digitsValue ds) =
        digitsValue (ds ++ places) := (List.foldl_append ..).symm
    rw [gather_of_le places (by rwa [hvalue]), hvalue]
  have hplace : ((0 : Nat) : Int) - (places.length - 0 : Nat) = -places.length := by omega
  unfold fractionPart
  refine gives_bind.2 ⟨_, _, hdigits, ?_⟩
  rw [List.isEmpty_eq_false_iff.2 hsome, hgather]
  dsimp only
  rw [hplace]
  exact h

theorem gives_scaledNumber {e : Int} (h : ∃ x, scale s e = some x ∧ x.isFinite = true) (negative : Bool) :
    ∃ k, ∀ c, Gives (scaledNumber negative s e) c k c := by
  obtain ⟨x, hscale, hfinite⟩ := h
  have hsigned : (signed negative x).isFinite = true := by
    cases negative with
    | false => exact hfinite
    | true => exact isFinite_neg hfinite
  refine ⟨.real (signed negative x) hsigned, fun c => ?_⟩
  unfold scaledNumber realNumber
  rw [hscale]
  dsimp only
  rw [show Number.ofBinary64? (signed negative x) = some (.real _ hsigned) from dif_pos hsigned]
  exact gives_pure.2 ⟨rfl, rfl⟩

structure Writing where
  digits : List Char
  places : List Char
  exponent : Option Int

namespace Writing

variable {w : Writing}

def fractionChars (w : Writing) : List Char := if w.places = [] then [] else '.' :: w.places

def endChars (w : Writing) : List Char :=
  match w.exponent with
  | none => []
  | some e => 'e' :: exponentChars e

def chars (w : Writing) : List Char := w.digits ++ (w.fractionChars ++ w.endChars)

def significand (w : Writing) : Nat := digitsValue (w.digits ++ w.places)

def place (w : Writing) : Int := -w.places.length + w.exponent.getD 0

/-- A number that is not written as a whole number, and can be read. -/
structure Real (w : Writing) : Prop where
  leading : Leading w.digits
  isDigit : ∀ c ∈ w.places, c.isDigit = true
  parts : w.places = [] → ∃ e, w.exponent = some e
  fits : w.significand ≤ significandLimit
  exponent : ∀ e, w.exponent = some e → e.natAbs ≤ exponentLimit
  finite : ∃ x, scale w.significand w.place = some x ∧ x.isFinite = true

theorem noDigit_endChars (w : Writing) (hrest : NoDigit rest) : NoDigit (w.endChars ++ rest) := by
  unfold endChars
  split
  · exact hrest
  · exact noDigit_cons rfl

theorem gives_afterPlaces (hexponent : ∀ e, w.exponent = some e → e.natAbs ≤ exponentLimit) {place : Int}
    (hscaled : ∀ c, Gives (scaledNumber negative s (place + w.exponent.getD 0)) c k c) (hrest : Stops rest)
    (p : Position) : ∃ q, Gives (afterPlaces negative s place) ⟨w.endChars ++ rest, p⟩ k ⟨rest, q⟩ := by
  unfold endChars
  cases hw : w.exponent with
  | none =>
    rw [hw] at hscaled
    refine ⟨p, gives_peek.2 ?_⟩
    dsimp only
    split
    · rename_i he
      exact absurd rfl (hrest 'e' he).2.2.1
    · rename_i he
      exact absurd rfl (hrest 'E' he).2.2.2
    · rw [← Int.add_zero place]
      exact hscaled _
  | some e =>
    rw [hw] at hscaled
    obtain ⟨q, hpart⟩ := gives_exponentPart (hexponent e hw) hscaled hrest.noDigit (p.after 'e')
    exact ⟨q, gives_peek.2 (gives_advance.2 hpart)⟩

theorem Real.gives_number (h : w.Real) (negative : Bool) : ∃ k, ∀ rest p, Stops rest →
    ∃ q, Gives (number negative) ⟨w.chars ++ rest, p⟩ k ⟨rest, q⟩ := by
  obtain ⟨k, hscaled⟩ := gives_scaledNumber h.finite negative
  refine ⟨k, fun rest p hrest => ?_⟩
  have hdigits : digitsValue w.digits ≤ significandLimit :=
    (le_foldl_digits w.places _).trans ((List.foldl_append ..).symm.trans_le h.fits)
  have hends := w.noDigit_endChars hrest.noDigit
  unfold chars fractionChars
  by_cases hplaces : w.places = []
  · obtain ⟨e, he⟩ := h.parts hplaces
    have hend : w.endChars = 'e' :: exponentChars e := by
      unfold endChars
      rw [he]
    rw [hend] at hends
    obtain ⟨q, hnumber⟩ := @Reader.gives_number _ w.digits negative h.leading hdigits hends p
    have hwhole : w.significand = digitsValue w.digits := by
      unfold significand
      rw [hplaces, List.append_nil]
    have hplace : w.place = ((0 : Nat) : Int) + e := by
      unfold place
      rw [hplaces, he]
      rfl
    rw [hwhole, hplace] at hscaled
    obtain ⟨q', hpart⟩ := gives_exponentPart (h.exponent e he) hscaled hrest.noDigit (q.after 'e')
    rw [if_pos hplaces, List.nil_append, List.append_assoc, hend]
    exact ⟨q', hnumber (gives_peek.2 (gives_advance.2 hpart))⟩
  · rw [if_neg hplaces, List.append_assoc, List.append_assoc]
    obtain ⟨q, hnumber⟩ := @Reader.gives_number ('.' :: w.places ++ (w.endChars ++ rest)) w.digits negative
      h.leading hdigits (noDigit_cons rfl) p
    obtain ⟨q', hfraction⟩ := @gives_fractionPart (w.endChars ++ rest) w.digits w.places negative k hplaces
      h.isDigit h.fits hends (q.after '.')
    obtain ⟨q'', hafter⟩ := gives_afterPlaces h.exponent hscaled hrest q'
    exact ⟨q'', hnumber (gives_peek.2 (gives_advance.2 (hfraction hafter)))⟩

end Writing

end ProfilingAgent.Json.Reader

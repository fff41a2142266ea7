import ProfilingAgent.Proofs.RoundedNumbers
import ProfilingAgent.Settings.Lenient

set_option autoImplicit false

namespace ProfilingAgent

namespace Binary64

open Text

theorem scaled_le_succ (code : Nat) : scaled code ≤ scaled (code + 1) := by
  have hpos : 0 < binade := by decide
  by_cases hsmall : code < binade
  · have hleft : scaled code = code := by
      unfold scaled shift
      rw [if_pos hsmall, Nat.div_eq_of_lt hsmall, Nat.shiftLeft_zero]
    by_cases hnext : code + 1 < binade
    · have hright : scaled (code + 1) = code + 1 := by
        unfold scaled shift
        rw [if_pos hnext, Nat.div_eq_of_lt hnext, Nat.shiftLeft_zero]
      omega
    · obtain rfl : code = binade - 1 := by omega
      decide
  · have hmod := Nat.mod_lt code hpos
    have hdiv := Nat.div_add_mod' code binade
    have hquotient : 1 ≤ code / binade := (Nat.one_le_div_iff hpos).2 (by omega)
    obtain ⟨step, hstep⟩ := Nat.exists_eq_add_of_le' hquotient
    rw [hstep, Nat.add_one_mul] at hdiv
    have hcode : code = step * binade + (binade + code % binade) := by omega
    have hnext : code + 1 = step * binade + (binade + code % binade + 1) := by omega
    have hleft : scaled (step * binade + (binade + code % binade)) = _ := scaled_add (by omega) (by omega)
    have hright : scaled (step * binade + (binade + code % binade + 1)) = _ :=
      scaled_add (by omega) (by omega)
    rw [← hcode] at hleft
    rw [← hnext] at hright
    rw [hleft, hright]
    exact Nat.mul_le_mul_right _ (Nat.le_succ _)

theorem scaled_mono : Monotone scaled := monotone_nat_of_le_succ scaled_le_succ

theorem code_eq_of_not_negative {x : Binary64} (h : x.negative = false) : x.code = x.bits.toNat := by
  have hlt : x.bits.toNat < signBit := Nat.lt_of_not_le (of_decide_eq_false h)
  exact Nat.mod_eq_of_lt hlt

/-- Nearest to one are one itself and the double below it. -/
theorem isNearOne_iff {x : Binary64} :
    x.isNearOne = true ↔ x.bits = 0x3FF0000000000000 ∨ x.bits = 0x3FEFFFFFFFFFFFFF := by
  constructor
  · intro h
    unfold isNearOne at h
    simp only [Bool.and_eq_true, Bool.not_eq_true', decide_eq_true_eq] at h
    obtain ⟨⟨⟨hsign, -⟩, hbelow⟩, habove⟩ := h
    rw [code_eq_of_not_negative hsign] at hbelow habove
    have hleast : 0x3FEFFFFFFFFFFFFE < x.bits.toNat := by
      by_contra hle
      have hmono := scaled_mono (Nat.le_of_not_lt hle)
      exact absurd (habove.trans_le hmono) (by decide +kernel)
    have hmost : x.bits.toNat < 0x3FF0000000000001 := by
      by_contra hle
      have hmono := scaled_mono (Nat.le_of_not_lt hle)
      exact absurd (hmono.trans_lt hbelow) (by decide +kernel)
    rw [← UInt64.toNat_inj, ← UInt64.toNat_inj]
    change x.bits.toNat = 0x3FF0000000000000 ∨ x.bits.toNat = 0x3FEFFFFFFFFFFFFF
    omega
  · obtain ⟨bits⟩ := x
    rintro (rfl | rfl) <;> decide +kernel

theorem isZero_iff {x : Binary64} : x.isZero = true ↔ x.bits = 0 ∨ x.bits = 0x8000000000000000 := by
  have hlt := x.bits.toNat_lt
  unfold isZero code signBit
  rw [beq_iff_eq, ← UInt64.toNat_inj, ← UInt64.toNat_inj]
  change _ ↔ x.bits.toNat = 0 ∨ x.bits.toNat = 0x8000000000000000
  omega

/-- One or the double below it means yes, and zero with any sign means no. -/
def Means (x : Binary64) : Bool → Prop
  | true => x.bits = 0x3FF0000000000000 ∨ x.bits = 0x3FEFFFFFFFFFFFFF
  | false => x.bits = 0 ∨ x.bits = 0x8000000000000000

theorem not_isZero_of_isNearOne {x : Binary64} (h : x.isNearOne = true) : x.isZero = false := by
  obtain ⟨bits⟩ := x
  rcases isNearOne_iff.1 h with hbits | hbits
  all_goals
    cases hbits
    rfl

theorem isNearOne_ofNat_iff {n : Nat} (h : n < infinityBound) : (ofNat n).isNearOne = true ↔ n = 1 := by
  constructor
  · intro hnear
    by_contra hne
    have hlarge : n ≠ 0 → 2 * unitScale ≤ scaled (ofNat n).code := by
      intro hzero
      obtain ⟨m, step, hscaled, hm, hstep, -, -⟩ := scaled_ofNat hzero h
      have hlog : 1 ≤ n.log2 := (Nat.le_log2 hzero).2 (by omega)
      have hpow := Nat.mul_le_mul_right unitScale (Nat.pow_le_pow_right (by decide : 0 < 2) hlog)
      have hmul := Nat.mul_le_mul_right step hm
      rw [hscaled]
      omega
    have hzero : n ≠ 0 := by
      rintro rfl
      exact absurd hnear (by decide +kernel)
    unfold isNearOne at hnear
    simp only [Bool.and_eq_true, decide_eq_true_eq] at hnear
    have hbound : unitScale + (1 <<< 1022) ≤ 2 * unitScale := by decide +kernel
    exact absurd (hlarge hzero) (Nat.not_le.2 (hnear.1.2.trans_le hbound))
  · rintro rfl
    decide +kernel

theorem isZero_ofNat_iff {n : Nat} (h : n < infinityBound) : (ofNat n).isZero = true ↔ n = 0 := by
  constructor
  · intro hzero
    by_contra hne
    have hscaled := unitScale_le_scaled_ofNat hne h
    have hcode : (ofNat n).code = 0 := beq_iff_eq.1 hzero
    rw [hcode] at hscaled
    exact absurd hscaled (by decide +kernel)
  · rintro rfl
    decide +kernel

theorem isZero_neg (x : Binary64) : x.neg.isZero = x.isZero := by
  have hlt : x.code < signBit := Nat.mod_lt _ (by decide)
  unfold isZero neg
  rw [code_ofCode hlt]

theorem isNearOne_neg {x : Binary64} (h : x.negative = false) : x.neg.isNearOne = false := by
  have hlt : x.code < signBit := Nat.mod_lt _ (by decide)
  unfold isNearOne neg
  rw [negative_ofCode hlt, h]
  rfl

theorem negative_ofNat (n : Nat) : (ofNat n).negative = false :=
  negative_ofCode (Nat.lt_of_le_of_lt (roundCode_le n 1) (by decide))

theorem small_lt_infinityBound {n : Nat} (h : n ≤ 0x8000000000000000) : n < infinityBound :=
  h.trans_lt (by decide +kernel)

/-- A whole number that is not too long is read as the double nearest to it. -/
theorem ofDecimal_whole {n : Nat} (h : n ≤ 0x8000000000000000) : ofDecimal n 0 = ofNat n := by
  unfold ofDecimal
  by_cases hzero : n = 0
  · rw [if_pos hzero, hzero]
    decide +kernel
  · have hlength : (decimal n).length ≤ 19 := by
      by_contra hlong
      have hbounds := (decimal_bounds hzero).1
      have hpower : tenTo 20 ≤ tenTo (decimal n).length := tenTo_mono (by omega)
      have hvalue : tenTo 20 = 100000000000000000000 := by decide
      omega
    rw [if_neg hzero, if_neg (by omega), if_neg (by omega), if_neg (by omega)]
    change ofNat (n * 1) = _
    rw [Nat.mul_one]

theorem digits?_eq_some_iff {ds : List Char} {n : Nat} :
    digits? ds = some n ↔ ds ≠ [] ∧ (∀ c ∈ ds, c.isDigit = true) ∧ digitsValue ds = n := by
  unfold digits?
  simp only [Bool.or_eq_true, List.isEmpty_iff, Bool.not_eq_true', ite_eq_iff, reduceCtorEq, and_false,
    not_or, Bool.not_eq_false, List.all_eq_true, Option.some.injEq, false_or, ne_eq, and_assoc]

theorem readMagnitude_digits {ds : List Char} {n : Nat} (h : digits? ds = some n) :
    readMagnitude ds = some (ofDecimal n 0) := by
  obtain ⟨hne, hds, rfl⟩ := digits?_eq_some_iff.1 h
  unfold readMagnitude
  rw [List.takeWhile_eq_self_iff.2 hds, List.dropWhile_eq_nil_iff.2 hds]
  dsimp only
  rw [List.isEmpty_eq_false_iff.2 hne, List.append_nil]
  rfl

theorem toLower_of_isDigit {c : Char} (h : c.isDigit = true) : c.toLower = c ∧ c < 'a' := by
  simp only [Char.isDigit, Bool.and_eq_true, decide_eq_true_eq, ge_iff_le, UInt32.le_iff_toNat_le] at h
  change 48 ≤ c.val.toNat ∧ c.val.toNat ≤ 57 at h
  constructor
  · unfold Char.toLower
    rw [dif_neg]
    simp only [ge_iff_le, UInt32.le_iff_toNat_le]
    change ¬(65 ≤ c.val.toNat ∧ c.val.toNat ≤ 90)
    omega
  · rw [Char.lt_def, UInt32.lt_iff_toNat_lt]
    change c.val.toNat < 97
    omega

theorem lower_digits_ne {ds : List Char} {n : Nat} (h : digits? ds = some n) {w : String} {c : Char}
    (hw : w.toList.head? = some c) (hc : 'a' ≤ c) : lower (String.ofList ds) ≠ w := by
  rintro rfl
  unfold lower at hw
  rw [String.toList_ofList, String.toList_ofList, List.head?_map] at hw
  obtain ⟨d, hd, rfl⟩ := Option.map_eq_some_iff.1 hw
  obtain ⟨hlower, hlt⟩ := toLower_of_isDigit ((digits?_eq_some_iff.1 h).2.1 d (List.mem_of_head? hd))
  rw [hlower] at hc
  exact absurd hlt (Char.not_lt.2 hc)

def magnitude? (cs : List Char) : Option Binary64 :=
  if lower (String.ofList cs) = "inf" ∨ lower (String.ofList cs) = "infinity" then some infinity
  else if lower (String.ofList cs) = "nan" then some notANumber
  else readMagnitude cs

theorem ofText?_minus {s : String} {cs : List Char} (h : s.toList = '-' :: cs) :
    ofText? s = (magnitude? cs).map neg := by
  unfold ofText?
  rw [h]
  rfl

theorem ofText?_plus {s : String} {cs : List Char} (h : s.toList = '+' :: cs) :
    ofText? s = magnitude? cs := by
  unfold ofText?
  rw [h]
  exact Option.map_id'

theorem ofText?_unsigned {s : String} (hminus : s.toList.head? ≠ some '-')
    (hplus : s.toList.head? ≠ some '+') : ofText? s = magnitude? s.toList := by
  unfold ofText?
  split
  rename_i sign cs hsign
  split at hsign
  · rename_i rest heq
    exact absurd (congrArg List.head? heq) hminus
  · rename_i rest heq
    exact absurd (congrArg List.head? heq) hplus
  · obtain ⟨rfl, rfl⟩ := Prod.mk.inj hsign
    exact Option.map_id'

theorem magnitude?_digits {ds : List Char} {n : Nat} (h : digits? ds = some n) :
    magnitude? ds = some (ofDecimal n 0) := by
  have hinf : lower (String.ofList ds) ≠ "inf" := @lower_digits_ne ds n h _ 'i' rfl (by decide)
  have hinfinity : lower (String.ofList ds) ≠ "infinity" := @lower_digits_ne ds n h _ 'i' rfl (by decide)
  have hnan : lower (String.ofList ds) ≠ "nan" := @lower_digits_ne ds n h _ 'n' rfl (by decide)
  unfold magnitude?
  rw [if_neg (not_or.2 ⟨hinf, hinfinity⟩), if_neg hnan, readMagnitude_digits h]

theorem ofText?_integer {s : String} {n : Int} (h : integer? s.toList = some n) : ∃ m : Nat,
    (n = m ∧ ofText? s = some (ofDecimal m 0)) ∨ (n = -m ∧ ofText? s = some (ofDecimal m 0).neg) := by
  unfold integer? at h
  split at h
  · rename_i ds hsign
    obtain ⟨_, hm, rfl⟩ := Option.map_eq_some_iff.1 h
    obtain ⟨m, hdigits, hcast⟩ := Option.bind_eq_some_iff.1 hm
    cases hcast
    refine ⟨m, .inr ⟨rfl, ?_⟩⟩
    rw [ofText?_minus hsign, magnitude?_digits hdigits]
    rfl
  · rename_i hminus
    obtain ⟨m, hm, rfl⟩ := Option.map_eq_some_iff.1 h
    refine ⟨m, .inl ⟨rfl, ?_⟩⟩
    unfold natural? at hm
    split at hm
    · rename_i ds hsign
      rw [ofText?_plus hsign, magnitude?_digits hm]
    · rename_i hplus
      have hne : ∀ c : Char, (∀ cs, s.toList = c :: cs → False) → s.toList.head? ≠ some c := by
        intro c hc hhead
        obtain ⟨cs, hcs⟩ := List.head?_eq_some_iff.1 hhead
        exact hc cs hcs
      rw [ofText?_unsigned (hne _ hminus) (hne _ hplus), magnitude?_digits hm]

theorem toLower_eq_letter {c : Char} (h : c.toLower = 't' ∨ c.toLower = 'f') :
    c = 't' ∨ c = 'T' ∨ c = 'f' ∨ c = 'F' := by
  unfold Char.toLower at h
  split at h
  · simp only [Char.ext_iff, ← UInt32.toNat_inj, UInt32.toNat_add] at h ⊢
    grind
  · tauto

theorem ofText?_word {s : String} {b : Bool} (h : lower s = Json.Value.boolText b) : ofText? s = none := by
  have hlist : s.toList.map Char.toLower = (Json.Value.boolText b).toList := by
    rw [← h, lower, String.toList_ofList]
  obtain ⟨c, cs, hcons, hletter⟩ :
      ∃ c cs, s.toList = c :: cs ∧ (c.toLower = 't' ∨ c.toLower = 'f') := by
    cases b with
    | true =>
      obtain ⟨c, cs, hcons, hc, -⟩ := List.map_eq_cons_iff.1 hlist
      exact ⟨c, cs, hcons, .inl hc⟩
    | false =>
      obtain ⟨c, cs, hcons, hc, -⟩ := List.map_eq_cons_iff.1 hlist
      exact ⟨c, cs, hcons, .inr hc⟩
  have hother : ∀ w : String, w ≠ Json.Value.boolText b → lower (String.ofList s.toList) ≠ w := by
    intro w hw
    rw [String.ofList_toList, h]
    exact hw.symm
  have hminus : s.toList.head? ≠ some '-' := by
    rw [hcons]
    rintro ⟨rfl⟩
    exact absurd hletter (by decide)
  have hplus : s.toList.head? ≠ some '+' := by
    rw [hcons]
    rintro ⟨rfl⟩
    exact absurd hletter (by decide)
  rw [ofText?_unsigned hminus hplus]
  unfold magnitude?
  rw [if_neg (not_or.2 ⟨hother _ (by cases b <;> decide), hother _ (by cases b <;> decide)⟩),
    if_neg (hother _ (by cases b <;> decide)), hcons]
  rcases toLower_eq_letter hletter with rfl | rfl | rfl | rfl
  all_goals rfl

theorem means_iff {x : Binary64} {b : Bool} :
    x.Means b ↔ (if b then x.isNearOne else x.isZero) = true := by
  cases b with
  | true => exact isNearOne_iff.symm
  | false => exact isZero_iff.symm

/-- A whole number of 64 bits with a sign means the same in both notations. -/
theorem means_integer {s : String} {n : Int} (h : integer? s.toList = some n)
    (hrange : -0x8000000000000000 ≤ n ∧ n < 0x8000000000000000) :
    ∃ x, ofText? s = some x ∧ ∀ b, x.Means b ↔ n = if b then 1 else 0 := by
  obtain ⟨m, ⟨rfl, htext⟩ | ⟨rfl, htext⟩⟩ := ofText?_integer h
  all_goals
    have hsmall : m ≤ 0x8000000000000000 := by omega
    have hfinite := small_lt_infinityBound hsmall
    rw [ofDecimal_whole hsmall] at htext
    refine ⟨_, htext, fun b => means_iff.trans ?_⟩
  · cases b with
    | true =>
      rw [if_pos rfl, if_pos rfl, isNearOne_ofNat_iff hfinite]
      omega
    | false =>
      rw [if_neg Bool.false_ne_true, if_neg Bool.false_ne_true, isZero_ofNat_iff hfinite]
      omega
  · cases b with
    | true =>
      rw [if_pos rfl, if_pos rfl, isNearOne_neg (negative_ofNat m)]
      exact iff_of_false Bool.false_ne_true (by omega)
    | false =>
      rw [if_neg Bool.false_ne_true, if_neg Bool.false_ne_true, isZero_neg, isZero_ofNat_iff hfinite]
      omega

end Binary64

namespace Lenient

open Json

/-- What a value means as a flag: itself, a number that means it, or a text that is its word or a number that
means it. -/
def FlagMeant : Value → Bool → Prop
  | .bool a, b => a = b
  | .number (.whole n _), b => n = if b then 1 else 0
  | .number (.real x _), b => x.Means b
  | .string s, b => Text.lower s = Value.boolText b ∨ ∃ x, Binary64.ofText? s = some x ∧ x.Means b
  | _, _ => False

theorem flagOfWhole_eq_ok_iff {n : Int} {b : Bool} : flagOfWhole n = .ok b ↔ n = if b then 1 else 0 := by
  unfold flagOfWhole
  cases b <;> grind

theorem flagOfReal_eq_ok_iff {x : Binary64} {b : Bool} : flagOfReal x = .ok b ↔ x.Means b := by
  rw [Binary64.means_iff]
  unfold flagOfReal
  by_cases hone : x.isNearOne = true
  · rw [if_pos hone]
    have hzero := Binary64.not_isZero_of_isNearOne hone
    cases b <;> simp [hone, hzero]
  · rw [if_neg hone]
    by_cases hzero : x.isZero = true <;> cases b <;> simp [hone, hzero]

theorem wholeOfText?_eq_some_iff {s : String} {n : Int} : wholeOfText? s = some n ↔
    Text.integer? s.toList = some n ∧ -0x8000000000000000 ≤ n ∧ n < 0x8000000000000000 := by
  unfold wholeOfText?
  rw [Option.bind_eq_some_iff]
  simp only [Option.ite_none_right_eq_some, Option.some.injEq]
  constructor
  · rintro ⟨m, hm, hrange, rfl⟩
    exact ⟨hm, hrange⟩
  · rintro ⟨hn, hrange⟩
    exact ⟨n, hn, hrange, rfl⟩

theorem flagOfNumeral {s : String} {b : Bool} (hword : ∀ a, Text.lower s ≠ Value.boolText a) :
    flagOfText s = .ok b ↔ ∃ x, Binary64.ofText? s = some x ∧ x.Means b := by
  have htrue : Text.lower s ≠ "true" := hword true
  have hfalse : Text.lower s ≠ "false" := hword false
  unfold flagOfText
  dsimp only
  rw [if_neg htrue, if_neg hfalse]
  cases hwhole : wholeOfText? s with
  | some n =>
    obtain ⟨hinteger, hrange⟩ := wholeOfText?_eq_some_iff.1 hwhole
    obtain ⟨x, hx, hmeans⟩ := Binary64.means_integer hinteger hrange
    dsimp only
    rw [flagOfWhole_eq_ok_iff, ← hmeans, hx]
    simp
  | none =>
    cases hreal : Binary64.ofText? s with
    | some x => simp [flagOfReal_eq_ok_iff]
    | none => simp

theorem flagOfText_eq_ok_iff {s : String} {b : Bool} : flagOfText s = .ok b ↔
    Text.lower s = Value.boolText b ∨ ∃ x, Binary64.ofText? s = some x ∧ x.Means b := by
  by_cases hword : ∃ a, Text.lower s = Value.boolText a
  · obtain ⟨a, ha⟩ := hword
    have hflag : flagOfText s = .ok a := by
      unfold flagOfText
      dsimp only
      rw [ha]
      cases a <;> rfl
    have hsame : Value.boolText a = Value.boolText b ↔ a = b := by cases a <;> cases b <;> decide
    rw [hflag, ha, Binary64.ofText?_word ha, hsame]
    simp
  · have hnone : ∀ a, Text.lower s ≠ Value.boolText a := fun a ha => hword ⟨a, ha⟩
    rw [flagOfNumeral hnone]
    exact ⟨.inr, fun h => h.resolve_left (hnone b)⟩

theorem flagOfValue_eq_ok_iff {v : Value} {b : Bool} : flagOfValue v = .ok b ↔ FlagMeant v b := by
  cases v with
  | string s => exact flagOfText_eq_ok_iff
  | number n =>
    cases n with
    | whole n h =>
      unfold flagOfValue FlagMeant
      dsimp only
      split
      · exact flagOfWhole_eq_ok_iff
      · cases b <;> simp <;> omega
    | real x h => exact flagOfReal_eq_ok_iff
  | bool a => exact Except.ok.injEq a b ▸ Iff.rfl
  | _ => exact iff_of_false nofun id

theorem flag_eq_some_iff {v : Value} {b : Bool} : (flag v).value = some b ↔ FlagMeant v b := by
  rw [← flagOfValue_eq_ok_iff]
  unfold flag
  cases flagOfValue v <;> simp [Log.Noted.value_pure, Log.Noted.saying]

end Lenient
end ProfilingAgent

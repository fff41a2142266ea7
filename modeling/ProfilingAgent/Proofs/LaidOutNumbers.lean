import ProfilingAgent.Proofs.WrittenReals

set_option autoImplicit false

namespace ProfilingAgent

open Text

namespace Binary64

open Shortest

variable {code : Nat}

theorem interval_high (code : Nat) : (interval code).high =
    (4 * (if code < binade then code else binade + code % binade) + 2) * 2 ^ shift code := by
  change 4 * scaled code + 2 <<< shift code = _
  unfold scaled
  rw [Nat.shiftLeft_eq, Nat.shiftLeft_eq]
  ring

theorem quarterScale_mul_infinityBound :
    ∃ e, e = 2045 ∧ quarterScale * infinityBound = (2 ^ 55 - 2) * 2 ^ e := by
  obtain ⟨e, he, hbound⟩ := infinityBound_eq
  refine ⟨e + 1, by omega, ?_⟩
  rw [Nat.shiftLeft_eq] at hbound
  calc quarterScale * infinityBound = 4 * (infinityBound * unitScale) := by
        unfold quarterScale
        ring
    _ = (2 ^ 55 - 2) * 2 ^ (e + 1) := by
        rw [hbound, Nat.pow_succ]
        omega

theorem interval_high_le (h : code < infinityCode) : (interval code).high ≤ quarterScale * infinityBound := by
  obtain ⟨e, he, hbound⟩ := quarterScale_mul_infinityBound
  have hbinade : binade = 2 ^ 52 := rfl
  have hinfinity : infinityCode = 2047 * 2 ^ 52 := rfl
  rw [interval_high, hbound, shift, hbinade]
  refine Nat.mul_le_mul ?_ (Nat.pow_le_pow_right (by decide) (by omega))
  split <;> omega

/-- Only the largest magnitude has an interval that reaches the bound. -/
theorem interval_high_lt (h : code < infinityCode - 1) : ∃ e, e = 2045 ∧
    (interval code).high ≤ (2 ^ 55 - 6) * 2 ^ e := by
  have hbinade : binade = 2 ^ 52 := rfl
  have hinfinity : infinityCode = 2047 * 2 ^ 52 := rfl
  obtain ⟨e, he⟩ : ∃ e, e = 2045 := ⟨_, rfl⟩
  refine ⟨e, he, ?_⟩
  rw [interval_high, shift, hbinade]
  rcases Nat.lt_or_ge (code / 2 ^ 52 - 1) e with hlt | hge
  · have hpow : 2 ^ (code / 2 ^ 52 - 1 + 1) ≤ 2 ^ e := Nat.pow_le_pow_right (by decide) hlt
    rw [Nat.pow_succ] at hpow
    calc _ ≤ (2 ^ 55 - 2) * 2 ^ (code / 2 ^ 52 - 1) := Nat.mul_le_mul_right _ (by split <;> omega)
      _ ≤ (2 ^ 55 - 6) * 2 ^ e := by omega
  · refine Nat.mul_le_mul ?_ (Nat.pow_le_pow_right (by decide) (by omega))
    split <;> omega

theorem leadingPlace_largest : leadingPlace (interval (infinityCode - 1)).value = 308 := by
  obtain ⟨hpos, hlow, -⟩ := interval_wide (by decide : infinityCode - 1 ≠ 0)
  obtain ⟨length, -, hplace, hfloor, hceiling⟩ := leadingPlace_eq (hpos.trans hlow)
  have hbelow : quarterScale * tenTo 658 ≤ (interval (infinityCode - 1)).value * tenTo 350 := by
    decide +kernel
  have habove : (interval (infinityCode - 1)).value * tenTo 350 * 10 < quarterScale * tenTo 660 := by
    decide +kernel
  have hlength : length = 659 := by
    rcases Nat.lt_trichotomy length 659 with hlt | heq | hgt
    · have hmono := Nat.mul_le_mul_left quarterScale (tenTo_mono (show length ≤ 658 by omega))
      omega
    · exact heq
    · have hmono := Nat.mul_le_mul_left quarterScale (tenTo_mono (show 660 ≤ length by omega))
      omega
  rw [hplace, hlength]
  rfl

theorem shortest_largest : digitsValue (shortest (infinityCode - 1)).digits = 17976931348623157 := by
  have hsearch : search (interval (infinityCode - 1)) 308 17 1 = (17976931348623157, 292) := by decide +kernel
  have hdigits : digitsValue (dropZeros (decimal 17976931348623157)) = 17976931348623157 := by decide +kernel
  rw [← leadingPlace_largest] at hsearch
  rwa [shortest_of_search (by decide) hsearch]

/-- The digits that are all needed, for the largest magnitudes of all. -/
theorem digitsValue_shortest_le (hcode : code ≠ 0) (h : code < infinityCode) {k : Nat} (hk : k = 292)
    (hplace : (k : Int) + (shortest code).digits.length = (shortest code).exponent + 1) :
    digitsValue (shortest code).digits ≤ 17976931348623157 := by
  rcases Nat.lt_or_eq_of_le (Nat.le_sub_one_of_lt h) with hlt | rfl
  · obtain ⟨e, he, hhigh⟩ := interval_high_lt hlt
    have hnear := (near_shortest hcode).high k hplace
    have hbeyond : (2 ^ 55 - 6) * 2 ^ e < 17976931348623158 * tenTo k * quarterScale := by
      rw [he, hk]
      decide +kernel
    refine Nat.le_of_lt_succ (Nat.lt_of_mul_lt_mul_right (a := tenTo k * quarterScale) ?_)
    rw [← Nat.mul_assoc, ← Nat.mul_assoc]
    exact (hnear.trans hhigh).trans_lt hbeyond
  · exact Nat.le_of_eq shortest_largest

theorem shortest_le_infinityBound (hcode : code ≠ 0) (h : code < infinityCode) {k : Nat}
    (hplace : (k : Int) + (shortest code).digits.length = (shortest code).exponent + 1) :
    digitsValue (shortest code).digits * tenTo k ≤ infinityBound := by
  refine Nat.le_of_mul_le_mul_right ?_ (Nat.mul_pos (by decide : 0 < 4) unitScale_pos)
  exact (((near_shortest hcode).high k hplace).trans (interval_high_le h)).trans_eq (Nat.mul_comm _ _)

theorem scale_shortest (hcode : code ≠ 0) (h : code < infinityCode)
    (hpos : digitsValue (shortest code).digits ≠ 0) :
    ∃ x, Json.Reader.scale (digitsValue (shortest code).digits)
      ((shortest code).exponent + 1 - (shortest code).digits.length) = some x ∧ x.isFinite = true := by
  have hsmall := (near_shortest hcode).significand
  rcases Int.lt_or_le ((shortest code).exponent + 1 - (shortest code).digits.length) 0 with hneg | hnat
  · exact Json.Reader.scale_down hsmall hneg
  · obtain ⟨k, hk⟩ := Int.eq_ofNat_of_zero_le hnat
    have hplace : (k : Int) + (shortest code).digits.length = (shortest code).exponent + 1 := by omega
    rw [hk]
    exact Json.Reader.scale_up hpos hsmall (shortest_le_infinityBound hcode h hplace) fun hlargest =>
      digitsValue_shortest_le hcode h hlargest hplace

theorem le_of_tenTo_le {m n : Nat} (h : tenTo m ≤ tenTo n) : m ≤ n :=
  (Nat.pow_le_pow_iff_right (by decide)).1 h

theorem exponent_shortest_le (hcode : code ≠ 0) (h : code < infinityCode) {n : Nat}
    (hlength : (shortest code).digits.length = n + 1)
    (hleast : tenTo n ≤ digitsValue (shortest code).digits) :
    (shortest code).exponent ≤ 309 := by
  rcases Int.lt_or_le ((shortest code).exponent + 1 - (shortest code).digits.length) 0 with hneg | hnat
  · have hdigits := le_of_tenTo_le (hleast.trans (near_shortest hcode).significand)
    omega
  · obtain ⟨k, hk⟩ := Int.eq_ofNat_of_zero_le hnat
    have hbound := shortest_le_infinityBound hcode h (k := k) (by omega)
    have hten : infinityBound ≤ tenTo 309 := by decide +kernel
    have hplaces : n + k ≤ 309 := le_of_tenTo_le <| calc
      tenTo (n + k) = tenTo n * tenTo k := tenTo_add n k
      _ ≤ digitsValue (shortest code).digits * tenTo k := Nat.mul_le_mul_right _ hleast
      _ ≤ tenTo 309 := hbound.trans hten
    omega

end Binary64

namespace Json.Reader

open Binary64 Writing

variable {code : Nat} {rest : List Char}

section Shapes

variable {d : Decimal} {first : Char} {more : List Char}

structure Readable (d : Decimal) (first : Char) (more : List Char) : Prop where
  digits : d.digits = first :: more
  isDigit : ∀ c ∈ first :: more, c.isDigit = true
  nonzero : first ≠ '0'
  significand : digitsValue (first :: more) ≤ tenTo 17
  exponent : d.exponent.natAbs ≤ exponentLimit
  finite : ∃ x, scale (digitsValue (first :: more)) (d.exponent - more.length) = some x ∧ x.isFinite = true

theorem fits_of_le {s : Nat} (h : s ≤ tenTo 17) : s ≤ significandLimit := h.trans (by decide)

theorem leading_cons {ds : List Char} (hdigits : ∀ c ∈ first :: ds, c.isDigit = true) (h : first ≠ '0') :
    Leading (first :: ds) := ⟨hdigits, first, ds, rfl, fun hzero => absurd hzero h⟩

/-- With an exponent, the point stands behind the first digit, if there are more. -/
theorem scientific_writing (h : Readable d first more) :
    ∃ w : Writing, w.Real ∧ Layout.scientific d = w.chars := by
  refine ⟨⟨[first], more, some d.exponent⟩, ?_, ?_⟩
  · refine ⟨leading_cons (fun c hc => ?_) h.nonzero, fun c hc => h.isDigit c (List.mem_cons_of_mem _ hc),
      fun _ => ⟨_, rfl⟩, fits_of_le h.significand, fun e he => ?_, ?_⟩
    · exact h.isDigit c (List.mem_singleton.1 hc ▸ List.mem_cons_self)
    · rw [← Option.some.inj he]
      exact h.exponent
    · have hplace : place ⟨[first], more, some d.exponent⟩ = d.exponent - more.length := by
        unfold place
        dsimp only [Option.getD_some]
        omega
      rw [hplace]
      exact h.finite
  · unfold Layout.scientific
    rw [h.digits]
    cases more with
    | nil => rfl
    | cons c more => rfl

/-- Below one, zeros stand behind the point. -/
theorem small_writing (h : Readable d first more) (hneg : d.exponent < 0) :
    ∃ w : Writing, w.Real ∧ Layout.data.spread d = w.chars := by
  obtain ⟨n, hn⟩ : ∃ n, n = (-d.exponent).toNat - 1 := ⟨_, rfl⟩
  have hvalue :
      significand ⟨['0'], List.replicate n '0' ++ first :: more, none⟩ = digitsValue (first :: more) := by
    change digitsValue (List.replicate (n + 1) '0' ++ first :: more) = _
    rw [digitsValue_concat, digitsValue_zeros, Nat.zero_mul, Nat.zero_add]
  have hplace : place ⟨['0'], List.replicate n '0' ++ first :: more, none⟩ = d.exponent - more.length := by
    unfold place
    dsimp only [Option.getD_none]
    rw [List.length_append, List.length_replicate, List.length_cons]
    omega
  refine ⟨⟨['0'], List.replicate n '0' ++ first :: more, none⟩, ?_, ?_⟩
  · refine ⟨decimal_zero ▸ leading_decimal 0, fun c hc => ?_, by simp, ?_, nofun, ?_⟩
    · rcases List.mem_append.1 hc with hzero | hdigit
      · rw [List.eq_of_mem_replicate hzero]
        rfl
      · exact h.isDigit c hdigit
    · exact hvalue ▸ fits_of_le h.significand
    · rw [hplace, hvalue]
      exact h.finite
  · unfold Layout.spread
    rw [if_pos hneg, h.digits, ← hn]
    simp [chars, fractionChars, endChars]

/-- A whole number is filled up with zeros, and one more stands behind the point. -/
theorem whole_writing (h : Readable d first more) (hnat : 0 ≤ d.exponent) (hsmall : d.exponent ≤ 15)
    (hwhole : more.length ≤ d.exponent.toNat) : ∃ w : Writing, w.Real ∧ Layout.data.spread d = w.chars := by
  obtain ⟨n, hn⟩ : ∃ n, n = d.exponent.toNat - more.length := ⟨_, rfl⟩
  have hdigits : ∀ c ∈ first :: more ++ List.replicate n '0', c.isDigit = true := by
    intro c hc
    rcases List.mem_append.1 hc with hdigit | hzero
    · exact h.isDigit c hdigit
    · rw [List.eq_of_mem_replicate hzero]
      rfl
  have hsignificand : digitsValue (first :: more ++ List.replicate n '0' ++ ['0']) ≤ tenTo 17 := by
    refine (Nat.le_of_lt (digitsValue_lt fun c hc => ?_)).trans (tenTo_mono ?_)
    · rcases List.mem_append.1 hc with hdigit | hzero
      · exact hdigits c hdigit
      · rw [List.mem_singleton.1 hzero]
        rfl
    · simp only [List.length_append, List.length_cons, List.length_replicate, List.length_nil]
      omega
  refine ⟨⟨first :: more ++ List.replicate n '0', ['0'], none⟩, ?_, ?_⟩
  · refine ⟨leading_cons hdigits h.nonzero, ?_, by simp, fits_of_le hsignificand, nofun, ?_⟩
    · intro c hc
      rw [List.mem_singleton.1 hc]
      rfl
    · exact scale_down hsignificand (show (-1 : Int) < 0 by decide)
  · unfold Layout.spread
    rw [if_neg (Int.not_lt.2 hnat), h.digits, List.length_cons]
    dsimp only
    rw [if_pos (Nat.succ_le_succ hwhole), Nat.succ_sub_succ, ← hn]
    simp [chars, fractionChars, endChars, Layout.data]

/-- Otherwise the point stands between the digits. -/
theorem split_writing (h : Readable d first more) (hnat : 0 ≤ d.exponent)
    (hsplit : d.exponent.toNat < more.length) :
    ∃ w : Writing, w.Real ∧ Layout.data.spread d = w.chars := by
  obtain ⟨n, hn⟩ : ∃ n, n = d.exponent.toNat := ⟨_, rfl⟩
  have hjoined : first :: more.take n ++ more.drop n = first :: more := by
    rw [List.cons_append, List.take_append_drop]
  have hplace : place ⟨first :: more.take n, more.drop n, none⟩ = d.exponent - more.length := by
    unfold place
    dsimp only [Option.getD_none]
    rw [List.length_drop]
    omega
  refine ⟨⟨first :: more.take n, more.drop n, none⟩, ?_, ?_⟩
  · refine ⟨leading_cons (fun c hc => ?_) h.nonzero, fun c hc => ?_, fun hnone => ?_, ?_, nofun, ?_⟩
    · exact h.isDigit c (hjoined ▸ List.mem_append_left _ hc)
    · exact h.isDigit c (List.mem_cons_of_mem _ (List.mem_of_mem_drop hc))
    · have hlength := congrArg List.length hnone
      rw [List.length_drop, List.length_nil] at hlength
      omega
    · unfold significand
      rw [hjoined]
      exact fits_of_le h.significand
    · rw [hplace]
      unfold significand
      rw [hjoined]
      exact h.finite
  · have hsome : more.drop n ≠ [] := by
      rw [ne_eq, List.drop_eq_nil_iff]
      omega
    unfold Layout.spread
    rw [if_neg (Int.not_lt.2 hnat), h.digits, List.length_cons]
    dsimp only
    rw [if_neg (by omega), ← hn, List.take_succ_cons, List.drop_succ_cons]
    simp [chars, fractionChars, endChars, hsome]

end Shapes

theorem readable_shortest (hcode : code ≠ 0) (h : code < infinityCode) :
    ∃ first more, Readable (shortest code) first more := by
  have hnear := near_shortest hcode
  obtain ⟨first, more, hcons, hfirst⟩ := hnear.first
  have hleast := le_digitsValue (hnear.isDigit first (hcons ▸ List.mem_cons_self)) hfirst more
  have hlength : (shortest code).digits.length = more.length + 1 := by rw [hcons, List.length_cons]
  have hpos : digitsValue (first :: more) ≠ 0 := Nat.ne_of_gt ((tenTo_pos _).trans_le hleast)
  refine ⟨first, more, hcons, hcons ▸ hnear.isDigit, hfirst, hcons ▸ hnear.significand, ?_, ?_⟩
  · have hlow := hnear.exponent
    have hhigh := exponent_shortest_le hcode h hlength (hcons ▸ hleast)
    unfold exponentLimit
    omega
  · have hscale := scale_shortest hcode h (hcons ▸ hpos)
    rwa [hlength, hcons, show (shortest code).exponent + 1 - (more.length + 1 : Nat) =
      (shortest code).exponent - more.length by omega] at hscale

/-- The text of a finite magnitude is a number that is not written as a whole number. -/
theorem magnitude_writing (h : code < infinityCode) :
    ∃ w : Writing, w.Real ∧ Layout.data.magnitude code = w.chars := by
  by_cases hcode : code = 0
  · rw [hcode]
    refine ⟨⟨['0'], ['0'], none⟩,
      ⟨decimal_zero ▸ leading_decimal 0, by simp, by simp, by decide, nofun, ?_⟩, rfl⟩
    exact scale_down (s := 0) (by decide) (show (-1 : Int) < 0 by decide)
  · obtain ⟨first, more, hread⟩ := readable_shortest hcode h
    unfold Layout.magnitude
    dsimp only
    split
    · rename_i hpositional
      have hsmall : (shortest code).exponent ≤ 15 := by
        simp only [Layout.data, Bool.and_eq_true, decide_eq_true_eq] at hpositional
        exact hpositional.2
      rcases Int.lt_or_le (shortest code).exponent 0 with hneg | hnat
      · exact small_writing hread hneg
      · by_cases hwhole : more.length ≤ (shortest code).exponent.toNat
        · exact whole_writing hread hnat hsmall hwhole
        · exact split_writing hread hnat (Nat.lt_of_not_le hwhole)
    · exact scientific_writing hread

theorem text_writing {x : Binary64} (h : x.isFinite = true) : ∃ w : Writing, w.Real ∧
    (Layout.data.text x = w.chars ∨ Layout.data.text x = '-' :: w.chars) := by
  obtain ⟨w, hreal, hchars⟩ := magnitude_writing (of_decide_eq_true h)
  refine ⟨w, hreal, ?_⟩
  unfold Layout.text
  rw [if_pos h, hchars]
  split
  · exact .inr rfl
  · exact .inl rfl

theorem Writing.Real.chars_cons {w : Writing} (h : w.Real) :
    ∃ first more, w.chars = first :: more ∧ first.isDigit = true := by
  obtain ⟨hdigits, first, more, hcons, -⟩ := h.leading
  refine ⟨first, more ++ (w.fractionChars ++ w.endChars), ?_, hdigits first (hcons ▸ List.mem_cons_self)⟩
  unfold chars
  rw [hcons]
  rfl

theorem valueAt_real {x : Binary64} (h : x.isFinite = true) : ∃ k : Number, ∀ rest fuel depth p, Stops rest →
    ∃ q, ValueAt fuel depth ⟨Layout.data.text x ++ rest, p⟩ (.number k) ⟨rest, q⟩ := by
  obtain ⟨w, hreal, htext | htext⟩ := text_writing h
  · obtain ⟨k, hnumber⟩ := hreal.gives_number false
    obtain ⟨first, more, hcons, hfirst⟩ := hreal.chars_cons
    refine ⟨k, fun rest fuel depth p hrest => ?_⟩
    obtain ⟨q, hgives⟩ := hnumber rest p hrest
    rw [htext]
    exact ⟨q, .natural (by rw [hcons]; rfl) hfirst hgives⟩
  · obtain ⟨k, hnumber⟩ := hreal.gives_number true
    refine ⟨k, fun rest fuel depth p hrest => ?_⟩
    obtain ⟨q, hgives⟩ := hnumber rest (p.after '-') hrest
    rw [htext]
    exact ⟨q, .negative rfl hgives⟩

end Json.Reader
end ProfilingAgent

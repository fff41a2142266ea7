import ProfilingAgent.Json.Numbers
import ProfilingAgent.Proofs.ShortestDecimals

set_option autoImplicit false

namespace ProfilingAgent

namespace Binary64

open Text

/-- Half a step above the largest magnitude. Fractions below it do not round to infinity. -/
def infinityBound : Nat := 0x3FFFFFFFFFFFFF <<< 970

variable {num den n : Nat}

theorem unitScale_pos : 0 < unitScale := by decide +kernel

/-- A magnitude by the multiple of its step that it is. Twice the least multiple is the first one of the next
step. -/
theorem scaled_add {shift m : Nat} (hlow : binade ≤ m) (hhigh : m ≤ 2 * binade) :
    scaled (shift * binade + m) = m * 2 ^ shift := by
  have hpos : 0 < binade := by decide
  unfold scaled
  rw [if_neg (by omega), Nat.shiftLeft_eq, Binary64.shift]
  rcases Nat.lt_or_eq_of_le hhigh with hlt | rfl
  · obtain ⟨k, rfl⟩ := Nat.exists_eq_add_of_le hlow
    have hmod : (shift * binade + (binade + k)) % binade = k := by
      rw [← Nat.add_assoc, ← Nat.succ_mul, Nat.mul_comm, Nat.mul_add_mod, Nat.mod_eq_of_lt (by omega)]
    have hdiv : (shift * binade + (binade + k)) / binade = shift + 1 := by
      rw [← Nat.add_assoc, ← Nat.succ_mul, Nat.mul_comm, Nat.mul_add_div hpos, Nat.div_eq_of_lt (by omega)]
    rw [hmod, hdiv, Nat.add_sub_cancel]
  · have hcode : shift * binade + 2 * binade = binade * (shift + 2) := by ring
    rw [hcode, Nat.mul_mod_right, Nat.mul_div_cancel_left _ hpos, show shift + 2 - 1 = shift + 1 from rfl,
      Nat.pow_succ]
    ring

theorem infinityBound_eq : ∃ e, e = 2044 ∧ infinityBound * unitScale = (2 ^ 54 - 1) <<< e :=
  ⟨2044, rfl, by decide +kernel⟩

def nearest (s unit : Nat) : Nat :=
  s / unit + if unit < 2 * (s % unit) || (2 * (s % unit) == unit && s / unit % 2 == 1) then 1 else 0

theorem roundCode_eq (num den : Nat) : ∃ shift, shift = (num * unitScale / den).log2 - 52 ∧
    roundCode num den = min (shift * binade + nearest (num * unitScale) (den * 2 ^ shift)) infinityCode := by
  refine ⟨_, rfl, ?_⟩
  unfold roundCode nearest
  dsimp only
  rw [Nat.shiftLeft_eq, Nat.add_assoc]

section Nearest

variable {s unit : Nat}

theorem div_le_nearest (s unit : Nat) : s / unit ≤ nearest s unit := Nat.le_add_right _ _

theorem nearest_le (s unit : Nat) : nearest s unit ≤ s / unit + 1 := by
  unfold nearest
  split <;> omega

theorem nearest_mul_le (s unit : Nat) : 2 * (nearest s unit * unit) ≤ 2 * s + unit := by
  have hdiv := Nat.div_add_mod' s unit
  unfold nearest
  rw [Nat.add_mul]
  split
  · rename_i hup
    simp only [Bool.or_eq_true, Bool.and_eq_true, decide_eq_true_eq, beq_iff_eq] at hup
    omega
  · omega

theorem nearest_of_mod_eq_zero (hunit : 0 < unit) (h : s % unit = 0) : nearest s unit * unit = s := by
  have hdiv := Nat.div_add_mod' s unit
  have hup : (unit < 2 * (s % unit) || (2 * (s % unit) == unit && s / unit % 2 == 1)) = false := by
    rw [h, Bool.or_eq_false_iff, decide_eq_false_iff_not, Bool.and_eq_false_iff, beq_eq_false_iff_ne]
    exact ⟨by omega, .inl (by omega)⟩
  unfold nearest
  rw [hup]
  change s / unit * unit = s
  omega

end Nearest

theorem roundCode_lt (h : num < den * infinityBound) : roundCode num den < infinityCode := by
  obtain ⟨e, he, hbound⟩ := infinityBound_eq
  rw [Nat.shiftLeft_eq] at hbound
  have hscaled : num * unitScale < den * ((2 ^ 54 - 1) * 2 ^ e) := by
    rw [← hbound, ← Nat.mul_assoc]
    exact Nat.mul_lt_mul_of_pos_right h unitScale_pos
  have hinfinity : infinityCode = 2047 * binade := rfl
  have hbinade : binade = 2 ^ 52 := rfl
  obtain ⟨shift, hshift, hcode⟩ := roundCode_eq num den
  rw [hcode]
  clear hcode
  generalize num * unitScale = s at hscaled hshift
  have hquotient : s / den < 2 ^ (54 + e) := by
    refine (Nat.div_lt_of_lt_mul hscaled).trans ?_
    rw [Nat.pow_add]
    exact Nat.mul_lt_mul_of_pos_right (by decide) (Nat.two_pow_pos e)
  have hlog : (s / den).log2 < 54 + e := by
    by_cases hzero : s / den = 0
    · rw [hzero, Nat.log2_zero]
      omega
    · exact (Nat.log2_lt hzero).2 hquotient
  refine Nat.lt_of_le_of_lt (Nat.min_le_left _ _) ?_
  rcases Nat.lt_or_eq_of_le (show shift ≤ e + 1 by omega) with hlt | rfl
  · have hbelow : s / (den * 2 ^ shift) < 2 ^ 53 := by
      rw [← Nat.div_div_eq_div_mul, Nat.div_lt_iff_lt_mul (Nat.two_pow_pos _), ← Nat.pow_add]
      exact Nat.lt_log2_self.trans_le (Nat.pow_le_pow_right (by decide) (by omega))
    have hnear := nearest_le s (den * 2 ^ shift)
    have hmul : shift * binade ≤ 2044 * binade := Nat.mul_le_mul_right binade (by omega)
    omega
  · -- only here does it matter that the fraction is below the bound, and not only in the same binade
    have hnear : nearest s (den * 2 ^ (e + 1)) < 2 ^ 53 := by
      have hle := nearest_mul_le s (den * 2 ^ (e + 1))
      have hdouble : den * 2 ^ (e + 1) = 2 * (den * 2 ^ e) := by ring
      have htimes : den * ((2 ^ 54 - 1) * 2 ^ e) = (2 ^ 54 - 1) * (den * 2 ^ e) := by ring
      refine Nat.lt_of_mul_lt_mul_right (a := den * 2 ^ (e + 1)) ?_
      omega
    have hmul : (e + 1) * binade = 2045 * binade := by rw [he]
    omega

theorem code_ofNat (n : Nat) : (ofNat n).code = roundCode n 1 :=
  code_ofCode (Nat.lt_of_le_of_lt (roundCode_le n 1) (by decide))

theorem unitScale_eq : ∃ k, k = 1074 ∧ unitScale = 1 <<< k := ⟨1074, rfl, rfl⟩

theorem log2_mul_two_pow (hn : n ≠ 0) (k : Nat) : (n * 2 ^ k).log2 = n.log2 + k := by
  have hpos := Nat.two_pow_pos k
  rw [Nat.log2_eq_iff (Nat.mul_ne_zero hn (Nat.ne_of_gt hpos))]
  constructor
  · rw [Nat.pow_add]
    exact Nat.mul_le_mul_right _ (Nat.log2_self_le hn)
  · rw [show n.log2 + k + 1 = n.log2 + 1 + k by omega, Nat.pow_add]
    exact Nat.mul_lt_mul_of_pos_right Nat.lt_log2_self hpos

/-- A whole number is rounded to a multiple of a step by at most half a step, and is kept if it has no more
digits than a magnitude. -/
theorem scaled_ofNat (hn : n ≠ 0) (h : n < infinityBound) : ∃ m step, scaled (ofNat n).code = m * step ∧
    2 ^ 52 ≤ m ∧ step * 2 ^ 52 = 2 ^ n.log2 * unitScale ∧
    2 * (m * step) ≤ 2 * (n * unitScale) + step ∧ (n.log2 ≤ 52 → m * step ≤ n * unitScale) := by
  obtain ⟨k, hk, hunit⟩ := unitScale_eq
  rw [Nat.shiftLeft_eq, Nat.one_mul] at hunit
  have hbinade : binade = 2 ^ 52 := rfl
  have hfinite : roundCode n 1 < infinityCode := roundCode_lt (by rwa [Nat.one_mul])
  obtain ⟨shift, hshift, hcode⟩ := roundCode_eq n 1
  rw [Nat.div_one, hunit, log2_mul_two_pow hn] at hshift
  rw [Nat.one_mul, hunit] at hcode
  rw [code_ofNat, hunit]
  clear hunit h
  have hstep : 2 ^ shift * 2 ^ 52 = 2 ^ n.log2 * 2 ^ k := by
    rw [← Nat.pow_add, ← Nat.pow_add, show shift + 52 = n.log2 + k by omega]
  have hlow := Nat.mul_le_mul_right (2 ^ k) (Nat.log2_self_le hn)
  have hhigh := Nat.mul_lt_mul_of_pos_right (@Nat.lt_log2_self n) (Nat.two_pow_pos k)
  rw [Nat.pow_succ, Nat.mul_right_comm, ← hstep] at hhigh
  rw [← hstep] at hlow
  have hpos : 0 < 2 ^ shift := Nat.two_pow_pos _
  have hbelow : 2 ^ 52 ≤ n * 2 ^ k / 2 ^ shift ∧ n * 2 ^ k / 2 ^ shift < 2 ^ 53 := by
    rw [Nat.le_div_iff_mul_le hpos, Nat.div_lt_iff_lt_mul hpos]
    omega
  have hleast := div_le_nearest (n * 2 ^ k) (2 ^ shift)
  have hmost := nearest_le (n * 2 ^ k) (2 ^ shift)
  rw [hcode] at hfinite ⊢
  rw [Nat.min_eq_left (by omega)]
  refine ⟨nearest (n * 2 ^ k) (2 ^ shift), 2 ^ shift, scaled_add (by omega) (by omega), by omega, hstep,
    nearest_mul_le _ _, fun hle => Nat.le_of_eq (nearest_of_mod_eq_zero hpos ?_)⟩
  rw [show k = 52 - n.log2 + shift by omega, Nat.pow_add, ← Nat.mul_assoc]
  exact Nat.mul_mod_left _ _

/-- A whole number is rounded by at most one part in `2 ^ 53`. -/
theorem scaled_ofNat_le (hn : n ≠ 0) (h : n < infinityBound) :
    2 ^ 53 * scaled (ofNat n).code ≤ (2 ^ 53 + 1) * (n * unitScale) := by
  obtain ⟨m, step, hscaled, -, hstep, hnear, -⟩ := scaled_ofNat hn h
  have hlog := Nat.mul_le_mul_right unitScale (Nat.log2_self_le hn)
  rw [hscaled]
  omega

theorem unitScale_le_scaled_ofNat (hn : n ≠ 0) (h : n < infinityBound) :
    unitScale ≤ scaled (ofNat n).code := by
  obtain ⟨m, step, hscaled, hm, hstep, -, -⟩ := scaled_ofNat hn h
  have hmul := Nat.mul_le_mul_right step hm
  have hlog := Nat.le_mul_of_pos_left unitScale (Nat.two_pow_pos n.log2)
  rw [hscaled]
  omega

/-- With up to 53 binary digits a whole number is kept, and with one more it is rounded by one at most. -/
theorem scaled_ofNat_of_lt (hn : n ≠ 0) (h : n < 2 ^ 54) :
    scaled (ofNat n).code ≤ (if n < 2 ^ 53 then n else n + 1) * unitScale := by
  have hbound : 2 ^ 54 ≤ infinityBound := by decide +kernel
  obtain ⟨m, step, hscaled, -, hstep, hnear, hexact⟩ := scaled_ofNat hn (h.trans_le hbound)
  rw [hscaled]
  split
  · rename_i hlt
    exact hexact (Nat.lt_succ_iff.1 ((Nat.log2_lt hn).2 hlt))
  · have hlog : 2 ^ n.log2 * unitScale ≤ 2 ^ 53 * unitScale :=
      Nat.mul_le_mul_right _ (Nat.pow_le_pow_right (by decide) (Nat.lt_succ_iff.1 ((Nat.log2_lt hn).2 h)))
    have hexpand := Nat.add_one_mul n unitScale
    omega

theorem isFinite_ofCode {negative : Bool} {code : Nat} (h : code < infinityCode) :
    (ofCode negative code).isFinite = true := by
  unfold isFinite
  rw [code_ofCode (h.trans (by decide))]
  exact decide_eq_true h

theorem isFinite_mul {x y : Binary64}
    (h : scaled x.code * scaled y.code < unitScale * unitScale * infinityBound) : (x.mul y).isFinite = true :=
  isFinite_ofCode (roundCode_lt h)

theorem isFinite_div {x y : Binary64} (h : scaled x.code < scaled y.code * infinityBound) :
    (x.div y).isFinite = true := isFinite_ofCode (roundCode_lt h)

theorem isFinite_neg {x : Binary64} (h : x.isFinite = true) : x.neg.isFinite = true :=
  isFinite_ofCode (of_decide_eq_true h)

theorem scaled_lt {code : Nat} (h : code < infinityCode) : scaled code < unitScale * infinityBound := by
  obtain ⟨e, he, hbound⟩ := infinityBound_eq
  have hbinade : binade = 2 ^ 52 := rfl
  have hinfinity : infinityCode = binade * 2047 := rfl
  have hmod := Nat.mod_lt code (by decide : 0 < binade)
  have hdiv : code / binade < 2047 := Nat.div_lt_of_lt_mul (hinfinity ▸ h)
  have hpos : 0 < 2 ^ e := Nat.two_pow_pos e
  have hshift : 2 ^ shift code ≤ 2 ^ e * 2 := by
    rw [← Nat.pow_succ]
    exact Nat.pow_le_pow_right (by decide) (by unfold shift; omega)
  rw [Nat.mul_comm, hbound, Nat.shiftLeft_eq]
  unfold scaled
  rw [Nat.shiftLeft_eq]
  calc _ ≤ (2 ^ 53 - 1) * 2 ^ shift code := Nat.mul_le_mul_right _ (by split <;> omega)
    _ ≤ (2 ^ 53 - 1) * (2 ^ e * 2) := Nat.mul_le_mul_left _ hshift
    _ < (2 ^ 54 - 1) * 2 ^ e := by omega

theorem tenTo_lt {k : Nat} (h : k ≤ 308) : tenTo k < infinityBound :=
  (tenTo_mono h).trans_lt (by decide +kernel)

theorem unitScale_le_tenPow {k : Nat} (h : k ≤ 308) : unitScale ≤ scaled (tenPow k).code :=
  unitScale_le_scaled_ofNat (Nat.ne_of_gt (tenTo_pos k)) (tenTo_lt h)

end Binary64

namespace Json.Reader

open Binary64 Text

variable {s : Nat}

theorem scale_down {e : Int} (hs : s ≤ tenTo 17) (he : e < 0) :
    ∃ x, scale s e = some x ∧ x.isFinite = true := by
  have hdivide : ∀ {x : Binary64} {k : Nat}, k ≤ 308 → scaled x.code < unitScale * infinityBound →
      (x.div (tenPow k)).isFinite = true := fun {x k} hk hx =>
    isFinite_div (hx.trans_le (Nat.mul_le_mul_right _ (unitScale_le_tenPow hk)))
  have hfirst : scaled (ofNat s).code < unitScale * infinityBound := by
    refine scaled_lt ?_
    rw [code_ofNat]
    refine roundCode_lt (hs.trans_lt ?_)
    decide +kernel
  unfold scale
  rw [if_neg (Int.not_le.2 he)]
  dsimp only
  split
  · rename_i hk
    exact ⟨_, rfl, hdivide hk hfirst⟩
  split
  · rename_i hk
    have hlower : (-e).toNat - powerLimit ≤ 308 := by
      unfold powerLimit at hk ⊢
      omega
    exact ⟨_, rfl, hdivide hlower (scaled_lt (of_decide_eq_true (hdivide (Nat.le_refl 308) hfirst)))⟩
  · exact ⟨_, rfl, by decide⟩

/-- For the largest powers of ten the significand is kept, and the power is known. -/
theorem largest_powers : ∀ k < 16, infinityBound / tenTo (293 + k) < 2 ^ 53 ∧
    infinityBound / tenTo (293 + k) * scaled (tenPow (293 + k)).code < unitScale * infinityBound := by
  decide +kernel

variable {k : Nat}

/-- A product stays finite if rounding its first factor leaves room for the second one. -/
theorem isFinite_product {a : Nat} (ha : scaled (ofNat s).code ≤ a * unitScale)
    (hroom : a * scaled (tenPow k).code < unitScale * infinityBound) :
    ((ofNat s).mul (tenPow k)).isFinite = true := by
  refine isFinite_mul ?_
  calc scaled (ofNat s).code * scaled (tenPow k).code
      ≤ a * unitScale * scaled (tenPow k).code := Nat.mul_le_mul_right _ ha
    _ = unitScale * (a * scaled (tenPow k).code) := by ring
    _ < unitScale * (unitScale * infinityBound) := Nat.mul_lt_mul_of_pos_left hroom unitScale_pos
    _ = unitScale * unitScale * infinityBound := by ring

theorem isFinite_product_small (hpos : s ≠ 0) (hs : s ≤ tenTo 17) (hk : k ≤ 291) :
    ((ofNat s).mul (tenPow k)).isFinite = true := by
  have hfactor := scaled_ofNat_le hpos (hs.trans_lt (by decide +kernel))
  have hpower := scaled_ofNat_le (Nat.ne_of_gt (tenTo_pos k)) (tenTo_lt (by omega))
  have hproduct : s * tenTo k ≤ tenTo 308 := by
    rw [show 308 = 17 + 291 from rfl, tenTo_add]
    exact Nat.mul_le_mul hs (tenTo_mono hk)
  have hroom : (2 ^ 53 + 1) * (2 ^ 53 + 1) * tenTo 308 < 2 ^ 53 * 2 ^ 53 * infinityBound := by decide +kernel
  refine isFinite_mul (Nat.lt_of_mul_lt_mul_left (a := 2 ^ 53 * 2 ^ 53) ?_)
  calc 2 ^ 53 * 2 ^ 53 * (scaled (ofNat s).code * scaled (tenPow k).code)
      = 2 ^ 53 * scaled (ofNat s).code * (2 ^ 53 * scaled (ofNat (tenTo k)).code) := by
        unfold tenPow
        ring
    _ ≤ (2 ^ 53 + 1) * (s * unitScale) * ((2 ^ 53 + 1) * (tenTo k * unitScale)) :=
        Nat.mul_le_mul hfactor hpower
    _ = (2 ^ 53 + 1) * (2 ^ 53 + 1) * (s * tenTo k) * (unitScale * unitScale) := by ring
    _ ≤ (2 ^ 53 + 1) * (2 ^ 53 + 1) * tenTo 308 * (unitScale * unitScale) :=
        Nat.mul_le_mul_right _ (Nat.mul_le_mul_left _ hproduct)
    _ < 2 ^ 53 * 2 ^ 53 * infinityBound * (unitScale * unitScale) :=
        Nat.mul_lt_mul_of_pos_right hroom (Nat.mul_pos unitScale_pos unitScale_pos)
    _ = 2 ^ 53 * 2 ^ 53 * (unitScale * unitScale * infinityBound) := by ring

/-- Seventeen digits that are all needed, for the largest magnitudes of all. -/
theorem isFinite_product_292 (hpos : s ≠ 0) (hs : s ≤ 17976931348623157) :
    ((ofNat s).mul (tenPow 292)).isFinite = true := by
  rcases Nat.lt_or_eq_of_le hs with hlt | rfl
  · refine isFinite_product (a := 17976931348623157) ?_ (by decide +kernel)
    refine (scaled_ofNat_of_lt hpos (hs.trans_lt (by decide))).trans (Nat.mul_le_mul_right _ ?_)
    split <;> omega
  · decide +kernel

theorem isFinite_product_large (hpos : s ≠ 0) (hbound : s * tenTo k ≤ infinityBound)
    (hk : 293 ≤ k ∧ k ≤ 308) :
    ((ofNat s).mul (tenPow k)).isFinite = true := by
  obtain ⟨hkept, hroom⟩ := largest_powers (k - 293) (by omega)
  rw [Nat.add_sub_cancel' hk.1] at hkept hroom
  have hle : s ≤ infinityBound / tenTo k := (Nat.le_div_iff_mul_le (tenTo_pos k)).2 hbound
  refine isFinite_product (a := s) ?_ ((Nat.mul_le_mul_right _ hle).trans_lt hroom)
  have hscaled := scaled_ofNat_of_lt hpos ((hle.trans_lt hkept).trans (by decide))
  rwa [if_pos (hle.trans_lt hkept)] at hscaled

theorem scale_up (hpos : s ≠ 0) (hs : s ≤ tenTo 17) (hbound : s * tenTo k ≤ infinityBound)
    (hlargest : k = 292 → s ≤ 17976931348623157) : ∃ x, scale s k = some x ∧ x.isFinite = true := by
  have hk : k ≤ 308 := by
    by_contra hlt
    have hten : infinityBound < tenTo 309 := by decide +kernel
    have hpower : tenTo 309 ≤ tenTo k := tenTo_mono (Nat.lt_of_not_le hlt)
    have hone := Nat.le_mul_of_pos_left (tenTo k) (Nat.pos_of_ne_zero hpos)
    omega
  have hproduct : ((ofNat s).mul (tenPow k)).isFinite = true := by
    by_cases hsmall : k ≤ 291
    · exact isFinite_product_small hpos hs hsmall
    · by_cases hlarge : 293 ≤ k
      · exact isFinite_product_large hpos hbound ⟨hlarge, hk⟩
      · obtain rfl : k = 292 := by omega
        exact isFinite_product_292 hpos (hlargest rfl)
  have hlimit : k ≤ powerLimit := hk
  unfold scale
  rw [if_pos (Int.natCast_nonneg k)]
  dsimp only
  rw [Int.toNat_natCast, if_pos hlimit, if_pos hproduct]
  exact ⟨_, rfl, hproduct⟩

end Json.Reader
end ProfilingAgent

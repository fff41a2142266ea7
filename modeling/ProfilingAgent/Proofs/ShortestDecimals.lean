import Mathlib.Data.List.Induction
import Mathlib.Data.List.TakeWhile
import Mathlib.Tactic.Ring
import ProfilingAgent.Binary64.Shortest
import ProfilingAgent.Proofs.WrittenNumbers

set_option autoImplicit false

namespace ProfilingAgent

namespace Text

variable {ds : List Char} {n : Nat}

theorem tenTo_pos (n : Nat) : 0 < tenTo n := Nat.pow_pos (by decide)

theorem tenTo_add (n k : Nat) : tenTo (n + k) = tenTo n * tenTo k := Nat.pow_add 10 n k

theorem tenTo_mono {m n : Nat} (h : m ≤ n) : tenTo m ≤ tenTo n := Nat.pow_le_pow_right (by decide) h

theorem digitsValue_concat (as bs : List Char) :
    digitsValue (as ++ bs) = digitsValue as * tenTo bs.length + digitsValue bs := by
  induction bs using List.reverseRecOn with
  | nil => simp [digitsValue, tenTo]
  | append_singleton bs c ih =>
    rw [← List.append_assoc, digitsValue_append, ih, digitsValue_append, List.length_append, tenTo_add]
    change _ = _ * (_ * 10) + _
    ring

theorem digitsValue_zeros (k : Nat) : digitsValue (List.replicate k '0') = 0 := by
  induction k with
  | zero => rfl
  | succ k ih =>
    rw [List.replicate_succ', digitsValue_append, ih]
    rfl

theorem value_of_isDigit {c : Char} (h : c.isDigit = true) : c.toNat - 48 ≤ 9 := by
  have hle : c.toNat ≤ 57 := by
    simp only [Char.isDigit, Bool.and_eq_true, decide_eq_true_eq] at h
    exact h.2
  omega

theorem digitsValue_lt (h : ∀ c ∈ ds, c.isDigit = true) : digitsValue ds < tenTo ds.length := by
  induction ds using List.reverseRecOn with
  | nil => decide
  | append_singleton ds c ih =>
    have hds := ih fun d hd => h d (List.mem_append_left _ hd)
    have hc := value_of_isDigit (h c (by simp))
    rw [digitsValue_append, List.length_append, tenTo_add]
    change _ < _ * 10
    omega

theorem le_digitsValue {first : Char} (hdigit : first.isDigit = true) (hfirst : first ≠ '0')
    (ds : List Char) :
    tenTo ds.length ≤ digitsValue (first :: ds) := by
  have hpos : 1 ≤ digitsValue [first] := by
    simp only [Char.isDigit, Bool.and_eq_true, decide_eq_true_eq] at hdigit
    have hle : 48 ≤ first.toNat := hdigit.1
    have hne : first.toNat ≠ 48 := fun heq => hfirst (Char.toNat_inj.1 heq)
    simp [digitsValue]
    omega
  rw [← List.singleton_append, digitsValue_concat]
  exact Nat.le_add_right_of_le (Nat.le_mul_of_pos_left _ hpos)

theorem decimal_bounds (hn : n ≠ 0) : tenTo (decimal n).length ≤ 10 * n ∧ n < tenTo (decimal n).length := by
  obtain ⟨first, ds, heq, hdigit, hzero⟩ := decimal_cons n
  have hlow := le_digitsValue hdigit (fun h => hn (hzero h)) ds
  have hhigh := digitsValue_lt (decimal_all_isDigit n)
  rw [digitsValue_decimal] at hhigh
  rw [← heq, digitsValue_decimal] at hlow
  refine ⟨?_, hhigh⟩
  rw [heq, List.length_cons, tenTo_add]
  change _ * 10 ≤ _
  omega

end Text

namespace Binary64

open Text Shortest

namespace Shortest

/-- Values on a grid are multiplied by one number and divided by another. What these are is known up to
common factors. -/
theorem onGrid_eq (grid : Int) : ∃ a b, 0 < a ∧ 0 < b ∧ (∀ value, onGrid value grid = (value * a, b)) ∧
    ∀ p q : Nat, (q : Int) - p = grid → b * tenTo p = quarterScale * tenTo q * a := by
  have hscale : 0 < quarterScale := by decide +kernel
  by_cases hgrid : 0 ≤ grid
  · refine ⟨1, quarterScale * tenTo grid.toNat, Nat.one_pos, Nat.mul_pos hscale (tenTo_pos _),
      fun value => ?_, fun p q h => ?_⟩
    · rw [onGrid, if_pos hgrid, Nat.mul_one]
    · rw [show q = grid.toNat + p by omega, tenTo_add]
      ring
  · refine ⟨tenTo (-grid).toNat, quarterScale, tenTo_pos _, hscale, fun value => ?_, fun p q h => ?_⟩
    · rw [onGrid, if_neg hgrid]
    · rw [show p = q + (-grid).toNat by omega, tenTo_add]
      ring

variable {i : Interval} {grid place : Int} {a b n left point : Nat}

theorem pick_some (hgrid : ∀ value, onGrid value grid = (value * a, b)) (h : pick i grid = some point) :
    (point = i.value * a / b ∨ point = i.value * a / b + 1) ∧
      i.low * a ≤ point * b ∧ point * b ≤ i.high * a := by
  have hinside : ∀ point, hits i grid point = true → i.low * a ≤ point * b ∧ point * b ≤ i.high * a := by
    intro point hhit
    unfold hits at hhit
    simp only [hgrid] at hhit
    split at hhit
    · simpa using hhit
    · simp only [Bool.and_eq_true, decide_eq_true_eq] at hhit
      exact ⟨Nat.le_of_lt hhit.1, Nat.le_of_lt hhit.2⟩
  unfold pick at h
  simp only [hgrid] at h
  split at h
  · rename_i hbelow habove
    split at h <;> cases h
    · exact ⟨.inl rfl, hinside _ hbelow⟩
    · exact ⟨.inr rfl, hinside _ habove⟩
  · rename_i hbelow _
    cases h
    exact ⟨.inl rfl, hinside _ hbelow⟩
  · rename_i _ habove
    cases h
    exact ⟨.inr rfl, hinside _ habove⟩
  · cases h

/-- On a grid that is finer than the interval is wide, there is something to pick. -/
theorem pick_isSome (hgrid : ∀ value, onGrid value grid = (value * a, b)) (ha : 0 < a) (hb : 0 < b)
    (hlow : i.low < i.value) (hhigh : i.value < i.high) (hfine : i.low * a + b < i.high * a) :
    (pick i grid).isSome = true := by
  have hbelow := Nat.div_mul_le_self (i.value * a) b
  have habove : i.value * a < (i.value * a / b + 1) * b := by
    rw [Nat.add_one_mul]
    exact Nat.lt_div_mul_add hb
  have hlows := Nat.mul_lt_mul_of_pos_right hlow ha
  have hhighs := Nat.mul_lt_mul_of_pos_right hhigh ha
  rw [Nat.add_one_mul] at habove
  have hhit : hits i grid (i.value * a / b) = true ∨ hits i grid (i.value * a / b + 1) = true := by
    unfold hits
    simp only [hgrid, Nat.add_one_mul]
    split <;> simp only [Bool.and_eq_true, decide_eq_true_eq] <;> omega
  unfold pick
  simp only [hgrid]
  split
  · split <;> rfl
  · rfl
  · rfl
  · rename_i hnot hnot'
    rw [hnot, hnot'] at hhit
    simp at hhit

theorem search_eq (h : ∃ m, n ≤ m ∧ m < n + left ∧ (pick i (place - m + 1)).isSome = true) :
    ∃ m point, m < n + left ∧ pick i (place - m + 1) = some point ∧
      search i place left n = (point, place - m + 1) := by
  induction left generalizing n with
  | zero =>
    obtain ⟨m, hle, hlt, -⟩ := h
    omega
  | succ left ih =>
    rw [search]
    cases hpick : pick i (place - n + 1) with
    | some point => exact ⟨n, point, by omega, hpick, rfl⟩
    | none =>
      obtain ⟨m, hle, hlt, hm⟩ := h
      have hne : m ≠ n := by
        rintro rfl
        rw [hpick] at hm
        cases hm
      obtain ⟨m, point, hm, hfound⟩ := ih (n := n + 1) ⟨m, by omega, by omega, hm⟩
      exact ⟨m, point, by omega, hfound⟩

theorem dropZeros_append (ds : List Char) : ∃ k, ds = dropZeros ds ++ List.replicate k '0' := by
  refine ⟨(ds.reverse.takeWhile (· == '0')).length, ?_⟩
  have hzeros : ds.reverse.takeWhile (· == '0') =
      List.replicate (ds.reverse.takeWhile (· == '0')).length '0' :=
    List.eq_replicate_of_mem fun c hc => by simpa using List.mem_takeWhile_imp hc
  have hsplit := congrArg List.reverse (List.takeWhile_append_dropWhile (p := (· == '0')) (l := ds.reverse))
  rw [List.reverse_append, List.reverse_reverse, hzeros, List.reverse_replicate] at hsplit
  exact hsplit.symm

theorem dropZeros_decimal (hpoint : point ≠ 0) : ∃ k first more, dropZeros (decimal point) = first :: more ∧
    first ≠ '0' ∧ point = digitsValue (dropZeros (decimal point)) * tenTo k ∧
    (decimal point).length = (dropZeros (decimal point)).length + k := by
  obtain ⟨first, rest, hcons, -, hzero⟩ := decimal_cons point
  obtain ⟨k, hsplit⟩ := dropZeros_append (decimal point)
  have hvalue : point = digitsValue (dropZeros (decimal point)) * tenTo k := by
    have hconcat := digitsValue_concat (dropZeros (decimal point)) (List.replicate k '0')
    rwa [← hsplit, digitsValue_decimal, digitsValue_zeros, List.length_replicate, Nat.add_zero] at hconcat
  have hcount : (decimal point).length = (dropZeros (decimal point)).length + k := by
    conv_lhs => rw [hsplit, List.length_append, List.length_replicate]
  cases hdropped : dropZeros (decimal point) with
  | nil =>
    rw [hdropped] at hvalue
    exact absurd (hvalue.trans (Nat.zero_mul _)) hpoint
  | cons c more =>
    rw [hdropped] at hsplit hvalue hcount
    rw [hcons, List.cons_append] at hsplit
    exact ⟨k, c, more, rfl, fun hc => hpoint (hzero ((List.cons.inj hsplit).1.trans hc)), hvalue, hcount⟩

variable {code : Nat}

/-- The interval is wide enough for a grid of seventeen digits. -/
theorem interval_wide (hcode : code ≠ 0) :
    0 < (interval code).low ∧ (interval code).low < (interval code).value ∧
    (interval code).value < (interval code).high ∧
    10 ^ 16 * (interval code).low + (interval code).value < 10 ^ 16 * (interval code).high := by
  have hbinade : binade = 2 ^ 52 := by decide
  obtain ⟨m, hpos, hlt, hscaled, heven⟩ : ∃ m, 0 < m ∧ m < 2 * binade ∧ scaled code = m <<< shift code ∧
      (code % binade = 0 ∧ 2 * binade ≤ code → m = binade) := by
    have hmod := Nat.mod_lt code (by decide : 0 < binade)
    unfold scaled
    split
    · exact ⟨code, by omega, by omega, rfl, fun h => by omega⟩
    · exact ⟨binade + code % binade, by omega, by omega, rfl, fun h => by omega⟩
  have hunit : 0 < 2 ^ shift code := Nat.two_pow_pos _
  have hvalue := Nat.mul_le_mul_right (2 ^ shift code) hpos
  have hsmall := Nat.mul_le_mul_right (2 ^ shift code) (Nat.le_of_lt hlt)
  unfold interval
  rw [hscaled, Nat.shiftLeft_eq, Nat.shiftLeft_eq]
  dsimp only
  split
  · rename_i h
    rw [heven h, hbinade]
    omega
  · rw [hbinade] at hsmall
    omega

theorem leadingPlace_eq {value : Nat} (hvalue : 0 < value) : ∃ length : Nat, 0 < length ∧
    leadingPlace value = length - 351 ∧ quarterScale * tenTo length ≤ value * tenTo 350 * 10 ∧
    value * tenTo 350 < quarterScale * tenTo length := by
  have hscale : 0 < quarterScale ∧ quarterScale ≤ tenTo 350 := by decide +kernel
  have hne : value * tenTo 350 / quarterScale ≠ 0 :=
    Nat.ne_of_gt (Nat.div_pos (hscale.2.trans (Nat.le_mul_of_pos_left _ hvalue)) hscale.1)
  obtain ⟨hlow, hhigh⟩ := decimal_bounds hne
  obtain ⟨first, ds, hcons, -⟩ := decimal_cons (value * tenTo 350 / quarterScale)
  refine ⟨(decimal (value * tenTo 350 / quarterScale)).length, ?_, rfl, ?_, ?_⟩
  · rw [hcons, List.length_cons]
    exact Nat.succ_pos _
  · have hdiv := Nat.mul_div_le (value * tenTo 350) quarterScale
    calc quarterScale * tenTo (decimal (value * tenTo 350 / quarterScale)).length
        ≤ quarterScale * (10 * (value * tenTo 350 / quarterScale)) := Nat.mul_le_mul_left _ hlow
      _ = quarterScale * (value * tenTo 350 / quarterScale) * 10 := by ring
      _ ≤ value * tenTo 350 * 10 := Nat.mul_le_mul_right _ hdiv
  · calc value * tenTo 350 < quarterScale * (value * tenTo 350 / quarterScale + 1) :=
          Nat.lt_mul_div_succ _ hscale.1
      _ ≤ quarterScale * tenTo (decimal (value * tenTo 350 / quarterScale)).length :=
          Nat.mul_le_mul_left _ hhigh

theorem pick_seventeen (hcode : code ≠ 0) :
    (pick (interval code) (leadingPlace (interval code).value - (17 : Nat) + 1)).isSome = true := by
  obtain ⟨hpos, hlow, hhigh, hwide⟩ := interval_wide hcode
  obtain ⟨length, -, hplace, hfloor, -⟩ := leadingPlace_eq (hpos.trans hlow)
  obtain ⟨a, b, ha, hb, hgrid, hfactor⟩ := onGrid_eq (leadingPlace (interval code).value - (17 : Nat) + 1)
  refine pick_isSome hgrid ha hb hlow hhigh ?_
  have hbig : 0 < tenTo 350 * 10 := Nat.mul_pos (tenTo_pos 350) (by decide)
  have hstep : b * 10 ^ 16 ≤ (interval code).value * a := by
    refine Nat.le_of_mul_le_mul_right ?_ hbig
    calc b * 10 ^ 16 * (tenTo 350 * 10) = b * (tenTo 350 * tenTo 17) := by
          rw [show tenTo 17 = 10 ^ 17 from rfl]
          ring
      _ = b * tenTo (350 + 17) := by rw [tenTo_add]
      _ = quarterScale * tenTo length * a := hfactor (350 + 17) length (by omega)
      _ ≤ (interval code).value * tenTo 350 * 10 * a := Nat.mul_le_mul_right a hfloor
      _ = (interval code).value * a * (tenTo 350 * 10) := by ring
  refine Nat.lt_of_mul_lt_mul_left (a := 10 ^ 16) ?_
  calc 10 ^ 16 * ((interval code).low * a + b) = 10 ^ 16 * (interval code).low * a + b * 10 ^ 16 := by ring
    _ ≤ 10 ^ 16 * (interval code).low * a + (interval code).value * a := Nat.add_le_add_left hstep _
    _ = (10 ^ 16 * (interval code).low + (interval code).value) * a := by ring
    _ < 10 ^ 16 * (interval code).high * a := Nat.mul_lt_mul_of_pos_right hwide ha
    _ = 10 ^ 16 * ((interval code).high * a) := by ring

/-- The value has at most as many digits before its last place on a grid as the grid is meant for. -/
theorem value_lt_on_grid {value m : Nat} (hvalue : 0 < value) (ha : 0 < a)
    (hfactor : ∀ p q : Nat, (q : Int) - p = leadingPlace value - m + 1 →
      b * tenTo p = quarterScale * tenTo q * a) : value * a < b * tenTo m := by
  obtain ⟨length, -, hplace, -, hceiling⟩ := leadingPlace_eq hvalue
  refine Nat.lt_of_mul_lt_mul_left (a := tenTo 350) ?_
  calc tenTo 350 * (value * a) = value * tenTo 350 * a := by ring
    _ < quarterScale * tenTo length * a := Nat.mul_lt_mul_of_pos_right hceiling ha
    _ = b * tenTo (350 + m) := (hfactor (350 + m) length (by omega)).symm
    _ = tenTo 350 * (b * tenTo m) := by rw [tenTo_add]; ring

end Shortest

/-- What is known of the shortest decimal: it begins with a digit that is not zero, and it is not above the
interval of its magnitude. -/
structure Near (code : Nat) (d : Decimal) : Prop where
  isDigit : ∀ c ∈ d.digits, c.isDigit = true
  first : ∃ c rest, d.digits = c :: rest ∧ c ≠ '0'
  significand : digitsValue d.digits ≤ tenTo 17
  exponent : -400 ≤ d.exponent
  high : ∀ e : Nat, (e : Int) + d.digits.length = d.exponent + 1 →
    digitsValue d.digits * tenTo e * quarterScale ≤ (interval code).high

variable {code : Nat}

theorem shortest_of_search (hcode : code ≠ 0) {point : Nat} {grid : Int}
    (h : search (interval code) (leadingPlace (interval code).value) 17 1 = (point, grid)) :
    shortest code = ⟨dropZeros (decimal point), grid + (decimal point).length - 1⟩ := by
  unfold shortest
  rw [if_neg hcode]
  extract_lets i
  -- the search is not to be evaluated, so its result is taken apart by its equation
  split
  rename_i point' grid' heq
  obtain ⟨rfl, rfl⟩ := Prod.mk.inj (h.symm.trans heq)
  rfl

/-- The point that is found, its grid, and the digits it gives. -/
theorem shortest_eq (hcode : code ≠ 0) : ∃ m point : Nat, m < 18 ∧
    pick (interval code) (leadingPlace (interval code).value - m + 1) = some point ∧
    shortest code = ⟨dropZeros (decimal point),
      leadingPlace (interval code).value - m + 1 + (decimal point).length - 1⟩ := by
  obtain ⟨m, point, hm, hpick, hsearch⟩ :=
    @search_eq (interval code) (leadingPlace (interval code).value) 1 17
      ⟨17, by decide, by decide, pick_seventeen hcode⟩
  exact ⟨m, point, hm, hpick, shortest_of_search hcode hsearch⟩

theorem near_shortest (hcode : code ≠ 0) : Near code (shortest code) := by
  obtain ⟨hpos, hlow, hhigh, -⟩ := interval_wide hcode
  obtain ⟨length, hlength, hplace, -, -⟩ := leadingPlace_eq (hpos.trans hlow)
  obtain ⟨m, point, hm, hpick, hshortest⟩ := shortest_eq hcode
  obtain ⟨a, b, ha, hb, hgrid, hfactor⟩ := onGrid_eq (leadingPlace (interval code).value - m + 1)
  obtain ⟨hneighbour, hbelow, habove⟩ := pick_some hgrid hpick
  have hpoint : point ≠ 0 := by
    rintro rfl
    have := Nat.mul_pos hpos ha
    omega
  have hsmall : point ≤ tenTo 17 := by
    have hdiv := Nat.div_lt_of_lt_mul (value_lt_on_grid (hpos.trans hlow) ha hfactor)
    have hdigits := tenTo_mono (Nat.le_of_lt_succ hm)
    omega
  obtain ⟨k, first, more, hmore, hfirst, hvalue, hcount⟩ := dropZeros_decimal hpoint
  rw [hshortest]
  refine ⟨fun c hc => ?_, ⟨first, more, hmore, hfirst⟩, ?_, ?_, fun e he => ?_⟩
  · obtain ⟨k, hsplit⟩ := dropZeros_append (decimal point)
    refine decimal_all_isDigit point c ?_
    rw [hsplit]
    exact List.mem_append_left _ hc
  · exact (Nat.le_mul_of_pos_right _ (tenTo_pos k)).trans (hvalue ▸ hsmall)
  · change -400 ≤ leadingPlace (interval code).value - m + 1 + (decimal point).length - 1
    omega
  · change (e : Int) + (dropZeros (decimal point)).length =
      leadingPlace (interval code).value - m + 1 + (decimal point).length - 1 + 1 at he
    have hscaled := hfactor k e (by omega)
    refine Nat.le_of_mul_le_mul_right ?_ ha
    calc digitsValue (dropZeros (decimal point)) * tenTo e * quarterScale * a
        = digitsValue (dropZeros (decimal point)) * (quarterScale * tenTo e * a) := by ring
      _ = digitsValue (dropZeros (decimal point)) * tenTo k * b := by rw [← hscaled]; ring
      _ = point * b := by rw [← hvalue]
      _ ≤ (interval code).high * a := habove

end Binary64
end ProfilingAgent

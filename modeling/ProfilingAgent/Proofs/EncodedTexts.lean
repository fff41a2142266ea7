import ProfilingAgent.Proofs.ByteOrder

set_option autoImplicit false

namespace ProfilingAgent.Text.Utf8

variable {b : UInt8} {rest tail : List UInt8} {c : Char} {cs : List (Option Char)} {n bits : Nat} {low high : UInt8}

theorem announced_eq (b : UInt8) : announced b =
    if 0xC2 ≤ b.toNat ∧ b.toNat ≤ 0xDF then some (1, 0x80, 0xBF, b.toNat - 0xC0)
    else if 0xE0 ≤ b.toNat ∧ b.toNat ≤ 0xEF then
      some (2, if b.toNat = 0xE0 then 0xA0 else 0x80, if b.toNat = 0xED then 0x9F else 0xBF, b.toNat - 0xE0)
    else if 0xF0 ≤ b.toNat ∧ b.toNat ≤ 0xF4 then
      some (3, if b.toNat = 0xF0 then 0x90 else 0x80, if b.toNat = 0xF4 then 0x8F else 0xBF, b.toNat - 0xF0)
    else none := by
  have hall : ∀ n < 256, announced (UInt8.ofNat n) =
      if 0xC2 ≤ n ∧ n ≤ 0xDF then some (1, 0x80, 0xBF, n - 0xC0)
      else if 0xE0 ≤ n ∧ n ≤ 0xEF then
        some (2, if n = 0xE0 then 0xA0 else 0x80, if n = 0xED then 0x9F else 0xBF, n - 0xE0)
      else if 0xF0 ≤ n ∧ n ≤ 0xF4 then
        some (3, if n = 0xF0 then 0x90 else 0x80, if n = 0xF4 then 0x8F else 0xBF, n - 0xF0)
      else none := by decide +kernel
  simpa using hall b.toNat b.toNat_lt

theorem following_cons (h : low.toNat ≤ b.toNat ∧ b.toNat ≤ high.toNat) :
    following (n + 1) low high bits (b :: rest) =
      following n 0x80 0xBF (bits * 64 + (b.toNat - 0x80)) rest := by
  rw [following, if_pos (by simpa [UInt8.le_iff_toNat_le] using h)]

theorem following_succ_some {m : Nat}
    (h : following (n + 1) low high bits rest = (some m, tail)) : ∃ d more, rest = d :: more ∧
      low.toNat ≤ d.toNat ∧ d.toNat ≤ high.toNat ∧
      following n 0x80 0xBF (bits * 64 + (d.toNat - 0x80)) more = (some m, tail) := by
  cases rest with
  | nil => simp [following] at h
  | cons d more =>
    rw [following] at h
    split at h
    · rename_i hd
      have hrange : low.toNat ≤ d.toNat ∧ d.toNat ≤ high.toNat := by simpa [UInt8.le_iff_toNat_le] using hd
      exact ⟨d, more, rfl, hrange.1, hrange.2, h⟩
    · simp at h

theorem following_one_some {m : Nat} (h : following 1 low high bits rest = (some m, tail)) :
    ∃ d, rest = d :: tail ∧ low.toNat ≤ d.toNat ∧ d.toNat ≤ high.toNat ∧ bits * 64 + (d.toNat - 0x80) = m := by
  obtain ⟨d, more, hrest, hlow, hhigh, hdone⟩ := following_succ_some h
  rw [following, Prod.mk.injEq, Option.some.injEq] at hdone
  exact ⟨d, by rw [hrest, hdone.2], hlow, hhigh, hdone.1⟩

theorem toNat_byte {m : Nat} (h : m < 256) : (UInt8.ofNat m).toNat = m := by
  rw [UInt8.toNat_ofNat', Nat.mod_eq_of_lt h]

theorem following_byte {m : Nat} (hm : m < 256) (h : low.toNat ≤ m ∧ m ≤ high.toNat) :
    following (n + 1) low high bits (UInt8.ofNat m :: rest) =
      following n 0x80 0xBF (bits * 64 + (m - 0x80)) rest := by
  have hbyte := toNat_byte hm
  rw [following_cons (by rw [hbyte]; exact h), hbyte]

theorem scan_announced {m : Nat} (hm : 0x80 ≤ m ∧ m < 256)
    (h : announced (UInt8.ofNat m) = some (n, low, high, bits))
    (hfollowing : following n low high bits rest = (some c.toNat, tail)) :
    scan (UInt8.ofNat m :: rest) = some c :: scan tail := by
  have hb : ¬UInt8.ofNat m < 0x80 := by
    rw [UInt8.lt_iff_toNat_lt, toNat_byte hm.2]
    exact Nat.not_lt.2 hm.1
  rw [scan, if_neg hb, h]
  dsimp only
  rw [hfollowing, Option.map_some, Char.ofNat_toNat]

theorem scan_encodeChar (c : Char) (rest : List UInt8) :
    scan (String.utf8EncodeChar c ++ rest) = some c :: scan rest := by
  have hvalid : c.toNat < 0xD800 ∨ 0xDFFF < c.toNat ∧ c.toNat < 0x110000 := c.valid
  have hval : c.val.toNat = c.toNat := rfl
  unfold String.utf8EncodeChar
  rw [hval]
  dsimp only
  split_ifs with h1 h2 h3 <;> simp only [List.cons_append, List.nil_append]
  · have hb : UInt8.ofNat c.toNat < 0x80 := by
      rw [UInt8.lt_iff_toNat_lt, toNat_byte (by omega)]
      exact Nat.lt_succ_of_le h1
    rw [scan, if_pos hb, toNat_byte (by omega), Char.ofNat_toNat]
  · refine scan_announced (by omega) (by rw [announced_eq, toNat_byte (by omega), if_pos (by omega)]) ?_
    rw [following_byte (by omega) ⟨by simp, by simp; omega⟩]
    rw [following, Prod.mk.injEq, Option.some.injEq]
    exact ⟨by omega, rfl⟩
  · refine scan_announced (by omega)
      (by rw [announced_eq, toNat_byte (by omega), if_neg (by omega), if_pos (by omega)]) ?_
    rw [following_byte (by omega) (by split_ifs <;> simp <;> omega),
      following_byte (by omega) ⟨by simp, by simp; omega⟩]
    rw [following, Prod.mk.injEq, Option.some.injEq]
    exact ⟨by omega, rfl⟩
  · refine scan_announced (by omega)
      (by rw [announced_eq, toNat_byte (by omega), if_neg (by omega), if_neg (by omega), if_pos (by omega)]) ?_
    rw [following_byte (by omega) (by split_ifs <;> simp <;> omega),
      following_byte (by omega) ⟨by simp, by simp; omega⟩, following_byte (by omega) ⟨by simp, by simp; omega⟩]
    rw [following, Prod.mk.injEq, Option.some.injEq]
    exact ⟨by omega, rfl⟩

theorem scan_flatMap (cs : List Char) : scan (cs.flatMap String.utf8EncodeChar) = cs.map some := by
  induction cs with
  | nil => rw [List.flatMap_nil, scan, List.map_nil]
  | cons c cs ih => rw [List.flatMap_cons, scan_encodeChar, ih, List.map_cons]

theorem toNat_ofNat {m : Nat} (h : m < 0xD800 ∨ 0xDFFF < m ∧ m < 0x110000) : (Char.ofNat m).toNat = m := by
  rw [Char.ofNat, dif_pos h]
  rfl

theorem byte_eq {m : Nat} (h : m = b.toNat) : UInt8.ofNat m = b := by
  rw [h, UInt8.ofNat_toNat]

theorem announced_of_scan (hb : ¬b < 0x80) (h : scan (b :: rest) = some c :: cs) :
    ∃ n low high bits m tail, announced b = some (n, low, high, bits) ∧
      following n low high bits rest = (some m, tail) ∧ Char.ofNat m = c ∧ scan tail = cs := by
  rw [scan, if_neg hb] at h
  rcases hannounced : announced b with _ | ⟨n, low, high, bits⟩
  · simp [hannounced] at h
  · rw [hannounced] at h
    dsimp only at h
    rcases hfollowing : following n low high bits rest with ⟨_ | m, tail⟩
    · simp [hfollowing] at h
    · rw [hfollowing, Option.map_some, List.cons.injEq, Option.some.injEq] at h
      exact ⟨n, low, high, bits, m, tail, rfl, hfollowing, h⟩

theorem scan_eq_cons (h : scan (b :: rest) = some c :: cs) :
    ∃ more, b :: rest = String.utf8EncodeChar c ++ more ∧ scan more = cs := by
  by_cases hb : b < 0x80
  · have hlt : b.toNat < 0x80 := UInt8.lt_iff_toNat_lt.1 hb
    rw [scan, if_pos hb, List.cons.injEq, Option.some.injEq] at h
    obtain ⟨rfl, hrest⟩ := h
    have hval : (Char.ofNat b.toNat).val.toNat = b.toNat := toNat_ofNat (by omega)
    refine ⟨rest, ?_, hrest⟩
    rw [String.utf8EncodeChar, hval, if_pos (by omega), UInt8.ofNat_toNat]
    rfl
  · obtain ⟨n, low, high, bits, m, tail, hannounced, hfollowing, rfl, htail⟩ := announced_of_scan hb h
    refine ⟨tail, ?_, htail⟩
    rw [announced_eq] at hannounced
    by_cases h2 : 0xC2 ≤ b.toNat ∧ b.toNat ≤ 0xDF
    · rw [if_pos h2, Option.some.injEq] at hannounced
      cases hannounced
      obtain ⟨d, rfl, hd⟩ := following_one_some hfollowing
      simp only [UInt8.reduceToNat] at hd
      have hval : (Char.ofNat m).val.toNat = m := toNat_ofNat (by omega)
      rw [String.utf8EncodeChar, hval, if_neg (by omega), if_pos (by omega), byte_eq (b := b) (by omega),
        byte_eq (b := d) (by omega)]
      rfl
    rw [if_neg h2] at hannounced
    by_cases h3 : 0xE0 ≤ b.toNat ∧ b.toNat ≤ 0xEF
    · rw [if_pos h3, Option.some.injEq] at hannounced
      cases hannounced
      obtain ⟨d, more, rfl, hlow, hhigh, hmore⟩ := following_succ_some hfollowing
      obtain ⟨e, rfl, he⟩ := following_one_some hmore
      simp only [apply_ite UInt8.toNat, UInt8.reduceToNat] at hlow hhigh he
      -- no character is written longer than it has to be, and none is a surrogate
      have hrange : (0x80 ≤ d.toNat ∧ d.toNat ≤ 0xBF) ∧ (b.toNat = 0xE0 → 0xA0 ≤ d.toNat) ∧
          (b.toNat = 0xED → d.toNat ≤ 0x9F) := by split_ifs at hlow hhigh <;> omega
      have hval : (Char.ofNat m).val.toNat = m := toNat_ofNat (by omega)
      rw [String.utf8EncodeChar, hval, if_neg (by omega), if_neg (by omega), if_pos (by omega),
        byte_eq (b := b) (by omega), byte_eq (b := d) (by omega), byte_eq (b := e) (by omega)]
      rfl
    rw [if_neg h3] at hannounced
    by_cases h4 : 0xF0 ≤ b.toNat ∧ b.toNat ≤ 0xF4
    · rw [if_pos h4, Option.some.injEq] at hannounced
      cases hannounced
      obtain ⟨d, more, rfl, hlow, hhigh, hmore⟩ := following_succ_some hfollowing
      obtain ⟨e, more, rfl, helow, hehigh, hlast⟩ := following_succ_some hmore
      obtain ⟨f, rfl, hf⟩ := following_one_some hlast
      simp only [apply_ite UInt8.toNat, UInt8.reduceToNat] at hlow hhigh helow hehigh hf
      have hrange : (0x80 ≤ d.toNat ∧ d.toNat ≤ 0xBF) ∧ (b.toNat = 0xF0 → 0x90 ≤ d.toNat) ∧
          (b.toNat = 0xF4 → d.toNat ≤ 0x8F) := by split_ifs at hlow hhigh <;> omega
      have hval : (Char.ofNat m).val.toNat = m := toNat_ofNat (by omega)
      rw [String.utf8EncodeChar, hval, if_neg (by omega), if_neg (by omega), if_neg (by omega),
        byte_eq (b := b) (by omega), byte_eq (b := d) (by omega), byte_eq (b := e) (by omega),
        byte_eq (b := f) (by omega)]
      rfl
    rw [if_neg h4] at hannounced
    cases hannounced

theorem scan_eq_map_some {cs : List Char} {bytes : List UInt8} (h : scan bytes = cs.map some) :
    bytes = cs.flatMap String.utf8EncodeChar := by
  induction cs generalizing bytes with
  | nil =>
    cases bytes with
    | nil => rfl
    | cons b rest =>
      rw [scan] at h
      split at h
      · simp at h
      · split at h <;> simp at h
  | cons c cs ih =>
    cases bytes with
    | nil => simp [scan] at h
    | cons b rest =>
      obtain ⟨more, hmore, hcs⟩ := scan_eq_cons h
      rw [hmore, List.flatMap_cons, ih hcs]

theorem mapM_id_eq_some_iff {read : List (Option Char)} {cs : List Char} :
    read.mapM id = some cs ↔ read = cs.map some := by
  induction read generalizing cs with
  | nil => cases cs <;> simp
  | cons r read ih =>
    cases r with
    | none => cases cs <;> simp
    | some c => cases cs <;> simp [ih, Option.bind_eq_some_iff, and_comm]

theorem decode?_eq_some_iff {bytes : List UInt8} {s : String} : decode? bytes = some s ↔ bytes = encode s := by
  rw [decode?, Option.map_eq_some_iff, encode_eq_flatMap]
  constructor
  · rintro ⟨cs, hcs, rfl⟩
    rw [String.toList_ofList]
    exact scan_eq_map_some (mapM_id_eq_some_iff.1 hcs)
  · rintro rfl
    exact ⟨s.toList, mapM_id_eq_some_iff.2 (scan_flatMap s.toList), String.ofList_toList⟩

theorem decodeLossy_encode (s : String) : decodeLossy (encode s) = s := by
  unfold decodeLossy
  rw [encode_eq_flatMap, scan_flatMap, List.map_map]
  have hid : ((fun c : Option Char => c.getD (Char.ofNat 0xFFFD)) ∘ some) = id := rfl
  rw [hid, List.map_id, String.ofList_toList]

end ProfilingAgent.Text.Utf8

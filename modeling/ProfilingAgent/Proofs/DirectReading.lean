import ProfilingAgent.Proofs.SettingBySetting
import ProfilingAgent.Proofs.SkippedValues

set_option autoImplicit false

namespace ProfilingAgent

open Json Json.Reader Log

namespace Json

def Value.bracketed : Value → Bool
  | .array _ | .object _ => true
  | _ => false

variable {α β : Type} {c d e : Cursor}

namespace Reader

def Leaves (r : Reader (Option β)) (c : Cursor) (b : Option β) (d : Cursor) : Prop :=
  Gives r c b d ∨ b = none ∧ ∃ fault, r c = .failed fault d

theorem Leaves.bind {r : Reader α} {f : α → Reader (Option β)} {a : α} {b : Option β}
    (hr : Gives r c a e) (hf : Leaves (f a) e b d) : Leaves (r >>= f) c b d := by
  have hbind : (r >>= f) c = f a e := by
    dsimp only [Bind.bind]
    rw [hr]
  unfold Leaves Gives
  rw [hbind]
  exact hf

theorem gives_anyValue {n depth : Nat} {v : Value} (h : Gives (value n depth) c v d) :
    Gives (anyValue depth) c v.normal d :=
  gives_bind_pure.2
    ⟨v, (with_enough_fuel n).1 depth c v d h _ (by unfold fuelFor; omega), rfl⟩

end Reader

theorem Value.ofText_of_written {s : String} {v : Value} (h : Value.written s = .ok v) :
    Value.ofText s = .ok v.normal := by
  obtain ⟨d, hread, hend⟩ := run_eq_ok_iff.1 h
  exact run_eq_ok_iff.2 ⟨d, gives_bind_pure.2 ⟨v, hread, rfl⟩, hend⟩

end Json

namespace Layer

variable {c d e f : Cursor} {n depth : Nat} {v : Value} {l : Layer} {s : Setting}

theorem rateNumber_leaves (k : Number) (c : Cursor) :
    Leaves (rateNumber k) c (rate (.number k)).value c := by
  have hvalue : rateOfValue (.number k) = rateOfNumber k := rfl
  unfold rateNumber rate
  rw [hvalue]
  cases rateOfNumber k with
  | ok r => exact .inl (gives_pure.2 ⟨rfl, rfl⟩)
  | error message => exact .inr ⟨rfl, _, rfl⟩

theorem found_leaves (expected : String) (v : Value) (c : Cursor) :
    Leaves (mismatch.found expected v : Reader (Option UInt32)) c none c := .inr ⟨rfl, _, rfl⟩

/-- Whatever stands for a sample rate without brackets has been read when it is refused. -/
theorem rateReader_leaves (h : Gives (value n depth) c v d) (hplain : v.bracketed = false) :
    Leaves rateReader c (rate v).value d := by
  cases n with
  | zero => exact absurd h not_gives_fail
  | succ n =>
    have hpeek : Gives peekToken c c.skipBlanks.rest.head? c.skipBlanks := rfl
    have hhere : Gives peek c.skipBlanks c.skipBlanks.rest.head? c.skipBlanks := rfl
    have hnext : Gives advance c.skipBlanks () c.skipBlanks.tail := rfl
    refine .bind hpeek ?_
    cases gives_value.1 h with
    | null hhead hword =>
      rw [hhead]
      exact .bind hnext (.bind hword (.inl (gives_pure.2 ⟨rfl, rfl⟩)))
    | yes hhead hword =>
      rw [hhead] at hhere ⊢
      exact .bind hhere (.bind hnext (.bind hword (found_leaves _ _ _)))
    | no hhead hword =>
      rw [hhead] at hhere ⊢
      exact .bind hhere (.bind hnext (.bind hword (found_leaves _ _ _)))
    | negative hhead hnumber =>
      rw [hhead]
      exact .bind hnext (.bind hnumber (rateNumber_leaves _ _))
    | natural hhead hdigit hnumber =>
      rw [hhead]
      split
      case h_4 heq =>
        cases heq
        rw [if_pos hdigit]
        exact .bind hnumber (rateNumber_leaves _ _)
      all_goals
        rename_i heq
        cases heq <;> cases hdigit
    | string hhead hstring =>
      rw [hhead] at hhere ⊢
      exact .bind hhere (.bind hnext (.bind hstring (found_leaves _ _ _)))
    | array _ _ _ _ => cases hplain
    | object _ _ _ _ => cases hplain

theorem bracketed_head (h : Gives (value n depth) c v d) (hbracket : v.bracketed = true) :
    c.skipBlanks.rest.head? = some '[' ∨ c.skipBlanks.rest.head? = some '{' := by
  cases n with
  | zero => exact absurd h not_gives_fail
  | succ n =>
    cases gives_value.1 h with
    | null _ _ => cases hbracket
    | yes _ _ => cases hbracket
    | no _ _ => cases hbracket
    | negative _ _ => cases hbracket
    | natural _ _ _ => cases hbracket
    | string _ _ => cases hbracket
    | array hhead _ _ _ => exact .inl hhead
    | object hhead _ _ _ => exact .inr hhead

/-- An opening bracket that stands for a sample rate is not read. -/
theorem rateReader_bracketed (h : Gives (value n depth) c v d) (hbracket : v.bracketed = true) :
    ∃ fault, rateReader c = .failed fault c.skipBlanks := by
  have hpeek : ∀ f : Option Char → Reader (Option UInt32),
      (peekToken >>= f) c = f c.skipBlanks.rest.head? c.skipBlanks := fun _ => rfl
  have hhere : ∀ f : Option Char → Reader (Option UInt32),
      (peek >>= f) c.skipBlanks = f c.skipBlanks.rest.head? c.skipBlanks := fun _ => rfl
  unfold rateReader
  rw [hpeek]
  rcases bracketed_head h hbracket with hhead | hhead
  · rw [hhead] at hhere ⊢
    exact ⟨_, hhere _⟩
  · rw [hhead] at hhere ⊢
    exact ⟨_, hhere _⟩

theorem normal_of_plain (h : v.bracketed = false) : v.normal = v := by
  cases v with
  | array _ => cases h
  | object _ => cases h
  | _ => rfl

theorem rate_set (v : Value) (h : l.get .sampleRate = none) :
    { l with sampleRate := (rate v).value } = (readSetting .sampleRate v l).value := by
  unfold readSetting
  split
  · have hfree : l.sampleRate = (rate .null).value := h
    rw [← hfree]
    rfl
  · rfl

theorem settingFrom_gives (h : Gives (value n (depthLimit - 1)) c v d) (hfree : l.get s = none)
    (hplain : s = .sampleRate → v.bracketed = false) :
    (settingFrom s l c).value = .done (readSetting s v.normal l).value d := by
  unfold settingFrom
  by_cases hs : s = .sampleRate
  · subst hs
    have hread := rateReader_leaves h (hplain rfl)
    rw [if_pos rfl, normal_of_plain (hplain rfl), ← rate_set v hfree]
    rcases hread with hgives | ⟨hnone, fault, hfailed⟩
    · rw [hgives]
      rfl
    · rw [hfailed, hnone]
      rfl
  · rw [if_neg hs, gives_anyValue h]
    rfl

theorem settingFrom_bracketed (h : Gives (value n depth) c v d) (hbracket : v.bracketed = true) :
    ∃ l', (settingFrom .sampleRate l c).value = .done l' c.skipBlanks := by
  obtain ⟨fault, hfailed⟩ := rateReader_bracketed h hbracket
  unfold settingFrom
  rw [if_pos rfl, hfailed]
  exact ⟨_, rfl⟩

section Entries

variable {m : Nat} {first : Bool} {seen : List Setting} {k : String} {g : Cursor} {l' : Layer}

def nextKey (first : Bool) : Reader (Option String) := do
  if ← anotherKey first then some <$> key else pure none

theorem nextKey_of_key (hanother : KeyAt c first true d) (hkey : Gives key d k e) :
    nextKey first c = .done (some k) e := by
  have hmap : Gives (some <$> key) d (some k) e := gives_bind_pure.2 ⟨k, hkey, rfl⟩
  exact gives_bind.2 ⟨true, d, gives_anotherKey.2 hanother, hmap⟩

theorem nextKey_at_end (hend : KeyAt c first false d) : nextKey first c = .done none d :=
  gives_bind.2 ⟨false, d, gives_anotherKey.2 hend, gives_pure.2 ⟨rfl, rfl⟩⟩

theorem entriesFrom_end (hend : KeyAt c first false d) :
    (entriesFrom (m + 1) first seen l c).value = .done l d := by
  have hnext := nextKey_at_end hend
  unfold nextKey at hnext
  unfold entriesFrom
  rw [hnext]
  rfl

theorem entriesFrom_unknown (hanother : KeyAt c first true d) (hkey : Gives key d k e)
    (hname : Setting.ofName? k = none) (hcolon : Gives colon e () f) (hskip : Gives skipValue f () g) :
    (entriesFrom (m + 1) first seen l c).value = (entriesFrom m false seen l g).value := by
  have hnext := nextKey_of_key hanother hkey
  have hrest : Gives (do colon; skipValue) e () g := gives_bind.2 ⟨(), f, hcolon, hskip⟩
  unfold nextKey at hnext
  unfold Gives at hrest
  conv_lhs => unfold entriesFrom
  rw [hnext]
  dsimp only
  rw [hname, hrest]

theorem entriesFrom_setting (hanother : KeyAt c first true d) (hkey : Gives key d k e)
    (hname : Setting.ofName? k = some s) (hunseen : s ∉ seen) (hcolon : Gives colon e () f)
    (hsetting : (settingFrom s l f).value = .done l' g) :
    (entriesFrom (m + 1) first seen l c).value = (entriesFrom m false (s :: seen) l' g).value := by
  have hnext := nextKey_of_key hanother hkey
  unfold nextKey at hnext
  unfold Gives at hcolon
  conv_lhs => unfold entriesFrom
  rw [hnext]
  dsimp only
  rw [hname]
  dsimp only
  rw [if_neg hunseen, hcolon]
  dsimp only
  rw [Noted.value_bind, hsetting]

theorem nextKey_stops {ch : Char} (hhead : c.skipBlanks.rest.head? = some ch) (hend : ch ≠ '}')
    (hcomma : ch ≠ ',') : ∃ fault left, nextKey false c = .failed fault left := by
  cases hnext : nextKey false c with
  | failed fault left => exact ⟨fault, left, rfl⟩
  | done next left =>
    obtain ⟨another, e, hanother, -⟩ := gives_bind.1 hnext
    cases gives_anotherKey.1 hanother with
    | none hbracket => exact absurd (Option.some.inj (hhead.symm.trans hbracket)) hend
    | later hseparator _ => exact absurd (Option.some.inj (hhead.symm.trans hseparator)) hcomma

theorem entriesFrom_stops {ch : Char} (hhead : c.skipBlanks.rest.head? = some ch) (hend : ch ≠ '}')
    (hcomma : ch ≠ ',') : ∃ fault left, (entriesFrom m false seen l c).value = .failed fault left := by
  cases m with
  | zero => exact ⟨_, _, rfl⟩
  | succ m =>
    obtain ⟨fault, left, hnext⟩ := nextKey_stops hhead hend hcomma
    unfold nextKey at hnext
    unfold entriesFrom
    rw [hnext]
    exact ⟨_, _, rfl⟩

end Entries

/-- The sample rate among some entries is an array or an object. -/
def RateBracketed (es : List (String × Value)) : Prop :=
  ∃ v, (Setting.sampleRate.name, v) ∈ es ∧ v.bracketed = true

section Run

variable {es : List (String × Value)} {seen : List Setting} {first : Bool}

def Unseen (seen : List Setting) (es : List (String × Value)) : Prop :=
  ∀ s ∈ seen, s.name ∉ es.map Prod.fst

theorem unseen_nil (es : List (String × Value)) : Unseen [] es := nofun

theorem Unseen.rest {k : String} (h : Unseen seen ((k, v) :: es)) : Unseen seen es :=
  fun s hs hmem => h s hs (List.mem_cons_of_mem _ hmem)

theorem Unseen.step {k : String} (h : Unseen seen ((k, v) :: es)) (hk : k = s.name)
    (hnodup : (((k, v) :: es).map Prod.fst).Nodup) : Unseen (s :: seen) es := by
  intro t ht
  rcases List.mem_cons.1 ht with rfl | ht
  · exact hk ▸ (List.nodup_cons.1 hnodup).1
  · exact h.rest t ht

theorem entriesFrom_gives (n : Nat) {c d : Cursor}
    (h : Gives (entries n (depthLimit - 1) first) c es d) (hnodup : (es.map Prod.fst).Nodup)
    (hunseen : Unseen seen es) (hopen : Open l (Value.normalEntries es)) (hplain : ¬RateBracketed es) :
    ∀ m, c.rest.length < m → ∃ l', (entriesFrom m first seen l c).value = .done l' d ∧
      ∀ s, l'.get s = (toldBy s (Value.normalEntries es)).or (l.get s) := by
  induction n generalizing first es seen l c with
  | zero => exact absurd h not_gives_fail
  | succ n ih =>
    intro m hm
    obtain ⟨m, rfl⟩ : ∃ k, m = k + 1 := ⟨m - 1, by omega⟩
    cases gives_entries.1 h with
    | nil hend => exact ⟨l, entriesFrom_end hend, fun s => rfl⟩
    | @cons k v es _ _ _ _ _ hanother hkey hcolon hvalue hrest =>
      have hle := (Forward.anotherKey _).length_le (gives_anotherKey.2 hanother)
      have hkeyShorter := hanother.key_shorter hkey
      have hcolonle := Forward.colon.length_le hcolon
      have hshorter := value_shorter hvalue
      have hrestNodup := (List.nodup_cons.1 hnodup).2
      have hrestPlain : ¬RateBracketed es := fun ⟨u, hu, hb⟩ => hplain ⟨u, List.mem_cons_of_mem _ hu, hb⟩
      have hnormal := nodup_normalEntries hnodup
      rw [Value.normalEntries] at hnormal
      cases hname : Setting.ofName? k with
      | none =>
        obtain ⟨l', hread, htold⟩ := ih hrest hrestNodup hunseen.rest hopen.rest hrestPlain m (by omega)
        refine ⟨l', ?_, fun s => ?_⟩
        · rw [entriesFrom_unknown hanother hkey hname hcolon (skips_value hvalue), hread]
        · rw [htold, Value.normalEntries, toldBy_cons_other (Setting.ne_name_of_ofName? hname s)]
      | some t =>
        have hk := Setting.name_of_ofName? hname
        have hnew : t ∉ seen := fun hmem => hunseen t hmem (hk ▸ List.mem_cons_self)
        have hsetting := settingFrom_gives hvalue (hopen t (hk ▸ List.mem_cons_self)) fun ht => by
          by_contra hb
          exact hplain ⟨v, by rw [← ht, ← hk]; exact List.mem_cons_self, by simpa using hb⟩
        obtain ⟨l', hread, htold⟩ := ih hrest hrestNodup (hunseen.step hk hnodup)
          (hopen.step hk hnormal v.normal) hrestPlain m (by omega)
        refine ⟨l', ?_, fun s => ?_⟩
        · rw [entriesFrom_setting hanother hkey hname hnew hcolon hsetting, hread]
        · rw [htold, Value.normalEntries]
          exact told_step hopen hk hnormal s

theorem entriesFrom_stuck (n : Nat) {c d : Cursor}
    (h : Gives (entries n (depthLimit - 1) first) c es d) (hnodup : (es.map Prod.fst).Nodup)
    (hunseen : Unseen seen es) (hopen : Open l (Value.normalEntries es)) (hrate : RateBracketed es) :
    ∀ m, ∃ fault left, (entriesFrom m first seen l c).value = .failed fault left := by
  induction n generalizing first es seen l c with
  | zero => exact absurd h not_gives_fail
  | succ n ih =>
    intro m
    cases m with
    | zero => exact ⟨_, _, rfl⟩
    | succ m =>
      obtain ⟨u, hu, hb⟩ := hrate
      cases gives_entries.1 h with
      | nil hend => cases hu
      | @cons k v es _ _ _ _ _ hanother hkey hcolon hvalue hrest =>
        have hrestNodup := (List.nodup_cons.1 hnodup).2
        have hnormal := nodup_normalEntries hnodup
        rw [Value.normalEntries] at hnormal
        cases hname : Setting.ofName? k with
        | none =>
          have hlater : RateBracketed es := by
            rcases List.mem_cons.1 hu with heq | hu
            · obtain ⟨hk, -⟩ := Prod.mk.inj heq
              exact absurd hk.symm (Setting.ne_name_of_ofName? hname .sampleRate)
            · exact ⟨u, hu, hb⟩
          rw [entriesFrom_unknown hanother hkey hname hcolon (skips_value hvalue)]
          exact ih hrest hrestNodup hunseen.rest hopen.rest hlater m
        | some t =>
          have hk := Setting.name_of_ofName? hname
          have hnew : t ∉ seen := fun hmem => hunseen t hmem (hk ▸ List.mem_cons_self)
          rcases List.mem_cons.1 hu with heq | hu
          · obtain ⟨hrateName, rfl⟩ := Prod.mk.inj heq
            obtain rfl : t = .sampleRate := Setting.name_injective (hk.symm.trans hrateName.symm)
            obtain ⟨l', hsetting⟩ := settingFrom_bracketed hvalue hb
            rw [entriesFrom_setting hanother hkey hname hnew hcolon hsetting]
            have hhead := bracketed_head hvalue hb
            rw [← skipBlanks_skipBlanks] at hhead
            rcases hhead with hhead | hhead
            · exact entriesFrom_stops hhead (by decide) (by decide)
            · exact entriesFrom_stops hhead (by decide) (by decide)
          · have hother : t = .sampleRate → v.bracketed = false := by
              rintro rfl
              exact absurd (hk ▸ List.mem_map.2 ⟨_, hu, rfl⟩) (List.nodup_cons.1 hnodup).1
            have hsetting := settingFrom_gives hvalue (hopen t (hk ▸ List.mem_cons_self)) hother
            rw [entriesFrom_setting hanother hkey hname hnew hcolon hsetting]
            exact ih hrest hrestNodup (hunseen.step hk hnodup) (hopen.step hk hnormal v.normal)
              ⟨u, hu, hb⟩ m

end Run

section Whole

variable {es : List (String × Value)} {text : String}

theorem startingAt_object (hhead : c.skipBlanks.rest.head? = some '{') :
    (startingAt c).value =
      close (entriesFrom (c.skipBlanks.rest.length + 1) true [] empty c.skipBlanks.tail).value
        closeObject := by
  have hpeek : peekToken c = .done (some '{') c.skipBlanks := by
    unfold peekToken
    dsimp only
    rw [hhead]
  unfold startingAt
  rw [hpeek]
  rfl

theorem wholeText_close_failed (fault : Fault) (left : Cursor) (bracket : Reader Unit) :
    ∃ fault' : Fault, wholeText (close (.failed fault left : Outcome Layer) bracket) = .error fault' := by
  unfold close
  dsimp only
  cases bracket left with
  | done _ left => exact ⟨_, rfl⟩
  | failed _ left => exact ⟨_, rfl⟩

theorem wholeText_close_done (hclose : Gives closeObject c () d) (hend : d.skipBlanks.rest = []) :
    wholeText (close (.done l c) closeObject) = .ok l := by
  have hatEnd : atEnd d = .done () d.skipBlanks := gives_atEnd.2 ⟨hend, rfl⟩
  unfold Gives at hclose
  unfold close
  dsimp only
  rw [hclose]
  unfold wholeText
  dsimp only
  rw [hatEnd]

theorem entries_of_object (h : Gives (value n depth) c (.object es) d) :
    ∃ e n, c.skipBlanks.rest.head? = some '{' ∧
      Gives (entries n (depth - 1) true) c.skipBlanks.tail es e ∧ Gives closeObject e () d := by
  cases n with
  | zero => exact absurd h not_gives_fail
  | succ n =>
    cases gives_value.1 h with
    | object hhead _ hentries hclose => exact ⟨_, n, hhead, hentries, hclose⟩

theorem ofText_of_written (hwritten : Value.written text = .ok (.object es))
    (hdistinct : (es.map Prod.fst).Nodup) (hplain : ¬RateBracketed es) :
    ∃ l, (ofText text).value = .ok l ∧ ∀ s, l.get s = toldBy s (Value.normalEntries es) := by
  obtain ⟨d, hread, hend⟩ := run_eq_ok_iff.1 hwritten
  obtain ⟨e, n, hhead, hentries, hclose⟩ := entries_of_object hread
  have hstart : (ofText text).value = wholeText (close _ closeObject) :=
    congrArg wholeText (startingAt_object hhead)
  have hlength := length_tail hhead
  obtain ⟨l, hrun, htold⟩ := entriesFrom_gives n hentries hdistinct (unseen_nil es) (open_empty _)
    hplain ((Cursor.skipBlanks (.ofText text)).rest.length + 1) (by omega)
  refine ⟨l, ?_, fun s => ?_⟩
  · rw [hstart, hrun]
    exact wholeText_close_done hclose hend
  · rw [htold, get_empty, Option.or_none]

/-- A text of an object with distinct keys. Read as a value first, the layer says about each setting
what the entry with its name says alone. Read directly, the layer is the same, unless the sample rate is
an array or an object; then reading the text fails. -/
theorem direct_reading_agrees (hwritten : Value.written text = .ok (.object es))
    (hdistinct : (es.map Prod.fst).Nodup) :
    ∃ v l, Value.ofText text = .ok v ∧ (ofValue v).value = .ok l ∧
      (∀ s, l.get s = toldBy s (Value.normalEntries es)) ∧
      ((ofText text).value = .ok l ↔ ¬RateBracketed es) ∧
      (RateBracketed es → ∃ fault, (ofText text).value = .error fault) := by
  obtain ⟨d, hread, -⟩ := run_eq_ok_iff.1 hwritten
  obtain ⟨l, hvalue, htold⟩ := get_ofValue hdistinct
  obtain ⟨e, n, hhead, hentries, -⟩ := entries_of_object hread
  have hstart : (ofText text).value = wholeText (close _ closeObject) :=
    congrArg wholeText (startingAt_object hhead)
  have hfails : RateBracketed es → ∃ fault, (ofText text).value = .error fault := by
    intro hrate
    obtain ⟨fault, left, hstuck⟩ := entriesFrom_stuck n hentries hdistinct (unseen_nil es) (open_empty _)
      hrate ((Cursor.skipBlanks (.ofText text)).rest.length + 1)
    rw [hstart, hstuck]
    exact wholeText_close_failed fault left closeObject
  have hagrees : ¬RateBracketed es → (ofText text).value = .ok l := by
    intro hplain
    obtain ⟨l', hdirect, htold'⟩ := ofText_of_written hwritten hdistinct hplain
    have hsame : l' = l := by
      apply ext_get
      intro s
      rw [htold', htold]
    rw [hdirect, hsame]
  refine ⟨_, l, Value.ofText_of_written hwritten, hvalue, htold, ⟨fun hok hrate => ?_, hagrees⟩, hfails⟩
  obtain ⟨fault, herror⟩ := hfails hrate
  rw [hok] at herror
  cases herror

theorem direct_reading_agrees_beside_array : ∃ l,
    (ofText "\x7b\"sample_rate\":99,\"tags\":[true],\"application_name\":\"x\"\x7d").value = .ok l ∧
      l.sampleRate = some 99 ∧ l.tags = none ∧ l.applicationName = some "x" := by
  obtain ⟨v, l, -, -, htold, hagrees, -⟩ := @direct_reading_agrees
    [("sample_rate", .number (.whole 99 (by decide))), ("tags", .array [.bool true]),
      ("application_name", .string "x")]
    "\x7b\"sample_rate\":99,\"tags\":[true],\"application_name\":\"x\"\x7d" rfl (by decide)
  refine ⟨l, hagrees.2 ?_, htold .sampleRate, htold .tags, htold .applicationName⟩
  rintro ⟨v, hv, hbracket⟩
  simp only [Setting.name, List.mem_cons, Prod.mk.injEq, List.not_mem_nil, or_false] at hv
  rcases hv with ⟨-, rfl⟩ | ⟨hname, -⟩ | ⟨hname, -⟩
  · cases hbracket
  · exact absurd hname (by decide)
  · exact absurd hname (by decide)

/-- An array for the sample rate: read as a value first, the layer has its application name, and read
directly there is no layer at all. -/
theorem bracketed_rate_discards_layer :
    (∃ v, Value.ofText "\x7b\"sample_rate\":[1],\"application_name\":\"x\"\x7d" = .ok v ∧
      (ofValue v).value = .ok { applicationName := some "x" }) ∧
    (ofText "\x7b\"sample_rate\":[1],\"application_name\":\"x\"\x7d").value =
      .error ⟨.objectCommaOrEnd, some ⟨1, 16⟩⟩ := by
  let items : Value := .array [.number (.whole 1 (by decide))]
  have hwritten : Value.written "\x7b\"sample_rate\":[1],\"application_name\":\"x\"\x7d" =
      .ok (.object [("sample_rate", items), ("application_name", .string "x")]) := rfl
  have hlt : "application_name" < "sample_rate" := by decide
  have hnormal : (Value.object [("sample_rate", items), ("application_name", .string "x")]).normal =
      .object [("application_name", .string "x"), ("sample_rate", items)] := by
    simp only [items, Value.normal, Value.normalEntries, Value.normalItems, Dict.ofList, Dict.insert,
      Dict.empty, insertEntry, List.foldl_cons, List.foldl_nil, if_pos hlt]
  exact ⟨⟨_, hnormal ▸ Value.ofText_of_written hwritten, rfl⟩, rfl⟩

end Whole

end Layer
end ProfilingAgent

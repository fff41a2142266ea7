import Mathlib.Data.Finset.Max
import ProfilingAgent.Proofs.Dictionaries
import ProfilingAgent.Proofs.TagForms

set_option autoImplicit false

namespace ProfilingAgent

open Json Json.Reader

namespace Json

variable {text : List Char} {c d e : Cursor}

/-- Between a place of a text and the last comma before it there is no equals sign. -/
def Fresh (text : List Char) (c : Cursor) : Prop :=
  ∃ before, text = before ++ c.rest ∧ '=' ∉ before.reverse.takeWhile (· ≠ ',')

theorem mem_of_mem_takeWhile_append {α : Type} {p : α → Bool} {x : α} {as bs : List α}
    (h : x ∈ (as ++ bs).takeWhile p) : x ∈ as ∨ x ∈ bs.takeWhile p := by
  rw [List.takeWhile_append] at h
  split at h
  · exact List.mem_append.1 h
  · exact .inl ((List.takeWhile_prefix p).subset h)

namespace Fresh

theorem start : Fresh c.rest c := ⟨[], rfl, by simp⟩

theorem within (h : Fresh text c) : c.rest <:+ text := by
  obtain ⟨before, heq, -⟩ := h
  exact ⟨before, heq.symm⟩

theorem move (middle : List Char) (h : Fresh text c) (hrest : c.rest = middle ++ d.rest)
    (hmiddle : '=' ∉ middle) : Fresh text d := by
  obtain ⟨before, heq, hbefore⟩ := h
  refine ⟨before ++ middle, by rw [heq, hrest, List.append_assoc], fun hmem => ?_⟩
  rw [List.reverse_append] at hmem
  rcases mem_of_mem_takeWhile_append hmem with hmem | hmem
  · exact hmiddle (List.mem_reverse.1 hmem)
  · exact hbefore hmem

theorem skipBlanks (h : Fresh text c) : Fresh text c.skipBlanks := by
  refine h.move (c.rest.takeWhile Cursor.isBlank) List.takeWhile_append_dropWhile.symm ?_
  intro hmem
  have hblank := List.mem_takeWhile_imp hmem
  cases hblank

theorem tail {ch : Char} (h : Fresh text c) (hhead : c.rest.head? = some ch) (hch : ch ≠ '=') :
    Fresh text c.tail :=
  h.move [ch] (rest_eq_cons hhead) (by simpa using Ne.symm hch)

theorem comma (h : c.rest <:+ text) (hhead : c.rest.head? = some ',') : Fresh text c.tail := by
  obtain ⟨before, heq⟩ := h
  refine ⟨before ++ [','], ?_, ?_⟩
  · rw [← heq, rest_eq_cons hhead, List.append_assoc]
    rfl
  · rw [List.reverse_append]
    simp

end Fresh

namespace Reader

theorem ItemAt.fresh {first : Bool} (h : ItemAt c first true d) (hin : c.rest <:+ text)
    (hfirst : first = true → Fresh text c) : Fresh text d := by
  cases h with
  | first hhead hch => exact (hfirst rfl).skipBlanks
  | later hcomma hhead hch =>
    exact (Fresh.comma ((forward_skipBlanks c).trans hin) hcomma).skipBlanks

theorem KeyAt.fresh {first : Bool} (h : KeyAt c first true d) (hin : c.rest <:+ text)
    (hfirst : first = true → Fresh text c) : Fresh text d := by
  cases h with
  | first hhead => exact (hfirst rfl).skipBlanks
  | later hcomma hhead => exact (Fresh.comma ((forward_skipBlanks c).trans hin) hcomma).skipBlanks

theorem items_fresh {n depth : Nat} {first : Bool} {vs : List Value}
    (h : Gives (items n depth first) c vs e) (hin : c.rest <:+ text)
    (hfirst : first = true → Fresh text c) :
    ∀ v ∈ vs, ∃ m c' d', Fresh text c' ∧ Gives (value m depth) c' v d' := by
  induction n generalizing first c vs with
  | zero => exact absurd h not_gives_fail
  | succ n ih =>
    cases gives_items.1 h with
    | nil _ => nofun
    | cons hitem hvalue hrest =>
      have hitem' := (Forward.anotherItem _) _ _ _ (gives_anotherItem.2 hitem)
      have hvalue' := (forward_all n).1 depth _ _ _ hvalue
      intro v hv
      rcases List.mem_cons.1 hv with rfl | hv
      · exact ⟨n, _, _, hitem.fresh hin hfirst, hvalue⟩
      · exact ih hrest (hvalue'.trans (hitem'.trans hin)) nofun v hv

theorem entries_fresh {n depth : Nat} {first : Bool} {es : List (String × Value)}
    (h : Gives (entries n depth first) c es e) (hin : c.rest <:+ text)
    (hfirst : first = true → Fresh text c) :
    ∀ k v, (k, v) ∈ es → ∃ m c' d' e' f', (Fresh text c' ∧ c'.rest.head? = some '"') ∧
      Gives key c' k d' ∧ Gives colon d' () e' ∧ Gives (value m depth) e' v f' := by
  induction n generalizing first c es with
  | zero => exact absurd h not_gives_fail
  | succ n ih =>
    cases gives_entries.1 h with
    | nil _ => nofun
    | cons hanother hkey hcolon hvalue hrest =>
      have hanother' := (Forward.anotherKey _) _ _ _ (gives_anotherKey.2 hanother)
      have hkey' := Forward.key _ _ _ hkey
      have hcolon' := Forward.colon _ _ _ hcolon
      have hvalue' := (forward_all n).1 depth _ _ _ hvalue
      intro k v hv
      rcases List.mem_cons.1 hv with heq | hv
      · cases heq
        exact ⟨n, _, _, _, _, ⟨hanother.fresh hin hfirst, hanother.quote⟩, hkey, hcolon, hvalue⟩
      · exact ih hrest (hvalue'.trans (hcolon'.trans (hkey'.trans (hanother'.trans hin)))) nofun k v hv

theorem hexValue_plain {ch : Char} {n : Nat} (h : Text.hexValue ch = some n) : ch ≠ ',' ∧ ch ≠ '=' := by
  constructor
  all_goals
    rintro rfl
    revert h
    rw [show Text.hexValue _ = none by decide]
    nofun

theorem simpleEscape_plain {ch : Char} {a : Char} (h : simpleEscape ch = some a) :
    ch ≠ ',' ∧ ch ≠ '=' := by
  constructor
  all_goals
    rintro rfl
    cases h

def Plainly (c d : Cursor) : Prop :=
  ∃ lit, c.rest = lit ++ d.rest ∧ lit ≠ [] ∧ ',' ∉ lit ∧ '=' ∉ lit

theorem Plainly.trans (hcd : Plainly c d) (hde : Plainly d e) : Plainly c e := by
  obtain ⟨lit, hrest, hne, hcomma, hequals⟩ := hcd
  obtain ⟨lit', hrest', -, hcomma', hequals'⟩ := hde
  refine ⟨lit ++ lit', by rw [hrest, hrest', List.append_assoc], by simp [hne], ?_, ?_⟩
  · simp [hcomma, hcomma']
  · simp [hequals, hequals']

theorem Plainly.tail {ch : Char} (hhead : c.rest.head? = some ch) (hch : ch ≠ ',' ∧ ch ≠ '=') :
    Plainly c c.tail :=
  ⟨[ch], rest_eq_cons hhead, List.cons_ne_nil _ _, by simpa using Ne.symm hch.1,
    by simpa using Ne.symm hch.2⟩

theorem hexDigits_plainly {n : Nat} (h : Gives hexDigits c n d) : Plainly c d := by
  unfold Gives hexDigits at h
  split at h
  · rename_i a b x y rest heq
    split at h
    · rename_i ha hb hx hy
      obtain ⟨-, rfl⟩ := Outcome.done.inj h
      refine ⟨[a, b, x, y], heq, List.cons_ne_nil _ _, ?_, ?_⟩
      · simp [Ne.symm (hexValue_plain ha).1, Ne.symm (hexValue_plain hb).1,
          Ne.symm (hexValue_plain hx).1, Ne.symm (hexValue_plain hy).1]
      · simp [Ne.symm (hexValue_plain ha).2, Ne.symm (hexValue_plain hb).2,
          Ne.symm (hexValue_plain hx).2, Ne.symm (hexValue_plain hy).2]
    · unfold hexDigits.wrong at h
      split at h <;> cases h
  · unfold hexDigits.wrong at h
    split at h <;> cases h

theorem escape_plainly {ch : Char} (h : Gives escape c ch d) : Plainly c d := by
  cases escapeAt_of_gives h with
  | letter hhead _ hsimple => exact .tail hhead (simpleEscape_plain hsimple)
  | number hhead hnumber => exact (Plainly.tail hhead (by decide)).trans (hexDigits_plainly hnumber)
  | pair hhead hnumber hslash hletter hsecond =>
    have hfirst := (Plainly.tail hhead (by decide)).trans (hexDigits_plainly hnumber)
    have hbetween := (Plainly.tail hslash (by decide)).trans (Plainly.tail hletter (by decide))
    exact (hfirst.trans hbetween).trans (hexDigits_plainly hsecond)

/-- What stands before the closing quote is not shorter than what it is read as, and its delimiters
stand for themselves. -/
def Literal (lit k : List Char) : Prop :=
  k.length ≤ lit.length ∧ (',' ∈ lit → ',' ∈ k) ∧ ('=' ∈ lit → '=' ∈ k)

theorem Literal.escape {lit k escaped : List Char} (h : Literal lit k) (ch : Char)
    (hne : escaped ≠ []) (hcomma : ',' ∉ escaped) (hequals : '=' ∉ escaped) :
    Literal (escaped ++ lit) (ch :: k) := by
  obtain ⟨hlength, hcomma', hequals'⟩ := h
  have hpositive := List.length_pos_of_ne_nil hne
  refine ⟨?_, fun hmem => ?_, fun hmem => ?_⟩
  · rw [List.length_append, List.length_cons]
    omega
  · exact List.mem_cons_of_mem ch (hcomma' ((List.mem_append.1 hmem).resolve_left hcomma))
  · exact List.mem_cons_of_mem ch (hequals' ((List.mem_append.1 hmem).resolve_left hequals))

theorem Literal.cons {lit k : List Char} (h : Literal lit k) (ch : Char) :
    Literal (ch :: lit) (ch :: k) := by
  obtain ⟨hlength, hcomma, hequals⟩ := h
  refine ⟨Nat.succ_le_succ hlength, fun hmem => ?_, fun hmem => ?_⟩
  · exact (List.mem_cons.1 hmem).elim (fun heq => heq ▸ List.mem_cons_self)
      fun hmem => List.mem_cons_of_mem ch (hcomma hmem)
  · exact (List.mem_cons.1 hmem).elim (fun heq => heq ▸ List.mem_cons_self)
      fun hmem => List.mem_cons_of_mem ch (hequals hmem)

theorem stringBody_literal {fuel before cs : List Char} (h : Gives (stringBody fuel before) c cs d) :
    ∃ lit k, c.rest = lit ++ '"' :: d.rest ∧ cs = k.reverse ++ before ∧ Literal lit k := by
  induction fuel generalizing before c with
  | nil => exact absurd h not_gives_fail
  | cons _ fuel ih =>
    unfold stringBody at h
    rw [gives_peek] at h
    split at h
    · exact absurd h not_gives_fail
    · rename_i hhead
      rw [gives_advance] at h
      obtain ⟨rfl, rfl⟩ := gives_pure.1 h
      exact ⟨[], [], rest_eq_cons hhead, rfl, Nat.le_refl _, nofun, nofun⟩
    · rename_i hhead
      obtain ⟨ch, e, hescape, h⟩ := gives_bind.1 (gives_advance.1 h)
      obtain ⟨lit, k, hrest, rfl, hliteral⟩ := ih h
      obtain ⟨escaped, hbefore, hne, hcomma, hequals⟩ :=
        (Plainly.tail hhead (by decide)).trans (escape_plainly hescape)
      exact ⟨escaped ++ lit, ch :: k, by rw [hbefore, hrest, List.append_assoc], by simp,
        hliteral.escape ch hne hcomma hequals⟩
    · rename_i ch _ _ hhead
      split at h
      · exact absurd h not_gives_failAfter
      · obtain ⟨lit, k, hrest, rfl, hliteral⟩ := ih (gives_advance.1 h)
        exact ⟨ch :: lit, ch :: k, by rw [rest_eq_cons hhead, hrest, List.cons_append], by simp,
          hliteral.cons ch⟩

theorem string_literal {s : String} (h : Gives string c s d) :
    ∃ lit, c.rest = lit ++ '"' :: d.rest ∧ Literal lit s.toList := by
  obtain ⟨cs, hbody, rfl⟩ := gives_bind_pure.1 h
  obtain ⟨lit, k, hrest, rfl, hliteral⟩ := stringBody_literal hbody
  refine ⟨lit, hrest, ?_⟩
  rw [List.append_nil, List.reverse_reverse, String.toList_ofList]
  exact hliteral

end Reader

def Quoted (text word : List Char) : Prop :=
  ∃ before lit after, text = before ++ (('"' :: lit ++ ['"']) ++ after) ∧
    '=' ∉ before.reverse.takeWhile (· ≠ ',') ∧ word.length ≤ lit.length ∧ ',' ∉ lit ∧ '=' ∉ lit

section Places

variable {s : String} {n depth : Nat}

theorem Fresh.quoted (hfresh : Fresh text c) (hhead : c.rest.head? = some '"')
    (h : Gives string c.tail s d) (hcomma : ',' ∉ s.toList) (hequals : '=' ∉ s.toList) :
    Quoted text s.toList := by
  obtain ⟨before, heq, hbefore⟩ := hfresh
  obtain ⟨lit, hrest, hlength, hlitComma, hlitEquals⟩ := string_literal h
  refine ⟨before, lit, d.rest, ?_, hbefore, hlength, mt hlitComma hcomma, mt hlitEquals hequals⟩
  rw [heq, rest_eq_cons hhead, hrest]
  simp

theorem Fresh.key (hfresh : Fresh text c) (hhead : c.rest.head? = some '"') (h : Gives key c s d)
    (hequals : '=' ∉ s.toList) : Fresh text d := by
  obtain ⟨lit, hrest, -, -, hlitEquals⟩ := string_literal (gives_advance.1 h)
  refine hfresh.move ('"' :: lit ++ ['"']) ?_ ?_
  · rw [rest_eq_cons hhead, hrest]
    simp
  · simp [mt hlitEquals hequals]

theorem Fresh.colon (hfresh : Fresh text c) (h : Gives colon c () d) : Fresh text d := by
  obtain ⟨hhead, rfl⟩ := gives_colon.1 h
  exact hfresh.skipBlanks.tail hhead (by decide)

theorem Fresh.quotedValue (hfresh : Fresh text c) (h : Gives (value n depth) c (.string s) d)
    (hcomma : ',' ∉ s.toList) (hequals : '=' ∉ s.toList) : Quoted text s.toList := by
  cases n with
  | zero => exact absurd h not_gives_fail
  | succ n =>
    cases gives_value.1 h with
    | string hhead hstring => exact hfresh.skipBlanks.quoted hhead hstring hcomma hequals

end Places

namespace Quoted

variable {word x rest : List Char}

theorem not_nil : ¬Quoted [] word := by
  rintro ⟨before, lit, after, heq, -⟩
  simp at heq

theorem cut (h : Quoted (x ++ ',' :: rest) word) : Quoted x word ∨ Quoted rest word := by
  obtain ⟨before, lit, after, heq, hbefore, hlength, hcomma, hequals⟩ := h
  rcases List.append_eq_append_iff.1 heq with ⟨past, hpast, hrest⟩ | ⟨here, hhere, hrest⟩
  · cases past with
    | nil => simp at hrest
    | cons ch past =>
      obtain ⟨rfl, htail⟩ := List.cons.inj hrest
      refine .inr ⟨past, lit, after, htail, fun hmem => hbefore ?_, hlength, hcomma, hequals⟩
      rw [hpast, List.reverse_append, List.reverse_cons, List.append_assoc, List.takeWhile_append]
      split
      · exact List.mem_append_left _ ((List.takeWhile_prefix _).subset hmem)
      · exact hmem
  · rcases List.append_eq_append_iff.1 hrest with ⟨left, hleft, -⟩ | ⟨left, hleft, hafter⟩
    · exact .inl ⟨before, lit, left, by rw [hhere, hleft], hbefore, hlength, hcomma, hequals⟩
    · cases left with
      | nil =>
        rw [List.append_nil] at hleft
        exact .inl ⟨before, lit, [], by rw [hhere, List.append_nil, hleft], hbefore, hlength, hcomma,
          hequals⟩
      | cons ch left =>
        obtain ⟨rfl, -⟩ := List.cons.inj hafter
        have hmem : ',' ∈ '"' :: lit ++ ['"'] := hleft ▸ List.mem_append_right _ List.mem_cons_self
        simp [hcomma] at hmem

end Quoted

end Json

namespace Tag.Structured

variable {text : List Char} {c d : Cursor} {t : Tag}

theorem mem_of_onlyText? {key s : String} {es : List (String × Value)}
    (h : onlyText? key es = some s) : (key, .string s) ∈ es := by
  unfold onlyText? at h
  split at h
  · rename_i k s' heq
    obtain rfl := Option.some.inj h
    have hmem : (k, Value.string s') ∈ es.filter (·.1 == key) := heq ▸ List.mem_singleton_self _
    obtain ⟨hes, hkey⟩ := List.mem_filter.1 hmem
    rw [beq_iff_eq] at hkey
    exact hkey ▸ hes
  · cases h

theorem exists_of_mem_mapM {α β : Type} {f : α → Option β} {as : List α} {bs : List β} {b : β}
    (h : as.mapM f = some bs) (hb : b ∈ bs) : ∃ a ∈ as, f a = some b := by
  induction as generalizing bs with
  | nil =>
    obtain rfl := Option.some.inj h
    cases hb
  | cons a as ih =>
    rw [List.mapM_cons] at h
    obtain ⟨b', hfirst, h⟩ := Option.bind_eq_some_iff.1 h
    obtain ⟨bs', hrest, h⟩ := Option.bind_eq_some_iff.1 h
    obtain rfl := Option.some.inj h
    rcases List.mem_cons.1 hb with rfl | hb
    · exact ⟨a, List.mem_cons_self, hfirst⟩
    · obtain ⟨a', ha', hf⟩ := ih hrest hb
      exact ⟨a', List.mem_cons_of_mem a ha', hf⟩

theorem quoted_key_of_value {n depth : Nat} {v : Value} (hfresh : Fresh text c)
    (h : Gives (Reader.value n depth) c v d) (ht : ofValue? v = some t) (hcomma : ',' ∉ t.key.toList)
    (hequals : '=' ∉ t.key.toList) : Quoted text t.key.toList := by
  cases n with
  | zero => exact absurd h not_gives_fail
  | succ n =>
    have hblanks := hfresh.skipBlanks
    cases gives_value.1 h with
    | null _ _ => cases ht
    | yes _ _ => cases ht
    | no _ _ => cases ht
    | negative _ _ => cases ht
    | natural _ _ _ => cases ht
    | string _ _ => cases ht
    | array hhead hdepth hitems hclose =>
      have hstart := hblanks.tail hhead (by decide)
      unfold ofValue? at ht
      split at ht
      · rename_i heq
        cases heq
      · rename_i key value heq
        obtain rfl := Option.some.inj ht
        cases heq
        obtain ⟨m, c', d', hplace, hkey⟩ := items_fresh hitems hstart.within (fun _ => hstart)
          (.string key) List.mem_cons_self
        exact hplace.quotedValue hkey hcomma hequals
      · cases ht
    | object hhead hdepth hentries hclose =>
      have hstart := hblanks.tail hhead (by decide)
      obtain ⟨key, honly, ht⟩ := Option.bind_eq_some_iff.1 ht
      obtain ⟨value, -, ht⟩ := Option.bind_eq_some_iff.1 ht
      obtain rfl := Option.some.inj ht
      obtain ⟨m, c', d', e', f', ⟨hplace, hquote⟩, hname, hcolon, hkey⟩ :=
        entries_fresh hentries hstart.within (fun _ => hstart) _ _ (mem_of_onlyText? honly)
      exact ((hplace.key hquote hname (by decide)).colon hcolon).quotedValue hkey hcomma hequals

theorem mem_of_textEntries {es : List (String × Value)} {pairs : List (String × String)}
    (h : es.mapM textEntry? = some pairs) {e : String × String} (he : e ∈ (Dict.ofList pairs).entries) :
    ∃ v, (e.1, v) ∈ es := by
  have hget := (Dict.get?_eq_some_iff _).2 he
  rw [Dict.get?_ofList] at hget
  obtain ⟨pair, hfind, -⟩ := Option.map_eq_some_iff.1 hget
  have hkey : pair.1 = e.1 := by simpa using List.find?_some hfind
  obtain ⟨⟨key, v⟩, hmem, hentry⟩ := exists_of_mem_mapM h
    (List.mem_reverse.1 (List.mem_of_find?_eq_some hfind))
  unfold textEntry? at hentry
  split at hentry
  · rename_i key' s heq
    cases heq
    obtain rfl := Option.some.inj hentry
    dsimp only at hkey
    exact ⟨_, hkey ▸ hmem⟩
  · cases hentry

theorem quoted_key_of_written {n depth : Nat} {v : Value} {ts : List Tag}
    (h : Gives (Reader.value n depth) c v d) (hall : allOfValue? v = some ts) (ht : t ∈ ts)
    (hcomma : ',' ∉ t.key.toList) (hequals : '=' ∉ t.key.toList) : Quoted c.rest t.key.toList := by
  cases n with
  | zero => exact absurd h not_gives_fail
  | succ n =>
    have hblanks := Fresh.start (c := c).skipBlanks
    cases gives_value.1 h with
    | null _ _ => cases hall
    | yes _ _ => cases hall
    | no _ _ => cases hall
    | negative _ _ => cases hall
    | natural _ _ _ => cases hall
    | string _ _ => cases hall
    | array hhead hdepth hitems hclose =>
      have hstart := hblanks.tail hhead (by decide)
      obtain ⟨v, hv, htag⟩ := exists_of_mem_mapM hall ht
      obtain ⟨m, c', d', hplace, hvalue⟩ := items_fresh hitems hstart.within (fun _ => hstart) v hv
      exact quoted_key_of_value hplace hvalue htag hcomma hequals
    | object hhead hdepth hentries hclose =>
      have hstart := hblanks.tail hhead (by decide)
      obtain ⟨pairs, hpairs, rfl⟩ := Option.map_eq_some_iff.1 hall
      obtain ⟨entry, hentry, rfl⟩ := List.mem_map.1 ht
      obtain ⟨v, hv⟩ := mem_of_textEntries hpairs hentry
      obtain ⟨m, c', d', -, -, ⟨hplace, hquote⟩, hkey, -⟩ :=
        entries_fresh hentries hstart.within (fun _ => hstart) _ _ hv
      exact hplace.quoted hquote (gives_advance.1 hkey) hcomma hequals

theorem gives_tags {ts : List Tag} (h : Gives tags c ts d) :
    ∃ v, Gives (writtenValue depthLimit) c v d ∧ allOfValue? v = some ts := by
  obtain ⟨v, e, hwritten, hall⟩ := gives_bind.1 h
  split at hall
  · rename_i hsome
    obtain ⟨rfl, rfl⟩ := gives_pure.1 hall
    exact ⟨v, hwritten, hsome⟩
  · cases hall

theorem run_of_read {s : String} {ts : List Tag} (h : read s = .ok ts) :
    ts = [] ∨ tags.run s = .ok ts := by
  unfold read at h
  split at h
  · exact .inl (Except.ok.inj h).symm
  · split at h
    · cases h
    · rename_i hrun
      split at h
      · exact .inr (Except.ok.inj h ▸ hrun)
      · cases h

theorem quoted_key {s : String} {ts : List Tag} (h : read s = .ok ts) (ht : t ∈ ts)
    (hcomma : ',' ∉ t.key.toList) (hequals : '=' ∉ t.key.toList) : Quoted s.toList t.key.toList := by
  rcases run_of_read h with rfl | hrun
  · cases ht
  · obtain ⟨d, hgives, -⟩ := run_eq_ok_iff.1 hrun
    obtain ⟨v, hwritten, hall⟩ := gives_tags hgives
    exact quoted_key_of_written hwritten hall ht hcomma hequals

end Tag.Structured

namespace Tag.Delimited

variable {word : List Char} {t : Tag} {tags : List Tag}

theorem Plain.longer_key (h : Plain t) (hquoted : Quoted t.text.toList word) :
    word.length < t.key.toList.length := by
  obtain ⟨before, lit, after, heq, hbefore, hlength, hcomma, hequals⟩ := hquoted
  have hall : '=' ∉ before := by
    rw [List.takeWhile_eq_self_iff.2, List.mem_reverse] at hbefore
    · exact hbefore
    · intro ch hch
      have hmem : ch ∈ t.text.toList := heq ▸ List.mem_append_left _ (List.mem_reverse.1 hch)
      have hne : ch ≠ ',' := fun hch => h.text_comma (hch ▸ hmem)
      simpa using hne
  rw [toList_text, ← List.append_assoc] at heq
  rcases List.append_eq_append_iff.1 heq with ⟨past, hpast, hrest⟩ | ⟨left, hleft, -⟩
  · cases past with
    | nil =>
      rw [List.append_nil] at hpast
      simp [← hpast]
      omega
    | cons ch past =>
      obtain ⟨rfl, -⟩ := List.cons.inj hrest
      have hmem : '=' ∈ before ++ ('"' :: lit ++ ['"']) := hpast ▸ by simp
      simp [hall, hequals] at hmem
  · rw [hleft]
    simp
    omega

theorem longer_key (h : ∀ t ∈ tags, Plain t) (hquoted : Quoted (joined tags).toList word) :
    ∃ t ∈ tags, word.length < t.key.toList.length := by
  induction tags with
  | nil => exact absurd hquoted Quoted.not_nil
  | cons t rest ih =>
    have ht := h t List.mem_cons_self
    by_cases hrest : rest = []
    · subst hrest
      exact ⟨t, List.mem_cons_self, ht.longer_key hquoted⟩
    · rw [joined_cons t hrest] at hquoted
      rcases hquoted.cut with hquoted | hquoted
      · exact ⟨t, List.mem_cons_self, ht.longer_key hquoted⟩
      · obtain ⟨u, hu, hlonger⟩ := ih (fun u hu => h u (List.mem_cons_of_mem t hu)) hquoted
        exact ⟨u, List.mem_cons_of_mem t hu, hlonger⟩

/-- Read as structured text, the delimited form of some tags loses one of their keys: the longest. -/
theorem structured_loses_key {ts : List Tag} (h : ∀ t ∈ tags, Plain t) (hne : tags ≠ [])
    (hread : Structured.read (joined tags) = .ok ts) : ∃ t ∈ tags, ∀ u ∈ ts, u.key ≠ t.key := by
  obtain ⟨t, ht, hlongest⟩ := Finset.exists_max_image tags.toFinset (·.key.toList.length)
    (List.toFinset_nonempty_iff tags |>.2 hne)
  rw [List.mem_toFinset] at ht
  refine ⟨t, ht, fun u hu heq => ?_⟩
  have hquoted := Structured.quoted_key hread hu (heq ▸ (h t ht).key_comma) (heq ▸ (h t ht).key_equals)
  obtain ⟨longer, hmem, hlonger⟩ := longer_key h hquoted
  have hle := hlongest longer (List.mem_toFinset.2 hmem)
  rw [heq] at hlonger
  exact Nat.not_lt.2 hle hlonger

end Tag.Delimited
end ProfilingAgent

import Mathlib.Data.List.Forall2
import Mathlib.Tactic.SplitIfs
import ProfilingAgent.Proofs.WrittenNumbers

set_option autoImplicit false

namespace ProfilingAgent.Json

open Reader

namespace Reader

variable {α β : Type}

/-- The reader takes these characters, whatever follows them, and gives this result. -/
def Reads (r : Reader α) (cs : List Char) (a : α) : Prop :=
  ∀ rest p, ∃ q, Gives r ⟨cs ++ rest, p⟩ a ⟨rest, q⟩

namespace Reads

variable {r : Reader α} {f : α → Reader β} {a : α} {b : β} {cs ds : List Char} {ch : Char}

theorem pure (a : α) : Reads (pure a) [] a := fun _ p => ⟨p, gives_pure.2 ⟨rfl, rfl⟩⟩

theorem bind (hr : Reads r cs a) (hf : Reads (f a) ds b) : Reads (r >>= f) (cs ++ ds) b := by
  intro rest p
  obtain ⟨q, hfirst⟩ := hr (ds ++ rest) p
  obtain ⟨q', hsecond⟩ := hf rest q
  rw [List.append_assoc]
  exact ⟨q', gives_bind.2 ⟨a, _, hfirst, hsecond⟩⟩

theorem bind_nil (hr : Reads r cs a) (hf : Reads (f a) [] b) : Reads (r >>= f) cs b := by
  have hread := hr.bind hf
  rwa [List.append_nil] at hread

theorem bind_pure {f : α → β} (hr : Reads r cs a) : Reads (r >>= fun a => Pure.pure (f a)) cs (f a) :=
  hr.bind_nil (pure (f a))

theorem advance {r : Reader β} (hr : Reads r cs b) :
    Reads (Reader.advance >>= fun _ => r) (ch :: cs) b := fun rest p => hr rest (p.after ch)

theorem peek {f : Option Char → Reader β} (hf : Reads (f (some ch)) (ch :: cs) b) :
    Reads (Reader.peek >>= f) (ch :: cs) b := hf

theorem word (cs : List Char) : Reads (Reader.word cs) cs () := by
  induction cs with
  | nil => exact .pure ()
  | cons ch cs ih =>
    refine .peek ?_
    dsimp only
    rw [if_pos rfl]
    exact .advance ih

theorem hexPadded_values : ∀ n < 32, (Text.hexPadded 4 n).map Text.hexValue =
    [some 0, some 0, some (n / 16), some (n % 16)] := by decide +kernel

theorem hexDigits {n : Nat} (hn : n < 32) : Reads Reader.hexDigits (Text.hexPadded 4 n) n := by
  have hvalues := hexPadded_values n hn
  generalize Text.hexPadded 4 n = cs at hvalues
  obtain ⟨a, cs, rfl, ha, hvalues⟩ := List.map_eq_cons_iff.1 hvalues
  obtain ⟨b, cs, rfl, hb, hvalues⟩ := List.map_eq_cons_iff.1 hvalues
  obtain ⟨d, cs, rfl, hd, hvalues⟩ := List.map_eq_cons_iff.1 hvalues
  obtain ⟨e, cs, rfl, he, hvalues⟩ := List.map_eq_cons_iff.1 hvalues
  obtain rfl := List.map_eq_nil_iff.1 hvalues
  intro rest p
  refine ⟨⟨p.line, p.column + 4⟩, ?_⟩
  unfold Gives Reader.hexDigits
  simp only [List.cons_append, List.nil_append, ha, hb, hd, he]
  congr 1
  omega

theorem escape {e c : Char} (hsimple : simpleEscape e = some c) : Reads Reader.escape [e] c := by
  refine .peek ?_
  split
  · contradiction
  · rename_i hu
    cases hu
    cases hsimple
  · rename_i d hne hd
    cases hd
    rw [hsimple]
    exact .advance (.pure c)

theorem hexEscape {n : Nat} (hn : n < 32) :
    Reads Reader.escape ('u' :: Text.hexPadded 4 n) (Char.ofNat n) := by
  refine .peek (.advance ?_)
  have hlow : ¬ (0xDC00 ≤ n && n ≤ 0xDFFF) = true := by simp; omega
  have hhigh : ¬ (0xD800 ≤ n && n ≤ 0xDBFF) = true := by simp; omega
  refine (hexDigits hn).bind_nil ?_
  rw [if_neg hlow, if_neg hhigh]
  exact .pure _

theorem escaped_cases (c : Char) :
    (∃ e, Value.escaped c = ['\\', e] ∧ simpleEscape e = some c) ∨
      (Value.escaped c = '\\' :: 'u' :: Text.hexPadded 4 c.toNat ∧ c.toNat < 0x20) ∨
      (Value.escaped c = [c] ∧ c ≠ '"' ∧ c ≠ '\\' ∧ ¬ c.toNat < 0x20) := by
  unfold Value.escaped
  split_ifs with hquote hbackslash hn hr ht hb hf hcontrol
  · exact .inl ⟨_, rfl, by rw [hquote]; rfl⟩
  · exact .inl ⟨_, rfl, by rw [hbackslash]; rfl⟩
  · exact .inl ⟨_, rfl, by rw [hn]; rfl⟩
  · exact .inl ⟨_, rfl, by rw [hr]; rfl⟩
  · exact .inl ⟨_, rfl, by rw [ht]; rfl⟩
  · exact .inl ⟨_, rfl, by rw [hb]; rfl⟩
  · exact .inl ⟨_, rfl, by rw [hf]; rfl⟩
  · exact .inr (.inl ⟨rfl, hcontrol⟩)
  · exact .inr (.inr ⟨rfl, hquote, hbackslash, hcontrol⟩)

theorem stringBody_step {fuel before cs after : List Char} (c f : Char)
    (h : Reads (Reader.stringBody fuel (c :: before)) cs after) :
    Reads (Reader.stringBody (f :: fuel) before) (Value.escaped c ++ cs) after := by
  have escaped : ∀ {ds : List Char}, Reads Reader.escape ds c →
      Reads (Reader.stringBody (f :: fuel) before) ('\\' :: ds ++ cs) after :=
    fun hread => .peek (.advance (hread.bind h))
  rcases escaped_cases c with ⟨e, heq, hsimple⟩ | ⟨heq, hcontrol⟩ | ⟨heq, hquote, hbackslash, hcontrol⟩
  · rw [heq]
    exact escaped (.escape hsimple)
  · rw [heq]
    have hread := hexEscape hcontrol
    rw [Char.ofNat_toNat] at hread
    exact escaped hread
  · rw [heq]
    refine .peek ?_
    split
    · contradiction
    · rename_i hc
      exact absurd (Option.some.inj hc) hquote
    · rename_i hc
      exact absurd (Option.some.inj hc) hbackslash
    · rename_i hc
      obtain rfl := Option.some.inj hc
      rw [if_neg hcontrol]
      exact .advance h

theorem stringBody (cs : List Char) : ∀ {fuel : List Char} (before : List Char), cs.length < fuel.length →
    Reads (Reader.stringBody fuel before) (cs.flatMap Value.escaped ++ ['"']) (cs.reverse ++ before) := by
  induction cs with
  | nil =>
    intro fuel before hfuel
    cases fuel with
    | nil => cases hfuel
    | cons f fuel => exact .peek (.advance (.pure _))
  | cons c cs ih =>
    intro fuel before hfuel
    cases fuel with
    | nil => cases hfuel
    | cons f fuel =>
      have hrest := @ih fuel (c :: before) (Nat.lt_of_succ_lt_succ hfuel)
      rw [List.flatMap_cons, List.append_assoc, List.reverse_cons, List.append_assoc]
      exact stringBody_step c f hrest

theorem length_flatMap_escaped (cs : List Char) : cs.length ≤ (cs.flatMap Value.escaped).length := by
  induction cs with
  | nil => exact Nat.le_refl _
  | cons c cs ih =>
    have hpos : 1 ≤ (Value.escaped c).length := by
      rcases escaped_cases c with ⟨e, heq, -⟩ | ⟨heq, -⟩ | ⟨heq, -⟩
      all_goals simp [heq]
    simp only [List.flatMap_cons, List.length_append, List.length_cons]
    omega

theorem string (s : String) : Reads Reader.string (s.toList.flatMap Value.escaped ++ ['"']) s := by
  intro rest p
  have hfuel : s.toList.length < (s.toList.flatMap Value.escaped ++ ['"'] ++ rest).length := by
    have := length_flatMap_escaped s.toList
    simp only [List.length_append, List.length_cons, List.length_nil]
    omega
  have hread := (stringBody s.toList [] hfuel).bind_pure (f := fun cs => String.ofList cs.reverse)
  rw [List.append_nil, List.reverse_reverse, String.ofList_toList] at hread
  exact hread rest p

end Reads

/-- A value whose numbers are whole and whose brackets stand less than `depth` deep in each other. -/
inductive Wordy : Nat → Value → Prop
  | null {depth : Nat} : Wordy depth .null
  | bool {depth : Nat} (b : Bool) : Wordy depth (.bool b)
  | whole {depth : Nat} (n : Int) (h : -0x8000000000000000 ≤ n ∧ n < 0x10000000000000000) :
    Wordy depth (.number (.whole n h))
  | string {depth : Nat} (s : String) : Wordy depth (.string s)
  | array {depth : Nat} {vs : List Value} (hdepth : 0 < depth) (h : ∀ v ∈ vs, Wordy depth v) :
    Wordy (depth + 1) (.array vs)
  | object {depth : Nat} {es : List (String × Value)} (hdepth : 0 < depth)
    (h : ∀ e ∈ es, Wordy depth e.2) : Wordy (depth + 1) (.object es)

theorem isBlank_of_isDigit {ch : Char} (h : ch.isDigit = true) : Cursor.isBlank ch = false := by
  unfold Cursor.isBlank
  simp only [Bool.or_eq_false_iff, decide_eq_false_iff_not]
  refine ⟨⟨⟨?_, ?_⟩, ?_⟩, ?_⟩
  all_goals
    rintro rfl
    cases h

def Begins (ch : Char) : Prop := Cursor.isBlank ch = false ∧ ch ≠ ']'

theorem begins_of_isDigit {ch : Char} (h : ch.isDigit = true) : Begins ch := by
  refine ⟨isBlank_of_isDigit h, ?_⟩
  rintro rfl
  cases h

/-- A reader of values with enough fuel takes the characters of one value, and gives another value. -/
structure ReadsAs (depth : Nat) (v u : Value) : Prop where
  begins : ∃ ch cs, v.chars = ch :: cs ∧ Begins ch
  gives : ∀ rest p n, Stops rest → 2 * (v.chars ++ rest).length ≤ n →
    ∃ q, Gives (value n depth) ⟨v.chars ++ rest, p⟩ u ⟨rest, q⟩

theorem readsAs_null (depth : Nat) : ReadsAs depth .null .null := by
  refine ⟨⟨'n', ['u', 'l', 'l'], rfl, rfl, by decide⟩, fun rest p n _ hn => ?_⟩
  obtain ⟨m, rfl⟩ : ∃ m, n = m + 1 := ⟨n - 1, by simp [Value.chars] at hn; omega⟩
  obtain ⟨q, hword⟩ := Reads.word ['u', 'l', 'l'] rest (p.after 'n')
  exact ⟨q, gives_value.2 (.null rfl hword)⟩

theorem readsAs_bool (depth : Nat) (b : Bool) : ReadsAs depth (.bool b) (.bool b) := by
  cases b with
  | true =>
    refine ⟨⟨'t', ['r', 'u', 'e'], rfl, rfl, by decide⟩, fun rest p n _ hn => ?_⟩
    obtain ⟨m, rfl⟩ : ∃ m, n = m + 1 := ⟨n - 1, by simp [Value.chars, Value.boolText] at hn; omega⟩
    obtain ⟨q, hword⟩ := Reads.word ['r', 'u', 'e'] rest (p.after 't')
    exact ⟨q, gives_value.2 (.yes rfl hword)⟩
  | false =>
    refine ⟨⟨'f', ['a', 'l', 's', 'e'], rfl, rfl, by decide⟩, fun rest p n _ hn => ?_⟩
    obtain ⟨m, rfl⟩ : ∃ m, n = m + 1 := ⟨n - 1, by simp [Value.chars, Value.boolText] at hn; omega⟩
    obtain ⟨q, hword⟩ := Reads.word ['a', 'l', 's', 'e'] rest (p.after 'f')
    exact ⟨q, gives_value.2 (.no rfl hword)⟩

theorem readsAs_number {depth : Nat} {n k : Number} (hbegins : ∃ ch cs, n.chars = ch :: cs ∧ Begins ch)
    (hread : ∀ rest fuel p, Stops rest →
      ∃ q, ValueAt fuel depth ⟨n.chars ++ rest, p⟩ (.number k) ⟨rest, q⟩) :
    ReadsAs depth (.number n) (.number k) := by
  have hchars : Value.chars (.number n) = n.chars := by rw [Value.chars]
  refine ⟨hchars ▸ hbegins, fun rest p m hrest hm => ?_⟩
  obtain ⟨ch, cs, heq, hblank, -⟩ := hbegins
  rw [hchars, heq, List.cons_append, List.length_cons] at hm
  obtain ⟨m, rfl⟩ : ∃ k, m = k + 1 := ⟨m - 1, by omega⟩
  obtain ⟨q, hvalue⟩ := hread rest m p hrest
  rw [hchars]
  refine ⟨q, gives_value.2 ?_⟩
  rwa [skipBlanks_of_head? (by rw [heq]; rfl) hblank]

theorem readsAs_whole (depth : Nat) (n : Int) (h : -0x8000000000000000 ≤ n ∧ n < 0x10000000000000000) :
    ReadsAs depth (.number (.whole n h)) (.number (.whole n h)) := by
  refine readsAs_number ?_ fun rest fuel p hrest => valueAt_whole n h hrest fuel depth p
  cases n with
  | ofNat n =>
    obtain ⟨first, ds, heq, hdigit, -⟩ := Text.decimal_cons n
    exact ⟨first, ds, heq, begins_of_isDigit hdigit⟩
  | negSucc n => exact ⟨'-', Text.decimal (n + 1), rfl, rfl, by decide⟩

theorem readsAs_string (depth : Nat) (s : String) : ReadsAs depth (.string s) (.string s) := by
  have hchars : Value.chars (.string s) = '"' :: (s.toList.flatMap Value.escaped ++ ['"']) := by
    rw [Value.chars]
    rfl
  refine ⟨⟨'"', _, hchars, rfl, by decide⟩, fun rest p n _ hn => ?_⟩
  rw [hchars] at hn ⊢
  obtain ⟨m, rfl⟩ : ∃ m, n = m + 1 := ⟨n - 1, by simp at hn; omega⟩
  obtain ⟨q, hstring⟩ := Reads.string s rest (p.after '"')
  exact ⟨q, gives_value.2 (.string rfl hstring)⟩

section Between

variable {depth : Nat} {ch : Char} {rest : List Char} {p : Position}

theorem stops_itemChars (vs : List Value) (rest : List Char) : Stops (Value.itemChars vs ++ rest) := by
  cases vs with
  | nil =>
    rw [Value.itemChars]
    exact stops_cons (by decide)
  | cons v vs =>
    rw [Value.itemChars, List.append_assoc]
    exact stops_cons (by decide)

theorem stops_entryChars (es : List (String × Value)) (rest : List Char) :
    Stops (Value.entryChars es ++ rest) := by
  cases es with
  | nil =>
    rw [Value.entryChars]
    exact stops_cons (by decide)
  | cons e es =>
    rw [Value.entryChars]
    exact stops_cons (by decide)

theorem itemAt_first (hch : Begins ch) :
    ItemAt ⟨ch :: rest, p⟩ true true ⟨ch :: rest, p⟩ := by
  have hskip : Cursor.skipBlanks ⟨ch :: rest, p⟩ = ⟨ch :: rest, p⟩ := skipBlanks_of_head? rfl hch.1
  have hitem : ItemAt ⟨ch :: rest, p⟩ true true (Cursor.skipBlanks ⟨ch :: rest, p⟩) :=
    .first (by rw [hskip]; rfl) hch.2
  rwa [hskip] at hitem

theorem itemAt_later (hch : Begins ch) :
    ItemAt ⟨',' :: ch :: rest, p⟩ false true ⟨ch :: rest, p.after ','⟩ := by
  have hskip : Cursor.skipBlanks ⟨ch :: rest, p.after ','⟩ = ⟨ch :: rest, p.after ','⟩ :=
    skipBlanks_of_head? rfl hch.1
  have hitem : ItemAt ⟨',' :: ch :: rest, p⟩ false true (Cursor.skipBlanks ⟨ch :: rest, p.after ','⟩) :=
    .later rfl (congrArg (fun c => c.rest.head?) hskip) hch.2
  rwa [hskip] at hitem

theorem gives_items_later {vs us : List Value} (h : List.Forall₂ (ReadsAs depth) vs us) :
    ∀ rest p n, 2 * (Value.itemChars vs ++ rest).length < n →
      ∃ q, Gives (items n depth false) ⟨Value.itemChars vs ++ rest, p⟩ us ⟨']' :: rest, q⟩ := by
  induction h with
  | nil =>
    intro rest p n hn
    obtain ⟨m, rfl⟩ : ∃ m, n = m + 1 := ⟨n - 1, by omega⟩
    exact ⟨p, gives_items.2 (.nil (.none rfl))⟩
  | @cons v u vs us hv _ ih =>
    intro rest p n hn
    obtain ⟨ch, cs, hchars, hch⟩ := hv.begins
    have heq : Value.itemChars (v :: vs) ++ rest = ',' :: (v.chars ++ (Value.itemChars vs ++ rest)) := by
      rw [Value.itemChars, ← List.append_assoc]
      rfl
    rw [heq] at hn ⊢
    rw [List.length_cons] at hn
    obtain ⟨m, rfl⟩ : ∃ m, n = m + 1 := ⟨n - 1, by omega⟩
    obtain ⟨q, hvalue⟩ := hv.gives _ (p.after ',') m (stops_itemChars vs rest) (by omega)
    have hshorter := value_shorter hvalue
    dsimp only at hshorter
    obtain ⟨q', hitems⟩ := ih rest q m (by omega)
    rw [hchars, List.cons_append] at hvalue ⊢
    exact ⟨q', gives_items.2 (.cons (itemAt_later hch) hvalue hitems)⟩

theorem readsAs_array {vs us : List Value} (hdepth : 0 < depth) (h : List.Forall₂ (ReadsAs depth) vs us) :
    ReadsAs (depth + 1) (.array vs) (.array us) := by
  have hclose : ∀ rest q, Gives closeArray ⟨']' :: rest, q⟩ () ⟨rest, q.after ']'⟩ :=
    fun rest q => gives_closeArray.2 ⟨rfl, rfl⟩
  cases h with
  | nil =>
    refine ⟨⟨'[', [']'], by rw [Value.chars], rfl, by decide⟩, fun rest p n _ hn => ?_⟩
    rw [Value.chars] at hn ⊢
    obtain ⟨m, rfl⟩ : ∃ m, n = m + 2 := ⟨n - 2, by simp at hn; omega⟩
    exact ⟨_, gives_value.2 (.array rfl (Nat.succ_lt_succ hdepth) (gives_items.2 (.nil (.none rfl)))
      (hclose rest _))⟩
  | @cons v u vs us hv hvs =>
    refine ⟨⟨'[', _, by rw [Value.chars]; rfl, rfl, by decide⟩, fun rest p n _ hn => ?_⟩
    obtain ⟨ch, cs, hchars, hch⟩ := hv.begins
    have heq : Value.chars (.array (v :: vs)) ++ rest =
        '[' :: (v.chars ++ (Value.itemChars vs ++ rest)) := by
      rw [Value.chars, ← List.append_assoc]
      rfl
    rw [heq] at hn ⊢
    rw [List.length_cons] at hn
    obtain ⟨m, rfl⟩ : ∃ m, n = m + 2 := ⟨n - 2, by omega⟩
    obtain ⟨q, hvalue⟩ := hv.gives _ (p.after '[') m (stops_itemChars vs rest) (by omega)
    have hshorter := value_shorter hvalue
    dsimp only at hshorter
    obtain ⟨q', hitems⟩ := gives_items_later hvs rest q m (by omega)
    rw [hchars, List.cons_append] at hvalue ⊢
    exact ⟨_, gives_value.2 (.array rfl (Nat.succ_lt_succ hdepth)
      (gives_items.2 (.cons (itemAt_first hch) hvalue hitems)) (hclose rest q'))⟩

def EntryReadsAs (depth : Nat) (e f : String × Value) : Prop := f.1 = e.1 ∧ ReadsAs depth e.2 f.2

theorem keyAt_first : KeyAt ⟨'"' :: rest, p⟩ true true ⟨'"' :: rest, p⟩ := .first rfl

theorem keyAt_later : KeyAt ⟨',' :: '"' :: rest, p⟩ false true ⟨'"' :: rest, p.after ','⟩ :=
  .later rfl rfl

theorem gives_key_colon (k : String) (rest : List Char) (p : Position) : ∃ d q,
    Gives key ⟨Value.stringChars k ++ ':' :: rest, p⟩ k d ∧ Gives colon d () ⟨rest, q⟩ := by
  obtain ⟨q, hkey⟩ := Reads.string k (':' :: rest) (p.after '"')
  exact ⟨⟨':' :: rest, q⟩, q.after ':', gives_advance.2 hkey, gives_colon.2 ⟨rfl, rfl⟩⟩

theorem gives_entries_later {es fs : List (String × Value)} (h : List.Forall₂ (EntryReadsAs depth) es fs) :
    ∀ rest p n, 2 * (Value.entryChars es ++ rest).length < n →
      ∃ q, Gives (entries n depth false) ⟨Value.entryChars es ++ rest, p⟩ fs ⟨'}' :: rest, q⟩ := by
  induction h with
  | nil =>
    intro rest p n hn
    obtain ⟨m, rfl⟩ : ∃ m, n = m + 1 := ⟨n - 1, by omega⟩
    exact ⟨p, gives_entries.2 (.nil (.none rfl))⟩
  | @cons e f es fs he _ ih =>
    intro rest p n hn
    obtain ⟨k, v⟩ := e
    obtain ⟨k', u⟩ := f
    obtain ⟨rfl, hv⟩ : k' = k ∧ ReadsAs depth v u := he
    have heq : Value.entryChars ((k', v) :: es) ++ rest =
        ',' :: (Value.stringChars k' ++ ':' :: (v.chars ++ (Value.entryChars es ++ rest))) := by
      rw [Value.entryChars]
      simp only [List.cons_append, List.append_assoc]
    rw [heq] at hn ⊢
    rw [List.length_cons, List.length_append, List.length_cons] at hn
    obtain ⟨m, rfl⟩ : ∃ m, n = m + 1 := ⟨n - 1, by omega⟩
    obtain ⟨d, q, hkey, hcolon⟩ :=
      gives_key_colon k' (v.chars ++ (Value.entryChars es ++ rest)) (p.after ',')
    obtain ⟨q', hvalue⟩ := hv.gives _ q m (stops_entryChars es rest) (by omega)
    have hshorter := value_shorter hvalue
    dsimp only at hshorter
    obtain ⟨q'', hentries⟩ := ih rest q' m (by omega)
    exact ⟨q'', gives_entries.2 (.cons keyAt_later hkey hcolon hvalue hentries)⟩

theorem readsAs_object {es fs : List (String × Value)} (hdepth : 0 < depth)
    (h : List.Forall₂ (EntryReadsAs depth) es fs) : ReadsAs (depth + 1) (.object es) (.object fs) := by
  have hclose : ∀ rest q, Gives closeObject ⟨'}' :: rest, q⟩ () ⟨rest, q.after '}'⟩ :=
    fun rest q => gives_closeObject.2 ⟨rfl, rfl⟩
  cases h with
  | nil =>
    refine ⟨⟨'{', ['}'], by rw [Value.chars], rfl, by decide⟩, fun rest p n _ hn => ?_⟩
    rw [Value.chars] at hn ⊢
    obtain ⟨m, rfl⟩ : ∃ m, n = m + 2 := ⟨n - 2, by simp at hn; omega⟩
    exact ⟨_, gives_value.2 (.object rfl (Nat.succ_lt_succ hdepth)
      (gives_entries.2 (.nil (.none rfl))) (hclose rest _))⟩
  | @cons e f es fs he hes =>
    obtain ⟨k, v⟩ := e
    obtain ⟨k', u⟩ := f
    obtain ⟨rfl, hv⟩ : k' = k ∧ ReadsAs depth v u := he
    refine ⟨⟨'{', _, by rw [Value.chars]; rfl, rfl, by decide⟩, fun rest p n _ hn => ?_⟩
    have heq : Value.chars (.object ((k', v) :: es)) ++ rest =
        '{' :: (Value.stringChars k' ++ ':' :: (v.chars ++ (Value.entryChars es ++ rest))) := by
      rw [Value.chars]
      simp only [List.cons_append, List.append_assoc]
    rw [heq] at hn ⊢
    rw [List.length_cons, List.length_append, List.length_cons] at hn
    obtain ⟨m, rfl⟩ : ∃ m, n = m + 2 := ⟨n - 2, by omega⟩
    obtain ⟨d, q, hkey, hcolon⟩ :=
      gives_key_colon k' (v.chars ++ (Value.entryChars es ++ rest)) (p.after '{')
    obtain ⟨q', hvalue⟩ := hv.gives _ q m (stops_entryChars es rest) (by omega)
    have hshorter := value_shorter hvalue
    dsimp only at hshorter
    obtain ⟨q'', hentries⟩ := gives_entries_later hes rest q' m (by omega)
    exact ⟨_, gives_value.2 (.object rfl (Nat.succ_lt_succ hdepth)
      (gives_entries.2 (.cons keyAt_first hkey hcolon hvalue hentries)) (hclose rest q''))⟩

end Between

theorem Wordy.readsAs {depth : Nat} {v : Value} (h : Wordy depth v) : ReadsAs depth v v := by
  induction h with
  | null => exact readsAs_null _
  | bool b => exact readsAs_bool _ b
  | whole n h => exact readsAs_whole _ n h
  | string s => exact readsAs_string _ s
  | array hdepth _ ih => exact readsAs_array hdepth (List.forall₂_same.2 ih)
  | object hdepth _ ih => exact readsAs_object hdepth (List.forall₂_same.2 fun e he => ⟨rfl, ih e he⟩)

theorem ReadsAs.gives_writtenValue {depth : Nat} {v u : Value} (h : ReadsAs depth v u) :
    ∃ q, Gives (writtenValue depth) (.ofText v.text) u ⟨[], q⟩ := by
  have hread := h.gives [] .start (fuelFor v.chars.length)
  rw [List.append_nil] at hread
  obtain ⟨q, hvalue⟩ := hread stops_nil (by unfold fuelFor; omega)
  refine ⟨q, ?_⟩
  have hcursor : Cursor.ofText v.text = ⟨v.chars, .start⟩ := by
    unfold Cursor.ofText Value.text
    rw [String.toList_ofList]
  rw [hcursor]
  exact hvalue

theorem Wordy.gives_writtenValue {depth : Nat} {v : Value} (h : Wordy depth v) :
    ∃ q, Gives (writtenValue depth) (.ofText v.text) v ⟨[], q⟩ := h.readsAs.gives_writtenValue

end Reader
end ProfilingAgent.Json

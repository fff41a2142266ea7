import ProfilingAgent.Proofs.Reading

set_option autoImplicit false

namespace ProfilingAgent.Json

variable {c d : Cursor}

namespace Reader

/-- What stands behind a backslash, and where it ends: a letter, or a number, or two numbers with a
backslash between them. -/
inductive EscapeAt (c : Cursor) : Cursor → Prop
  | letter {x y : Char} (hhead : c.rest.head? = some x) (hletter : x ≠ 'u')
    (hsimple : simpleEscape x = some y) : EscapeAt c c.tail
  | number {n : Nat} {d : Cursor} (hhead : c.rest.head? = some 'u') (hnumber : Gives hexDigits c.tail n d) :
    EscapeAt c d
  | pair {n m : Nat} {d e : Cursor} (hhead : c.rest.head? = some 'u')
    (hnumber : Gives hexDigits c.tail n d) (hslash : d.rest.head? = some '\\')
    (hletter : d.tail.rest.head? = some 'u') (hsecond : Gives hexDigits d.tail.tail m e) : EscapeAt c e

theorem gives_expect {wanted : Char} :
    Gives (lowSurrogate.expect wanted) c () d ↔ c.rest.head? = some wanted ∧ d = c.tail := by
  unfold lowSurrogate.expect
  rw [gives_peek]
  split
  · rename_i hhead
    simp [not_gives_fail, hhead]
  · rename_i ch hhead
    by_cases hch : ch = wanted
    · rw [if_pos hch, hhead, hch]
      exact ⟨fun h => ⟨rfl, (Outcome.done.inj h).2.symm⟩, fun h => by rw [h.2]; rfl⟩
    · rw [if_neg hch]
      simp [not_gives_failAfter, hhead, hch]

theorem escapeAt_of_gives {ch : Char} (h : Gives escape c ch d) : EscapeAt c d := by
  unfold escape at h
  rw [gives_peek] at h
  split at h
  · exact absurd h not_gives_fail
  · rename_i hhead
    obtain ⟨n, e, hnumber, h⟩ := gives_bind.1 (gives_advance.1 h)
    split at h
    · exact absurd h not_gives_fail
    · split at h
      · obtain ⟨⟨⟩, _, hexpect, h⟩ := gives_bind.1 h
        obtain ⟨hslash, rfl⟩ := gives_expect.1 hexpect
        obtain ⟨⟨⟩, _, hexpect', h⟩ := gives_bind.1 h
        obtain ⟨hletter, rfl⟩ := gives_expect.1 hexpect'
        obtain ⟨m, f, hsecond, h⟩ := gives_bind.1 h
        split at h
        · obtain ⟨-, rfl⟩ := gives_pure.1 h
          exact .pair hhead hnumber hslash hletter hsecond
        · exact absurd h not_gives_fail
      · obtain ⟨-, rfl⟩ := gives_pure.1 h
        exact .number hhead hnumber
  · rename_i x hletter hhead
    split at h
    · rename_i hsimple
      rw [gives_advance] at h
      obtain ⟨-, rfl⟩ := gives_pure.1 h
      exact .letter hhead (fun hx => hletter (hx ▸ rfl)) hsimple
    · exact absurd h not_gives_failAfter

/-- What stands at a place where a value begins, and where it ends. The parts between brackets are read
with some fuel. -/
inductive ValueAt (fuel depth : Nat) (c : Cursor) : Value → Cursor → Prop
  | null {d : Cursor} (hhead : c.rest.head? = some 'n')
    (hword : Gives (word ['u', 'l', 'l']) c.tail () d) : ValueAt fuel depth c .null d
  | yes {d : Cursor} (hhead : c.rest.head? = some 't')
    (hword : Gives (word ['r', 'u', 'e']) c.tail () d) : ValueAt fuel depth c (.bool true) d
  | no {d : Cursor} (hhead : c.rest.head? = some 'f')
    (hword : Gives (word ['a', 'l', 's', 'e']) c.tail () d) : ValueAt fuel depth c (.bool false) d
  | negative {n : Number} {d : Cursor} (hhead : c.rest.head? = some '-')
    (hnumber : Gives (number true) c.tail n d) : ValueAt fuel depth c (.number n) d
  | natural {digit : Char} {n : Number} {d : Cursor} (hhead : c.rest.head? = some digit)
    (hdigit : digit.isDigit = true) (hnumber : Gives (number false) c n d) :
    ValueAt fuel depth c (.number n) d
  | string {s : String} {d : Cursor} (hhead : c.rest.head? = some '"')
    (hstring : Gives string c.tail s d) : ValueAt fuel depth c (.string s) d
  | array {vs : List Value} {d e : Cursor} (hhead : c.rest.head? = some '[') (hdepth : 1 < depth)
    (hitems : Gives (items fuel (depth - 1) true) c.tail vs d) (hclose : Gives closeArray d () e) :
    ValueAt fuel depth c (.array vs) e
  | object {es : List (String × Value)} {d e : Cursor} (hhead : c.rest.head? = some '{')
    (hdepth : 1 < depth) (hentries : Gives (entries fuel (depth - 1) true) c.tail es d)
    (hclose : Gives closeObject d () e) : ValueAt fuel depth c (.object es) e

theorem gives_entering {α : Type} {depth : Nat} {content : Reader α} {a : α} :
    Gives (entering depth content) c a d ↔ 1 < depth ∧ Gives content c.tail a d := by
  unfold entering
  by_cases h : depth ≤ 1
  · rw [if_pos h]
    simp only [not_gives_failNext, false_iff, not_and]
    omega
  · rw [if_neg h, gives_advance]
    simp only [Nat.lt_of_not_le h, true_and]

theorem gives_value {fuel depth : Nat} {v : Value} :
    Gives (value (fuel + 1) depth) c v d ↔ ValueAt fuel depth c.skipBlanks v d := by
  unfold value
  rw [gives_peekToken]
  constructor
  · intro h
    split at h
    · exact absurd h not_gives_failNext
    · rename_i hhead
      obtain ⟨⟨⟩, hword, rfl⟩ := gives_bind_pure.1 (gives_advance.1 h)
      exact .null hhead hword
    · rename_i hhead
      obtain ⟨⟨⟩, hword, rfl⟩ := gives_bind_pure.1 (gives_advance.1 h)
      exact .yes hhead hword
    · rename_i hhead
      obtain ⟨⟨⟩, hword, rfl⟩ := gives_bind_pure.1 (gives_advance.1 h)
      exact .no hhead hword
    · rename_i hhead
      obtain ⟨n, hnumber, rfl⟩ := gives_bind_pure.1 (gives_advance.1 h)
      exact .negative hhead hnumber
    · rename_i hhead
      obtain ⟨s, hstring, rfl⟩ := gives_bind_pure.1 (gives_advance.1 h)
      exact .string hhead hstring
    · rename_i hhead
      obtain ⟨hdepth, h⟩ := gives_entering.1 h
      obtain ⟨vs, e, hitems, h⟩ := gives_bind.1 h
      obtain ⟨⟨⟩, hclose, rfl⟩ := gives_bind_pure.1 h
      exact .array hhead hdepth hitems hclose
    · rename_i hhead
      obtain ⟨hdepth, h⟩ := gives_entering.1 h
      obtain ⟨vs, e, hentries, h⟩ := gives_bind.1 h
      obtain ⟨⟨⟩, hclose, rfl⟩ := gives_bind_pure.1 h
      exact .object hhead hdepth hentries hclose
    · rename_i hhead
      split at h
      · rename_i hdigit
        obtain ⟨n, hnumber, rfl⟩ := gives_bind_pure.1 h
        exact .natural hhead hdigit hnumber
      · exact absurd h not_gives_failNext
  · intro h
    cases h with
    | null hhead hword =>
      rw [hhead]
      exact gives_advance.2 (gives_bind_pure.2 ⟨(), hword, rfl⟩)
    | yes hhead hword =>
      rw [hhead]
      exact gives_advance.2 (gives_bind_pure.2 ⟨(), hword, rfl⟩)
    | no hhead hword =>
      rw [hhead]
      exact gives_advance.2 (gives_bind_pure.2 ⟨(), hword, rfl⟩)
    | negative hhead hnumber =>
      rw [hhead]
      exact gives_advance.2 (gives_bind_pure.2 ⟨_, hnumber, rfl⟩)
    | natural hhead hdigit hnumber =>
      rw [hhead]
      split
      case h_9 heq =>
        cases heq
        rw [if_pos hdigit]
        exact gives_bind_pure.2 ⟨_, hnumber, rfl⟩
      all_goals
        rename_i heq
        cases heq <;> cases hdigit
    | string hhead hstring =>
      rw [hhead]
      exact gives_advance.2 (gives_bind_pure.2 ⟨_, hstring, rfl⟩)
    | array hhead hdepth hitems hclose =>
      rw [hhead]
      exact gives_entering.2 ⟨hdepth, gives_bind.2 ⟨_, _, hitems, gives_bind_pure.2 ⟨(), hclose, rfl⟩⟩⟩
    | object hhead hdepth hentries hclose =>
      rw [hhead]
      exact gives_entering.2
        ⟨hdepth, gives_bind.2 ⟨_, _, hentries, gives_bind_pure.2 ⟨(), hclose, rfl⟩⟩⟩

inductive ItemAt (c : Cursor) : Bool → Bool → Cursor → Prop
  | none {first : Bool} (hhead : c.skipBlanks.rest.head? = some ']') : ItemAt c first false c.skipBlanks
  | first {ch : Char} (hhead : c.skipBlanks.rest.head? = some ch) (hch : ch ≠ ']') :
    ItemAt c true true c.skipBlanks
  | later {ch : Char} (hcomma : c.skipBlanks.rest.head? = some ',')
    (hhead : c.skipBlanks.tail.skipBlanks.rest.head? = some ch) (hch : ch ≠ ']') :
    ItemAt c false true c.skipBlanks.tail.skipBlanks

theorem gives_anotherItem {first b : Bool} : Gives (anotherItem first) c b d ↔ ItemAt c first b d := by
  unfold anotherItem
  rw [gives_peekToken]
  constructor
  · intro h
    split at h
    · exact absurd h not_gives_failNext
    · rename_i hhead
      obtain ⟨rfl, rfl⟩ := gives_pure.1 h
      exact .none hhead
    · rename_i ch hne hhead
      cases first with
      | true =>
        obtain ⟨rfl, rfl⟩ := gives_pure.1 h
        exact .first hhead fun hch => hne (hch ▸ rfl)
      | false =>
        simp only [Bool.false_eq_true, if_false] at h
        split at h
        · rename_i hcomma
          rw [gives_advance, gives_peekToken] at h
          split at h
          · exact absurd h not_gives_failNext
          · exact absurd h not_gives_failNext
          · rename_i next hne' hnext
            obtain ⟨rfl, rfl⟩ := gives_pure.1 h
            exact .later (hcomma ▸ hhead) hnext fun hch => hne' (hch ▸ rfl)
        · exact absurd h not_gives_failNext
  · intro h
    cases h with
    | none hhead =>
      rw [hhead]
      exact gives_pure.2 ⟨rfl, rfl⟩
    | first hhead hch =>
      rw [hhead]
      split
      case h_3 => exact gives_pure.2 ⟨rfl, rfl⟩
      all_goals simp_all
    | later hcomma hhead hch =>
      rw [hcomma]
      refine gives_advance.2 (gives_peekToken.2 ?_)
      rw [hhead]
      split
      case h_3 => exact gives_pure.2 ⟨rfl, rfl⟩
      all_goals simp_all

inductive KeyAt (c : Cursor) : Bool → Bool → Cursor → Prop
  | none {first : Bool} (hhead : c.skipBlanks.rest.head? = some '}') : KeyAt c first false c.skipBlanks
  | first (hhead : c.skipBlanks.rest.head? = some '"') : KeyAt c true true c.skipBlanks
  | later (hcomma : c.skipBlanks.rest.head? = some ',')
    (hhead : c.skipBlanks.tail.skipBlanks.rest.head? = some '"') :
    KeyAt c false true c.skipBlanks.tail.skipBlanks

theorem gives_anotherKey {first b : Bool} : Gives (anotherKey first) c b d ↔ KeyAt c first b d := by
  unfold anotherKey
  rw [gives_peekToken]
  constructor
  · intro h
    split at h
    · exact absurd h not_gives_failNext
    · rename_i hhead
      obtain ⟨rfl, rfl⟩ := gives_pure.1 h
      exact .none hhead
    · rename_i ch hne hhead
      cases first with
      | true =>
        simp only [if_true] at h
        split at h
        · rename_i hquote
          obtain ⟨rfl, rfl⟩ := gives_pure.1 h
          exact .first (hquote ▸ hhead)
        · exact absurd h not_gives_failNext
      | false =>
        simp only [Bool.false_eq_true, if_false] at h
        split at h
        · rename_i hcomma
          rw [gives_advance, gives_peekToken] at h
          split at h
          · exact absurd h not_gives_failNext
          · rename_i hnext
            obtain ⟨rfl, rfl⟩ := gives_pure.1 h
            exact .later (hcomma ▸ hhead) hnext
          · exact absurd h not_gives_failNext
          · exact absurd h not_gives_failNext
        · exact absurd h not_gives_failNext
  · intro h
    cases h with
    | none hhead =>
      rw [hhead]
      exact gives_pure.2 ⟨rfl, rfl⟩
    | first hhead =>
      rw [hhead]
      exact gives_pure.2 ⟨rfl, rfl⟩
    | later hcomma hhead =>
      rw [hcomma]
      refine gives_advance.2 (gives_peekToken.2 ?_)
      rw [hhead]
      exact gives_pure.2 ⟨rfl, rfl⟩

theorem KeyAt.quote {first : Bool} (h : KeyAt c first true d) : d.rest.head? = some '"' := by
  cases h with
  | first hhead => exact hhead
  | later _ hhead => exact hhead

theorem KeyAt.key_shorter {first : Bool} {k : String} {e : Cursor} (h : KeyAt c first true d)
    (hkey : Gives key d k e) : e.rest.length < d.rest.length := by
  have htail := length_tail h.quote
  have hle := Forward.string.length_le (gives_advance.1 hkey)
  omega

theorem gives_colon : Gives colon c () d ↔ c.skipBlanks.rest.head? = some ':' ∧ d = c.skipBlanks.tail := by
  unfold colon
  rw [gives_peekToken]
  split
  · rename_i hhead
    simp [not_gives_failNext, hhead]
  · rename_i hhead
    rw [hhead]
    exact ⟨fun h => ⟨rfl, (Outcome.done.inj h).2.symm⟩, fun h => by rw [h.2]; rfl⟩
  · rename_i ch hne hhead
    have hch : ch ≠ ':' := fun h => hne (h ▸ rfl)
    simp [not_gives_failNext, hhead, hch]

theorem gives_closeArray :
    Gives closeArray c () d ↔ c.skipBlanks.rest.head? = some ']' ∧ d = c.skipBlanks.tail := by
  unfold closeArray
  rw [gives_peekToken]
  split
  · rename_i hhead
    simp [not_gives_failNext, hhead]
  · rename_i hhead
    rw [hhead]
    exact ⟨fun h => ⟨rfl, (Outcome.done.inj h).2.symm⟩, fun h => by rw [h.2]; rfl⟩
  · rename_i hhead
    rw [gives_advance, gives_peekToken, hhead]
    split
    · simp [not_gives_failNext]
    · simp [not_gives_failNext]
  · rename_i ch hne _ hhead
    have hch : ch ≠ ']' := fun h => hne (h ▸ rfl)
    simp [not_gives_failNext, hhead, hch]

theorem gives_closeObject :
    Gives closeObject c () d ↔ c.skipBlanks.rest.head? = some '}' ∧ d = c.skipBlanks.tail := by
  unfold closeObject
  rw [gives_peekToken]
  split
  · rename_i hhead
    simp [not_gives_failNext, hhead]
  · rename_i hhead
    rw [hhead]
    exact ⟨fun h => ⟨rfl, (Outcome.done.inj h).2.symm⟩, fun h => by rw [h.2]; rfl⟩
  · rename_i hhead
    simp [not_gives_failNext, hhead]
  · rename_i ch hne _ hhead
    have hch : ch ≠ '}' := fun h => hne (h ▸ rfl)
    simp [not_gives_failNext, hhead, hch]

inductive ItemsAt (fuel depth : Nat) (c : Cursor) (first : Bool) : List Value → Cursor → Prop
  | nil {d : Cursor} (hend : ItemAt c first false d) : ItemsAt fuel depth c first [] d
  | cons {v : Value} {vs : List Value} {d e f : Cursor} (hitem : ItemAt c first true d)
    (hvalue : Gives (value fuel depth) d v e) (hrest : Gives (items fuel depth false) e vs f) :
    ItemsAt fuel depth c first (v :: vs) f

theorem gives_items {fuel depth : Nat} {first : Bool} {vs : List Value} :
    Gives (items (fuel + 1) depth first) c vs d ↔ ItemsAt fuel depth c first vs d := by
  unfold items
  rw [gives_bind]
  constructor
  · rintro ⟨another, e, hanother, h⟩
    rw [gives_anotherItem] at hanother
    cases another with
    | true =>
      obtain ⟨v, f, hvalue, h⟩ := gives_bind.1 h
      obtain ⟨rest, hrest, rfl⟩ := gives_bind_pure.1 h
      exact .cons hanother hvalue hrest
    | false =>
      obtain ⟨rfl, rfl⟩ := gives_pure.1 h
      exact .nil hanother
  · intro h
    cases h with
    | nil hend => exact ⟨false, _, gives_anotherItem.2 hend, gives_pure.2 ⟨rfl, rfl⟩⟩
    | cons hitem hvalue hrest =>
      exact ⟨true, _, gives_anotherItem.2 hitem,
        gives_bind.2 ⟨_, _, hvalue, gives_bind_pure.2 ⟨_, hrest, rfl⟩⟩⟩

inductive EntriesAt (fuel depth : Nat) (c : Cursor) (first : Bool) :
    List (String × Value) → Cursor → Prop
  | nil {d : Cursor} (hend : KeyAt c first false d) : EntriesAt fuel depth c first [] d
  | cons {k : String} {v : Value} {es : List (String × Value)} {d e f g i : Cursor}
    (hanother : KeyAt c first true d) (hkey : Gives key d k e) (hcolon : Gives colon e () f)
    (hvalue : Gives (value fuel depth) f v g) (hrest : Gives (entries fuel depth false) g es i) :
    EntriesAt fuel depth c first ((k, v) :: es) i

theorem gives_entries {fuel depth : Nat} {first : Bool} {es : List (String × Value)} :
    Gives (entries (fuel + 1) depth first) c es d ↔ EntriesAt fuel depth c first es d := by
  unfold entries
  rw [gives_bind]
  constructor
  · rintro ⟨another, e, hanother, h⟩
    rw [gives_anotherKey] at hanother
    cases another with
    | true =>
      obtain ⟨k, f, hkey, h⟩ := gives_bind.1 h
      obtain ⟨⟨⟩, g, hcolon, h⟩ := gives_bind.1 h
      obtain ⟨v, i, hvalue, h⟩ := gives_bind.1 h
      obtain ⟨rest, hrest, rfl⟩ := gives_bind_pure.1 h
      exact .cons hanother hkey hcolon hvalue hrest
    | false =>
      obtain ⟨rfl, rfl⟩ := gives_pure.1 h
      exact .nil hanother
  · intro h
    cases h with
    | nil hend => exact ⟨false, _, gives_anotherKey.2 hend, gives_pure.2 ⟨rfl, rfl⟩⟩
    | cons hanother hkey hcolon hvalue hrest =>
      exact ⟨true, _, gives_anotherKey.2 hanother, gives_bind.2 ⟨_, _, hkey,
        gives_bind.2 ⟨(), _, hcolon, gives_bind.2 ⟨_, _, hvalue, gives_bind_pure.2 ⟨_, hrest, rfl⟩⟩⟩⟩⟩

theorem Forward.entering {α : Type} {depth : Nat} {content : Reader α} (h : Forward content) :
    Forward (entering depth content) := .ite (.failNext _) (.bind .advance fun _ => h)

theorem forward_all (fuel : Nat) : (∀ depth, Forward (value fuel depth)) ∧
    (∀ depth first, Forward (items fuel depth first)) ∧
    ∀ depth first, Forward (entries fuel depth first) := by
  induction fuel with
  | zero => exact ⟨fun _ => .fail _, fun _ _ => .fail _, fun _ _ => .fail _⟩
  | succ fuel ih =>
    obtain ⟨hvalue, hitems, hentries⟩ := ih
    refine ⟨fun depth => ?_, fun depth first => ?_, fun depth first => ?_⟩
    · refine .bind .peekToken fun next => ?_
      split
      · exact .failNext _
      · exact .bind .advance fun _ => .bind (.word _) fun _ => .pure _
      · exact .bind .advance fun _ => .bind (.word _) fun _ => .pure _
      · exact .bind .advance fun _ => .bind (.word _) fun _ => .pure _
      · exact .bind .advance fun _ => .bind (.number _) fun _ => .pure _
      · exact .bind .advance fun _ => .bind .string fun _ => .pure _
      · exact .entering (.bind (hitems _ _) fun _ => .bind .closeArray fun _ => .pure _)
      · exact .entering (.bind (hentries _ _) fun _ => .bind .closeObject fun _ => .pure _)
      · exact .ite (.bind (.number _) fun _ => .pure _) (.failNext _)
    · exact .bind (.anotherItem _) fun _ => .ite
        (.bind (hvalue _) fun _ => .bind (hitems _ _) fun _ => .pure _) (.pure _)
    · exact .bind (.anotherKey _) fun _ => .ite (.bind .key fun _ => .bind .colon fun _ =>
        .bind (hvalue _) fun _ => .bind (hentries _ _) fun _ => .pure _) (.pure _)

theorem forward_items (fuel depth : Nat) (first : Bool) : Forward (items fuel depth first) :=
  (forward_all fuel).2.1 depth first

theorem forward_entries (fuel depth : Nat) (first : Bool) : Forward (entries fuel depth first) :=
  (forward_all fuel).2.2 depth first

theorem ValueAt.shorter {fuel depth : Nat} {v : Value} (h : ValueAt fuel depth c v d) :
    d.rest.length < c.rest.length := by
  cases h with
  | null hhead hword =>
    have := length_tail hhead
    have := (Forward.word _).length_le hword
    omega
  | yes hhead hword =>
    have := length_tail hhead
    have := (Forward.word _).length_le hword
    omega
  | no hhead hword =>
    have := length_tail hhead
    have := (Forward.word _).length_le hword
    omega
  | negative hhead hnumber =>
    have := length_tail hhead
    have := (Forward.number _).length_le hnumber
    omega
  | natural hhead hdigit hnumber => exact Forward.number_shorter hnumber
  | string hhead hstring =>
    have := length_tail hhead
    have := Forward.string.length_le hstring
    omega
  | array hhead _ hitems hclose =>
    have := length_tail hhead
    have := (forward_items _ _ _).length_le hitems
    have := Forward.closeArray.length_le hclose
    omega
  | object hhead _ hentries hclose =>
    have := length_tail hhead
    have := (forward_entries _ _ _).length_le hentries
    have := Forward.closeObject.length_le hclose
    omega

theorem value_shorter {fuel depth : Nat} {v : Value} (h : Gives (value fuel depth) c v d) :
    d.rest.length < c.rest.length := by
  cases fuel with
  | zero => exact absurd h not_gives_fail
  | succ fuel =>
    have := (gives_value.1 h).shorter
    have := length_skipBlanks c
    omega

/-- Two units of fuel for each character that is left are enough. -/
theorem with_enough_fuel (n : Nat) :
    (∀ depth c v d, Gives (value n depth) c v d →
      ∀ m, 2 * c.rest.length ≤ m → Gives (value m depth) c v d) ∧
    (∀ depth first c vs d, Gives (items n depth first) c vs d →
      ∀ m, 2 * c.rest.length < m → Gives (items m depth first) c vs d) ∧
    ∀ depth first c es d, Gives (entries n depth first) c es d →
      ∀ m, 2 * c.rest.length < m → Gives (entries m depth first) c es d := by
  induction n with
  | zero =>
    exact ⟨fun _ _ _ _ h => absurd h not_gives_fail, fun _ _ _ _ _ h => absurd h not_gives_fail,
      fun _ _ _ _ _ h => absurd h not_gives_fail⟩
  | succ n ih =>
    obtain ⟨hvalues, hitems, hentries⟩ := ih
    refine ⟨?_, ?_, ?_⟩
    · intro depth c v d h m hm
      have hshorter := value_shorter h
      have hblanks := length_skipBlanks c
      obtain ⟨m, rfl⟩ : ∃ k, m = k + 1 := ⟨m - 1, by omega⟩
      rw [gives_value] at h ⊢
      cases h with
      | null hhead hword => exact .null hhead hword
      | yes hhead hword => exact .yes hhead hword
      | no hhead hword => exact .no hhead hword
      | negative hhead hnumber => exact .negative hhead hnumber
      | natural hhead hdigit hnumber => exact .natural hhead hdigit hnumber
      | string hhead hstring => exact .string hhead hstring
      | array hhead hdepth hread hclose =>
        have htail := length_tail hhead
        exact .array hhead hdepth (hitems _ _ _ _ _ hread m (by omega)) hclose
      | object hhead hdepth hread hclose =>
        have htail := length_tail hhead
        exact .object hhead hdepth (hentries _ _ _ _ _ hread m (by omega)) hclose
    · intro depth first c vs d h m hm
      obtain ⟨m, rfl⟩ : ∃ k, m = k + 1 := ⟨m - 1, by omega⟩
      rw [gives_items] at h ⊢
      cases h with
      | nil hend => exact .nil hend
      | cons hitem hvalue hrest =>
        have hle := (Forward.anotherItem _).length_le (gives_anotherItem.2 hitem)
        have hshorter := value_shorter hvalue
        exact .cons hitem (hvalues _ _ _ _ hvalue m (by omega)) (hitems _ _ _ _ _ hrest m (by omega))
    · intro depth first c es d h m hm
      obtain ⟨m, rfl⟩ : ∃ k, m = k + 1 := ⟨m - 1, by omega⟩
      rw [gives_entries] at h ⊢
      cases h with
      | nil hend => exact .nil hend
      | cons hanother hkey hcolon hvalue hrest =>
        have hle := (Forward.anotherKey _).length_le (gives_anotherKey.2 hanother)
        have hkeyle := Forward.key.length_le hkey
        have hcolonle := Forward.colon.length_le hcolon
        have hshorter := value_shorter hvalue
        exact .cons hanother hkey hcolon (hvalues _ _ _ _ hvalue m (by omega))
          (hentries _ _ _ _ _ hrest m (by omega))

end Reader
end ProfilingAgent.Json

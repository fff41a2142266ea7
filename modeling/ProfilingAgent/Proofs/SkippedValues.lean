import ProfilingAgent.Proofs.ValuesInText

set_option autoImplicit false

namespace ProfilingAgent.Json

variable {c d e f i : Cursor}

namespace Reader

section Numbers

variable {negative : Bool} {n : Number}

theorem realNumber_stays {x : Binary64} (h : Gives (realNumber negative x) c n d) : d = c := by
  unfold realNumber at h
  split at h
  · exact (gives_pure.1 h).2.symm
  · exact absurd h not_gives_fail

theorem scaledNumber_stays {significand : Nat} {exponent : Int}
    (h : Gives (scaledNumber negative significand exponent) c n d) : d = c := by
  unfold scaledNumber at h
  split at h
  · exact realNumber_stays h
  · exact absurd h not_gives_fail

theorem wholeNumber_stays {whole : Nat} (h : Gives (wholeNumber negative whole) c n d) : d = c := by
  unfold wholeNumber at h
  split at h
  · split at h
    · exact (gives_pure.1 h).2.symm
    · exact absurd h not_gives_fail
  · split at h
    · exact realNumber_stays h
    · split at h
      · exact (gives_pure.1 h).2.symm
      · exact absurd h not_gives_fail

theorem skips_exponent {significand : Nat} {exponent : Int}
    (h : Gives (exponentPart negative significand exponent) c.tail n d) :
    Gives skipNumber.skipExponent c () d := by
  obtain ⟨down, e, hsign, h⟩ := gives_bind.1 h
  refine gives_advance.2 (gives_bind.2 ⟨down, e, hsign, ?_⟩)
  rw [gives_peek] at h ⊢
  split at h
  · exact absurd h not_gives_fail
  · rename_i digit hhead
    rcases gives_ite.1 h with ⟨hdigit, h⟩ | ⟨hdigit, h⟩
    · have hleft : d = e.skipWhile Char.isDigit := by
        unfold Gives at h
        dsimp only at h
        split at h
        · exact scaledNumber_stays h
        · split at h
          · cases h
          · exact realNumber_stays h
      refine gives_ite.2 (.inl ⟨hdigit, ?_⟩)
      exact gives_bind.2 ⟨_, _, rfl, gives_pure.2 ⟨rfl, hleft.symm⟩⟩
    · exact absurd h not_gives_failAfter

theorem skips_number (h : Gives (number negative) c n d) : Gives skipNumber c () d := by
  unfold number at h
  unfold skipNumber
  rw [gives_peek] at h ⊢
  split at h
  · exact absurd h not_gives_fail
  · rename_i first hhead
    split at h
    · exact absurd h not_gives_failAfter
    · rename_i hfirst
      obtain ⟨ds, e, hleading, h⟩ := gives_bind.1 h
      rw [if_neg hfirst]
      refine gives_bind.2 ⟨ds, e, hleading, ?_⟩
      rw [gives_peek] at h ⊢
      split at h
      · rw [gives_advance] at h
        obtain ⟨places, f, hplaces, h⟩ := gives_bind.1 h
        refine gives_advance.2 (gives_bind.2 ⟨places, f, hplaces, ?_⟩)
        split at h
        · rw [gives_peek] at h
          split at h
          · exact absurd h not_gives_failNext
          · exact absurd h not_gives_failNext
        · rename_i hsome
          rw [if_neg hsome]
          rw [gives_peek] at h ⊢
          split at h
          · exact skips_exponent (gives_advance.1 h)
          · exact skips_exponent (gives_advance.1 h)
          · exact gives_pure.2 ⟨rfl, (scaledNumber_stays h).symm⟩
      · exact skips_exponent (gives_advance.1 h)
      · exact skips_exponent (gives_advance.1 h)
      · have hstays : d = e := by
          split at h
          · exact wholeNumber_stays h
          · exact scaledNumber_stays h
        exact gives_pure.2 ⟨rfl, hstays.symm⟩

end Numbers

section Strings

variable {step : Char} {fuel : List Char}

theorem skipStringBody_letter {x y : Char} (hslash : c.rest.head? = some '\\')
    (hhead : c.tail.rest.head? = some x) (hletter : x ≠ 'u') (hsimple : simpleEscape x = some y)
    (h : Gives (skipStringBody fuel) c.tail.tail () d) : Gives (skipStringBody (step :: fuel)) c () d := by
  unfold skipStringBody
  rw [gives_peek, hslash]
  refine gives_advance.2 (gives_peek.2 ?_)
  rw [hhead]
  split
  · simp_all
  · simp_all
  · rename_i z _ hz
    obtain rfl := Option.some.inj hz
    rw [hsimple]
    exact gives_advance.2 h

theorem skipStringBody_number {n : Nat} (hslash : c.rest.head? = some '\\')
    (hhead : c.tail.rest.head? = some 'u') (hnumber : Gives hexDigits c.tail.tail n e)
    (h : Gives (skipStringBody fuel) e () d) : Gives (skipStringBody (step :: fuel)) c () d := by
  unfold skipStringBody
  rw [gives_peek, hslash]
  refine gives_advance.2 (gives_peek.2 ?_)
  rw [hhead]
  exact gives_advance.2 (gives_bind.2 ⟨n, e, hnumber, h⟩)

/-- One step for each character is enough, although a surrogate pair takes two. -/
theorem skips_stringBody {fuel before cs : List Char} (h : Gives (stringBody fuel before) c cs d) :
    ∀ steps : List Char, c.rest.length ≤ steps.length → Gives (skipStringBody steps) c () d := by
  induction fuel generalizing before c with
  | nil => exact absurd h not_gives_fail
  | cons _ fuel ih =>
    intro steps hsteps
    unfold stringBody at h
    rw [gives_peek] at h
    split at h
    · exact absurd h not_gives_fail
    · rename_i hhead
      have htail := length_tail hhead
      obtain ⟨s, steps, rfl⟩ := List.exists_cons_of_length_pos (l := steps) (by omega)
      rw [gives_advance] at h
      obtain ⟨-, rfl⟩ := gives_pure.1 h
      unfold skipStringBody
      rw [gives_peek, hhead]
      rfl
    · rename_i hslash
      have htail := length_tail hslash
      obtain ⟨ch, e, hescape, hrest⟩ := gives_bind.1 (gives_advance.1 h)
      obtain ⟨s, steps, rfl⟩ := List.exists_cons_of_length_pos (l := steps) (by omega)
      rw [List.length_cons] at hsteps
      cases escapeAt_of_gives hescape with
      | letter hhead hletter hsimple =>
        have := length_tail hhead
        exact skipStringBody_letter hslash hhead hletter hsimple (ih hrest steps (by omega))
      | number hhead hnumber =>
        have := length_tail hhead
        have := Forward.hexDigits.length_le hnumber
        exact skipStringBody_number hslash hhead hnumber (ih hrest steps (by omega))
      | pair hhead hnumber hslash' hletter hsecond =>
        have := length_tail hhead
        have := Forward.hexDigits.length_le hnumber
        have := length_tail hslash'
        have := length_tail hletter
        have := Forward.hexDigits.length_le hsecond
        obtain ⟨s', steps, rfl⟩ := List.exists_cons_of_length_pos (l := steps) (by omega)
        rw [List.length_cons] at hsteps
        exact skipStringBody_number hslash hhead hnumber
          (skipStringBody_number hslash' hletter hsecond (ih hrest steps (by omega)))
    · rename_i ch hquote hslash hhead
      have htail := length_tail hhead
      split at h
      · exact absurd h not_gives_failAfter
      · rename_i hcontrol
        obtain ⟨s, steps, rfl⟩ := List.exists_cons_of_length_pos (l := steps) (by omega)
        rw [List.length_cons] at hsteps
        have hrest := ih (gives_advance.1 h) steps (by omega)
        unfold skipStringBody
        rw [gives_peek, hhead]
        split
        · simp_all
        · simp_all
        · simp_all
        · rename_i ch' _ _ heq
          obtain rfl := Option.some.inj heq
          rw [if_neg hcontrol]
          exact gives_advance.2 hrest

theorem skips_string {s : String} (h : Gives string c s d) : Gives skipString c () d := by
  obtain ⟨cs, hbody, -⟩ := gives_bind_pure.1 h
  exact skips_stringBody hbody c.rest (Nat.le_refl _)

end Strings

section Rules

variable {m : Nat} {first : Bool} {ch : Char}

theorem skipValueWith_skipBlanks (h : Gives (skipValueWith m) c.skipBlanks () d) :
    Gives (skipValueWith m) c () d := by
  cases m with
  | zero => exact absurd h not_gives_fail
  | succ m =>
    unfold skipValueWith at h ⊢
    rw [gives_peekToken, skipBlanks_skipBlanks] at h
    exact gives_peekToken.2 h

theorem skipItems_end (hhead : c.skipBlanks.rest.head? = some ']') :
    Gives (skipItems (m + 1) first) c () c.skipBlanks.tail := by
  unfold skipItems
  rw [gives_peekToken, hhead]
  rfl

theorem skipItems_another (hitem : ItemAt c first true d) (hvalue : Gives (skipValueWith m) d () e)
    (hrest : Gives (skipItems m false) e () f) : Gives (skipItems (m + 1) first) c () f := by
  have hboth : Gives (do skipValueWith m; skipItems m false) d () f :=
    gives_bind.2 ⟨(), e, hvalue, hrest⟩
  unfold skipItems
  rw [gives_peekToken]
  cases hitem with
  | first hhead hch =>
    rw [hhead]
    split
    case h_3 => exact hboth
    all_goals simp_all
  | later hcomma _ _ =>
    rw [hcomma]
    exact gives_advance.2 (gives_bind.2 ⟨(), e, skipValueWith_skipBlanks hvalue, hrest⟩)

theorem skipEntry_of_key {k : String} (hhead : c.skipBlanks.rest.head? = some '"')
    (hkey : Gives key c.skipBlanks k d) (hcolon : Gives colon d () e)
    (hvalue : Gives (skipValueWith m) e () f) : Gives (skipEntry (m + 1)) c () f := by
  unfold skipEntry
  rw [gives_peekToken, hhead]
  exact gives_advance.2 (gives_bind.2 ⟨(), d, skips_string (gives_advance.1 hkey),
    gives_bind.2 ⟨(), e, hcolon, hvalue⟩⟩)

theorem skipEntries_end (hhead : c.skipBlanks.rest.head? = some '}') :
    Gives (skipEntries (m + 1) first) c () c.skipBlanks.tail := by
  unfold skipEntries
  rw [gives_peekToken, hhead]
  rfl

theorem skipEntries_another {k : String} {g : Cursor} (hanother : KeyAt c first true d)
    (hkey : Gives key d k e) (hcolon : Gives colon e () f) (hvalue : Gives (skipValueWith m) f () g)
    (hrest : Gives (skipEntries (m + 1) false) g () i) : Gives (skipEntries (m + 2) first) c () i := by
  unfold skipEntries
  rw [gives_peekToken]
  cases hanother with
  | first hhead =>
    rw [hhead]
    rw [← skipBlanks_skipBlanks] at hhead hkey
    exact gives_bind.2 ⟨(), g, skipEntry_of_key hhead hkey hcolon hvalue, hrest⟩
  | later hcomma hhead =>
    rw [hcomma]
    exact gives_advance.2
      (gives_bind.2 ⟨(), g, skipEntry_of_key hhead hkey hcolon hvalue, hrest⟩)

end Rules

/-- What is read with some fuel is skipped with three units for each character. -/
theorem skips_all (n : Nat) :
    (∀ depth c v d, Gives (value n depth) c v d →
      ∀ m, 3 * c.rest.length ≤ m → Gives (skipValueWith m) c () d) ∧
    (∀ depth first c vs d e, Gives (items n depth first) c vs d → Gives closeArray d () e →
      ∀ m, 3 * c.rest.length < m → Gives (skipItems m first) c () e) ∧
    ∀ depth first c es d e, Gives (entries n depth first) c es d → Gives closeObject d () e →
      ∀ m, 3 * c.rest.length < m → Gives (skipEntries m first) c () e := by
  induction n with
  | zero =>
    exact ⟨fun _ _ _ _ h => absurd h not_gives_fail, fun _ _ _ _ _ _ h => absurd h not_gives_fail,
      fun _ _ _ _ _ _ h => absurd h not_gives_fail⟩
  | succ n ih =>
    obtain ⟨hvalues, hitems, hentries⟩ := ih
    refine ⟨?_, ?_, ?_⟩
    · intro depth c v d h m hm
      have hshorter := value_shorter h
      have hblanks := length_skipBlanks c
      obtain ⟨m, rfl⟩ : ∃ k, m = k + 1 := ⟨m - 1, by omega⟩
      unfold skipValueWith
      rw [gives_peekToken]
      cases gives_value.1 h with
      | null hhead hword =>
        rw [hhead]
        exact gives_advance.2 hword
      | yes hhead hword =>
        rw [hhead]
        exact gives_advance.2 hword
      | no hhead hword =>
        rw [hhead]
        exact gives_advance.2 hword
      | negative hhead hnumber =>
        rw [hhead]
        exact gives_advance.2 (skips_number hnumber)
      | natural hhead hdigit hnumber =>
        rw [hhead]
        split
        case h_9 heq =>
          cases heq
          rw [if_pos hdigit]
          exact skips_number hnumber
        all_goals
          rename_i heq
          cases heq <;> cases hdigit
      | string hhead hstring =>
        rw [hhead]
        exact gives_advance.2 (skips_string hstring)
      | array hhead _ hread hclose =>
        have htail := length_tail hhead
        rw [hhead]
        exact gives_advance.2 (hitems _ _ _ _ _ _ hread hclose m (by omega))
      | object hhead _ hread hclose =>
        have htail := length_tail hhead
        rw [hhead]
        exact gives_advance.2 (hentries _ _ _ _ _ _ hread hclose m (by omega))
    · intro depth first c vs d e h hclose m hm
      obtain ⟨m, rfl⟩ : ∃ k, m = k + 1 := ⟨m - 1, by omega⟩
      cases gives_items.1 h with
      | nil hend =>
        cases hend with
        | none hhead =>
          obtain ⟨-, rfl⟩ := gives_closeArray.1 hclose
          rw [skipBlanks_skipBlanks]
          exact skipItems_end hhead
      | cons hitem hvalue hrest =>
        have hle := (Forward.anotherItem _).length_le (gives_anotherItem.2 hitem)
        have hshorter := value_shorter hvalue
        exact skipItems_another hitem (hvalues _ _ _ _ hvalue m (by omega))
          (hitems _ _ _ _ _ _ hrest hclose m (by omega))
    · intro depth first c es d e h hclose m hm
      cases gives_entries.1 h with
      | nil hend =>
        cases hend with
        | none hhead =>
          obtain ⟨m, rfl⟩ : ∃ k, m = k + 1 := ⟨m - 1, by omega⟩
          obtain ⟨-, rfl⟩ := gives_closeObject.1 hclose
          rw [skipBlanks_skipBlanks]
          exact skipEntries_end hhead
      | cons hanother hkey hcolon hvalue hrest =>
        have hle := (Forward.anotherKey _).length_le (gives_anotherKey.2 hanother)
        have hkeyShorter := hanother.key_shorter hkey
        have hcolonle := Forward.colon.length_le hcolon
        have hshorter := value_shorter hvalue
        obtain ⟨m, rfl⟩ : ∃ k, m = k + 2 := ⟨m - 2, by omega⟩
        exact skipEntries_another hanother hkey hcolon (hvalues _ _ _ _ hvalue m (by omega))
          (hentries _ _ _ _ _ _ hrest hclose (m + 1) (by omega))

theorem skips_value {n depth : Nat} {v : Value} (h : Gives (value n depth) c v d) :
    Gives skipValue c () d :=
  (skips_all n).1 depth c v d h _ (by unfold fuelFor; omega)

end Reader
end ProfilingAgent.Json

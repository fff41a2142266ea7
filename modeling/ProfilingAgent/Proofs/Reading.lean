import ProfilingAgent.Json.Text

set_option autoImplicit false

namespace ProfilingAgent.Json

variable {α β : Type} {c d : Cursor}

namespace Reader

def Gives (r : Reader α) (c : Cursor) (a : α) (d : Cursor) : Prop := r c = .done a d

section Rules

variable {a : α} {b : β}

theorem gives_bind {r : Reader α} {f : α → Reader β} :
    Gives (r >>= f) c b d ↔ ∃ a e, Gives r c a e ∧ Gives (f a) e b d := by
  unfold Gives
  dsimp only [bind]
  cases r c with
  | done a e =>
    constructor
    · intro h
      exact ⟨a, e, rfl, h⟩
    · rintro ⟨_, _, hdone, h⟩
      obtain ⟨rfl, rfl⟩ := Outcome.done.inj hdone
      exact h
  | failed fault e => simp

theorem gives_pure {a' : α} : Gives (pure a : Reader α) c a' d ↔ a = a' ∧ c = d := by
  change Outcome.done a c = _ ↔ _
  rw [Outcome.done.injEq]

theorem gives_bind_pure {r : Reader α} {f : α → β} :
    Gives (r >>= fun a => pure (f a)) c b d ↔ ∃ a, Gives r c a d ∧ f a = b := by
  rw [gives_bind]
  constructor
  · rintro ⟨a, e, hr, hpure⟩
    obtain ⟨rfl, rfl⟩ := gives_pure.1 hpure
    exact ⟨a, hr, rfl⟩
  · rintro ⟨a, hr, rfl⟩
    exact ⟨a, d, hr, rfl⟩

theorem gives_peek {f : Option Char → Reader β} :
    Gives (peek >>= f) c b d ↔ Gives (f c.rest.head?) c b d := Iff.rfl

theorem gives_peekToken {f : Option Char → Reader β} :
    Gives (peekToken >>= f) c b d ↔ Gives (f c.skipBlanks.rest.head?) c.skipBlanks b d := Iff.rfl

theorem gives_advance {f : Unit → Reader β} :
    Gives (advance >>= f) c b d ↔ Gives (f ()) c.tail b d := Iff.rfl

theorem gives_ite {p : Prop} [Decidable p] {r t : Reader α} :
    Gives (if p then r else t) c a d ↔ p ∧ Gives r c a d ∨ ¬p ∧ Gives t c a d := by
  by_cases h : p <;> simp [h]

theorem not_gives_fail {cause : Cause} : ¬Gives (fail cause : Reader α) c a d := nofun

theorem not_gives_failNext {cause : Cause} : ¬Gives (failNext cause : Reader α) c a d := nofun

theorem not_gives_failAfter {cause : Cause} : ¬Gives (failAfter cause : Reader α) c a d := nofun

end Rules

def Forward (r : Reader α) : Prop := ∀ c a d, Gives r c a d → d.rest <:+ c.rest

theorem forward_skipBlanks (c : Cursor) : c.skipBlanks.rest <:+ c.rest := List.dropWhile_suffix _

theorem skipBlanks_of_head? {ch : Char} (hhead : c.rest.head? = some ch) (h : Cursor.isBlank ch = false) :
    c.skipBlanks = c := by
  obtain ⟨rest, position⟩ := c
  cases rest with
  | nil => cases hhead
  | cons first rest =>
    obtain rfl := Option.some.inj hhead
    unfold Cursor.skipBlanks Cursor.skipWhile
    dsimp only
    rw [List.dropWhile_cons_of_neg (by simp [h]), List.takeWhile_cons_of_neg (by simp [h]), List.foldl_nil]

theorem skipBlanks_skipBlanks (c : Cursor) : c.skipBlanks.skipBlanks = c.skipBlanks := by
  have hblank := List.head?_dropWhile_not Cursor.isBlank c.rest
  cases hhead : c.skipBlanks.rest.head? with
  | none =>
    have hrest := List.head?_eq_none_iff.1 hhead
    generalize c.skipBlanks = blank at hrest
    obtain ⟨rest, position⟩ := blank
    obtain rfl := hrest
    rfl
  | some ch =>
    rw [show (c.rest.dropWhile Cursor.isBlank).head? = some ch from hhead] at hblank
    exact skipBlanks_of_head? hhead hblank

theorem forward_tail (c : Cursor) : c.tail.rest <:+ c.rest := by
  obtain ⟨rest, position⟩ := c
  cases rest with
  | nil => exact List.suffix_rfl
  | cons ch rest => exact List.suffix_cons ch rest

theorem rest_eq_cons {ch : Char} (h : c.rest.head? = some ch) : c.rest = ch :: c.tail.rest := by
  obtain ⟨rest, position⟩ := c
  cases rest with
  | nil => cases h
  | cons first rest =>
    obtain rfl := Option.some.inj h
    rfl

theorem length_tail {ch : Char} (h : c.rest.head? = some ch) :
    c.rest.length = c.tail.rest.length + 1 := congrArg List.length (rest_eq_cons h)

theorem length_skipBlanks (c : Cursor) : c.skipBlanks.rest.length ≤ c.rest.length :=
  (forward_skipBlanks c).length_le

namespace Forward

theorem length_le {r : Reader α} {a : α} (hr : Forward r) (h : Gives r c a d) :
    d.rest.length ≤ c.rest.length := (hr c a d h).length_le

theorem pure (a : α) : Forward (pure a : Reader α) := by
  intro c b d h
  obtain ⟨-, rfl⟩ := gives_pure.1 h
  exact List.suffix_rfl

theorem fail (cause : Cause) : Forward (fail cause : Reader α) :=
  fun _ _ _ h => absurd h not_gives_fail

theorem failNext (cause : Cause) : Forward (failNext cause : Reader α) :=
  fun _ _ _ h => absurd h not_gives_failNext

theorem failAfter (cause : Cause) : Forward (failAfter cause : Reader α) :=
  fun _ _ _ h => absurd h not_gives_failAfter

theorem bind {r : Reader α} {f : α → Reader β} (hr : Forward r) (hf : ∀ a, Forward (f a)) :
    Forward (r >>= f) := by
  intro c b d h
  obtain ⟨a, e, hfirst, hsecond⟩ := gives_bind.1 h
  exact (hf a e b d hsecond).trans (hr c a e hfirst)

theorem ite {p : Prop} [Decidable p] {r s : Reader α} (hr : Forward r) (hs : Forward s) :
    Forward (if p then r else s) := by
  split
  · exact hr
  · exact hs

theorem peek : Forward peek := by
  intro c a d h
  obtain ⟨-, rfl⟩ := Outcome.done.inj h
  exact List.suffix_rfl

theorem peekToken : Forward peekToken := by
  intro c a d h
  obtain ⟨-, rfl⟩ := Outcome.done.inj h
  exact forward_skipBlanks c

theorem advance : Forward advance := by
  intro c a d h
  obtain ⟨-, rfl⟩ := Outcome.done.inj h
  exact forward_tail c

theorem digits : Forward digits := by
  intro c a d h
  obtain ⟨-, rfl⟩ := Outcome.done.inj h
  exact List.dropWhile_suffix _

theorem word (expected : List Char) : Forward (word expected) := by
  induction expected with
  | nil => exact .pure ()
  | cons e more ih =>
    refine .bind .peek fun first => ?_
    split
    · exact .fail _
    · exact .ite (.bind .advance fun _ => ih) (.failAfter _)

theorem hexDigits : Forward hexDigits := by
  intro c n d h
  unfold Gives Reader.hexDigits at h
  split at h
  · rename_i rest heq
    split at h
    · obtain ⟨-, rfl⟩ := Outcome.done.inj h
      rw [heq]
      exact List.suffix_append [_, _, _, _] rest
    · unfold hexDigits.wrong at h
      split at h <;> cases h
  · unfold hexDigits.wrong at h
    split at h <;> cases h

theorem expect (wanted : Char) : Forward (lowSurrogate.expect wanted) := by
  refine .bind .peek fun first => ?_
  split
  · exact .fail _
  · exact .ite .advance (.failAfter _)

theorem lowSurrogate (high : Nat) : Forward (lowSurrogate high) := by
  refine .bind (.expect _) fun _ => .bind (.expect _) fun _ => .bind .hexDigits fun low => ?_
  exact .ite (.pure _) (.fail _)

theorem escape : Forward escape := by
  refine .bind .peek fun first => ?_
  split
  · exact .fail _
  · exact .bind .advance fun _ => .bind .hexDigits fun n =>
      .ite (.fail _) (.ite (.lowSurrogate _) (.pure _))
  · split
    · exact .bind .advance fun _ => .pure _
    · exact .failAfter _

theorem stringBody (fuel before : List Char) : Forward (stringBody fuel before) := by
  induction fuel generalizing before with
  | nil => exact .fail _
  | cons _ fuel ih =>
    refine .bind .peek fun first => ?_
    split
    · exact .fail _
    · exact .bind .advance fun _ => .pure _
    · exact .bind .advance fun _ => .bind .escape fun _ => ih _
    · exact .ite (.failAfter _) (.bind .advance fun _ => ih _)

theorem string : Forward string :=
  fun c => (Forward.bind (.stringBody c.rest []) fun _ => .pure _) c

theorem realNumber (negative : Bool) (x : Binary64) : Forward (realNumber negative x) := by
  unfold Reader.realNumber
  split
  · exact .pure _
  · exact .fail _

theorem scaledNumber (negative : Bool) (significand : Nat) (exponent : Int) :
    Forward (scaledNumber negative significand exponent) := by
  unfold Reader.scaledNumber
  split
  · exact .realNumber _ _
  · exact .fail _

theorem exponentSign : Forward exponentSign := by
  refine .bind .peek fun first => ?_
  split
  · exact .bind .advance fun _ => .pure _
  · exact .bind .advance fun _ => .pure _
  · exact .pure _

theorem exponentPart (negative : Bool) (significand : Nat) (exponent : Int) :
    Forward (exponentPart negative significand exponent) := by
  refine .bind .exponentSign fun down => .bind .peek fun first => ?_
  split
  · exact .fail _
  · refine .ite ?_ (.failAfter _)
    intro c n d h
    have hdigits : (c.skipWhile Char.isDigit).rest <:+ c.rest := List.dropWhile_suffix _
    unfold Gives at h
    dsimp only at h
    split at h
    · exact (Forward.scaledNumber _ _ _ _ _ _ h).trans hdigits
    · split at h
      · cases h
      · exact (Forward.realNumber _ _ _ _ _ h).trans hdigits

theorem fractionPart (negative : Bool) (significand exponent : Nat) :
    Forward (fractionPart negative significand exponent) := by
  refine .bind .digits fun places => .ite ?_ ?_
  · refine .bind .peek fun first => ?_
    split
    · exact .failNext _
    · exact .failNext _
  · refine .bind .peek fun first => ?_
    split
    · exact .bind .advance fun _ => .exponentPart _ _ _
    · exact .bind .advance fun _ => .exponentPart _ _ _
    · exact .scaledNumber _ _ _

theorem wholeNumber (negative : Bool) (n : Nat) : Forward (wholeNumber negative n) := by
  unfold Reader.wholeNumber
  split
  · split
    · exact .pure _
    · exact .fail _
  · split
    · exact .realNumber _ _
    · split
      · exact .pure _
      · exact .fail _

theorem leading (first : Char) : Forward (number.leading first) := by
  refine .ite (.bind .advance fun _ => .bind .peek fun next => ?_) .digits
  split
  · exact .ite (.failNext _) (.pure _)
  · exact .pure _

theorem afterLeading (negative : Bool) (significand left : Nat) : Forward (do
    match ← Reader.peek with
    | some '.' => do Reader.advance; Reader.fractionPart negative significand left
    | some 'e' | some 'E' => do Reader.advance; Reader.exponentPart negative significand left
    | _ =>
      if left = 0 then Reader.wholeNumber negative significand
      else Reader.scaledNumber negative significand left) := by
  refine .bind .peek fun next => ?_
  split
  · exact .bind .advance fun _ => .fractionPart _ _ _
  · exact .bind .advance fun _ => .exponentPart _ _ _
  · exact .bind .advance fun _ => .exponentPart _ _ _
  · exact .ite (.wholeNumber _ _) (.scaledNumber _ _ _)

theorem number (negative : Bool) : Forward (number negative) := by
  refine .bind .peek fun first => ?_
  split
  · exact .fail _
  · exact .ite (.failAfter _) (.bind (.leading _) fun ds => .afterLeading _ _ _)

theorem leading_shorter {first : Char} {ds : List Char} (hhead : c.rest.head? = some first)
    (hfirst : first.isDigit = true) (h : Gives (Reader.number.leading first) c ds d) :
    d.rest.length < c.rest.length := by
  have hrest := rest_eq_cons hhead
  have htail := length_tail hhead
  unfold Reader.number.leading at h
  split at h
  · rw [gives_advance, gives_peek] at h
    have hle : d.rest.length ≤ c.tail.rest.length := by
      split at h
      · exact (Forward.ite (.failNext _) (.pure _)).length_le h
      · exact (Forward.pure _).length_le h
    omega
  · obtain ⟨-, rfl⟩ := Outcome.done.inj h
    have hdrop : c.rest.dropWhile Char.isDigit = c.tail.rest.dropWhile Char.isDigit := by
      rw [hrest, List.dropWhile_cons_of_pos hfirst]
    have hle := (List.dropWhile_suffix (l := c.tail.rest) Char.isDigit).length_le
    unfold Cursor.skipWhile
    dsimp only
    rw [hdrop]
    omega

theorem number_shorter {negative : Bool} {n : Number} (h : Gives (Reader.number negative) c n d) :
    d.rest.length < c.rest.length := by
  unfold Reader.number at h
  rw [gives_peek] at h
  split at h
  · exact absurd h not_gives_fail
  · rename_i first hhead
    split at h
    · exact absurd h not_gives_failAfter
    · rename_i hfirst
      obtain ⟨ds, e, hleading, h⟩ := gives_bind.1 h
      have hshorter := leading_shorter hhead (by simpa using hfirst) hleading
      have hle := (afterLeading negative _ _).length_le h
      omega

theorem anotherItem (first : Bool) : Forward (anotherItem first) := by
  refine .bind .peekToken fun next => ?_
  split
  · exact .failNext _
  · exact .pure _
  · refine .ite (.pure _) (.ite (.bind .advance fun _ => .bind .peekToken fun next => ?_) (.failNext _))
    split
    · exact .failNext _
    · exact .failNext _
    · exact .pure _

theorem anotherKey (first : Bool) : Forward (anotherKey first) := by
  refine .bind .peekToken fun next => ?_
  split
  · exact .failNext _
  · exact .pure _
  · refine .ite (.ite (.pure _) (.failNext _))
      (.ite (.bind .advance fun _ => .bind .peekToken fun next => ?_) (.failNext _))
    split
    · exact .failNext _
    · exact .pure _
    · exact .failNext _
    · exact .failNext _

theorem key : Forward key := .bind .advance fun _ => .string

theorem colon : Forward colon := by
  refine .bind .peekToken fun next => ?_
  split
  · exact .failNext _
  · exact .advance
  · exact .failNext _

theorem closeArray : Forward closeArray := by
  refine .bind .peekToken fun next => ?_
  split
  · exact .failNext _
  · exact .advance
  · refine .bind .advance fun _ => .bind .peekToken fun next => ?_
    split
    · exact .failNext _
    · exact .failNext _
  · exact .failNext _

theorem closeObject : Forward closeObject := by
  refine .bind .peekToken fun next => ?_
  split
  · exact .failNext _
  · exact .advance
  · exact .failNext _
  · exact .failNext _

end Forward

theorem gives_atEnd : Gives atEnd c () d ↔ c.skipBlanks.rest = [] ∧ d = c.skipBlanks := by
  unfold atEnd
  rw [gives_peekToken]
  cases hrest : c.skipBlanks.rest with
  | nil =>
    rw [List.head?_nil, gives_pure]
    simp [eq_comm]
  | cons ch rest =>
    rw [List.head?_cons]
    simp [not_gives_failNext]

/-- Behind what is read from a text there is nothing but blanks. -/
theorem run_eq_ok_iff {r : Reader α} {s : String} {a : α} :
    r.run s = .ok a ↔ ∃ d, Gives r (.ofText s) a d ∧ d.skipBlanks.rest = [] := by
  have hall : r.run s = .ok a ↔ ∃ e, Gives (do let a ← r; atEnd; pure a) (.ofText s) a e := by
    unfold run Gives
    cases (do let a ← r; atEnd; pure a : Reader α) (.ofText s) <;> simp
  rw [hall]
  constructor
  · rintro ⟨e, h⟩
    obtain ⟨a', d, hread, h⟩ := gives_bind.1 h
    obtain ⟨⟨⟩, f, hend, h⟩ := gives_bind.1 h
    obtain ⟨rfl, rfl⟩ := gives_pure.1 h
    exact ⟨d, hread, (gives_atEnd.1 hend).1⟩
  · rintro ⟨d, hread, hend⟩
    exact ⟨d.skipBlanks, gives_bind.2
      ⟨a, d, hread, gives_bind.2 ⟨(), _, gives_atEnd.2 ⟨hend, rfl⟩, gives_pure.2 ⟨rfl, rfl⟩⟩⟩⟩

end Reader
end ProfilingAgent.Json

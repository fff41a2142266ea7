import ProfilingAgent.Proofs.Trimming
import ProfilingAgent.Settings.Basic

set_option autoImplicit false

namespace ProfilingAgent

namespace Text

variable {before after : List Char} {s : String}

theorem trimStart_append (h : ∀ c ∈ before, isBlank c = true) (cs : List Char) :
    trimStart (before ++ cs) = trimStart cs := List.dropWhile_append_of_pos h

theorem trimEnd_append (h : ∀ c ∈ after, isBlank c = true) (cs : List Char) :
    trimEnd (cs ++ after) = trimEnd cs := by
  have hblank : ∀ c ∈ after.reverse, isBlank c = true := fun c hc => h c (List.mem_reverse.1 hc)
  have hreverse := trimStart_append hblank cs.reverse
  rw [← List.reverse_append] at hreverse
  exact congrArg List.reverse hreverse

theorem trimChars_padded (hbefore : ∀ c ∈ before, isBlank c = true)
    (hafter : ∀ c ∈ after, isBlank c = true) (cs : List Char) : trimChars (before ++ cs ++ after) = trimChars cs := by
  unfold trimChars
  rw [List.append_assoc, trimStart_append hbefore]
  by_cases hcs : ∀ c ∈ cs, isBlank c = true
  · have hblank : trimStart cs = [] := List.dropWhile_eq_nil_iff.2 hcs
    have hrest : trimStart after = [] := List.dropWhile_eq_nil_iff.2 hafter
    rw [trimStart_append hcs, hblank, hrest]
  · have hstart : trimStart (cs ++ after) = trimStart cs ++ after := by
      unfold trimStart
      rw [List.dropWhile_append, if_neg (by simpa [List.isEmpty_iff, List.dropWhile_eq_nil_iff] using hcs)]
    rw [hstart, trimEnd_append hafter]

theorem toList_trim (s : String) : (trim s).toList = trimChars s.toList := String.toList_ofList

theorem trim_trim (s : String) : trim (trim s) = trim s := by
  rw [← String.toList_inj, toList_trim (trim s), toList_trim s]
  exact trimChars_trimChars s.toList

theorem trim_eq_empty_iff : trim s = "" ↔ allBlank s = true := by
  rw [← String.toList_inj, toList_trim]
  unfold allBlank
  rw [List.all_eq_true]
  exact trimChars_eq_nil_iff

structure Margin where
  before : String
  after : String
  blank : allBlank before = true ∧ allBlank after = true

def Margin.around (m : Margin) (s : String) : String := m.before ++ s ++ m.after

theorem Margin.trim_around (m : Margin) (s : String) : trim (m.around s) = trim s := by
  obtain ⟨hbefore, hafter⟩ := m.blank
  unfold allBlank at hbefore hafter
  rw [List.all_eq_true] at hbefore hafter
  unfold trim around
  rw [String.toList_append, String.toList_append, trimChars_padded hbefore hafter]

end Text

namespace Credentials

variable {v : Option String} {t : String}

/-- A text that is not blank was set, and this is what is between the blanks around it. -/
def Given (v : Option String) (t : String) : Prop :=
  ∃ s, v = some s ∧ Text.allBlank s = false ∧ t = Text.trim s

theorem nonBlank?_eq_some_iff : nonBlank? v = some t ↔ Given v t := by
  unfold nonBlank? Given
  cases v with
  | none => simp
  | some s =>
    rw [Option.map_some, Option.filter_eq_some_iff, Option.some.injEq]
    constructor
    · rintro ⟨rfl, ht⟩
      exact ⟨s, rfl, by simpa [Text.trim_eq_empty_iff] using ht, rfl⟩
    · rintro ⟨_, hs, hblank, rfl⟩
      obtain rfl := Option.some.inj hs
      exact ⟨rfl, by simpa [Text.trim_eq_empty_iff] using hblank⟩

theorem nonBlank?_eq_none_iff : nonBlank? v = none ↔ ∀ t, ¬Given v t := by
  simp only [← nonBlank?_eq_some_iff, ← Option.eq_none_iff_forall_ne_some]

theorem Given.settled (h : Given v t) : t ≠ "" ∧ Text.trim t = t := by
  obtain ⟨s, -, hblank, rfl⟩ := h
  refine ⟨fun hempty => ?_, Text.trim_trim s⟩
  rw [Text.trim_eq_empty_iff.1 hempty] at hblank
  cases hblank

theorem nonBlank?_of_settled (h : t ≠ "" ∧ Text.trim t = t) : nonBlank? (some t) = some t := by
  unfold nonBlank?
  rw [Option.map_some, h.2, Option.filter_some_pos (by simpa using h.1)]

theorem nonBlank?_nonBlank? (v : Option String) : nonBlank? (nonBlank? v) = nonBlank? v := by
  cases h : nonBlank? v with
  | none => rfl
  | some t => exact nonBlank?_of_settled (nonBlank?_eq_some_iff.1 h).settled

theorem nonBlank?_around (m : Text.Margin) (v : Option String) :
    nonBlank? (v.map m.around) = nonBlank? v := by
  unfold nonBlank?
  rw [Option.map_map]
  congr 2
  funext s
  exact m.trim_around s

theorem ofParts_congr {token username password token' username' password' : Option String}
    (htoken : nonBlank? token = nonBlank? token') (husername : nonBlank? username = nonBlank? username')
    (hpassword : nonBlank? password = nonBlank? password') :
    ofParts token username password = ofParts token' username' password' := by
  unfold ofParts
  rw [htoken, husername, hpassword]

section Choice

variable (token username password : Option String)

theorem ofParts_cases :
    (∃ t, ofParts token username password = .token t ∧ Given token t) ∨
      (∀ t, ¬Given token t) ∧
        ((∃ u p, ofParts token username password = .basic u p ∧ Given username u ∧ Given password p) ∨
          ofParts token username password = .absent ∧
            ((∀ u, ¬Given username u) ∨ ∀ p, ¬Given password p)) := by
  unfold ofParts
  cases htoken : nonBlank? token with
  | some t => exact .inl ⟨t, rfl, nonBlank?_eq_some_iff.1 htoken⟩
  | none =>
    refine .inr ⟨nonBlank?_eq_none_iff.1 htoken, ?_⟩
    cases husername : nonBlank? username with
    | none => exact .inr ⟨rfl, .inl (nonBlank?_eq_none_iff.1 husername)⟩
    | some u =>
      cases hpassword : nonBlank? password with
      | none => exact .inr ⟨rfl, .inr (nonBlank?_eq_none_iff.1 hpassword)⟩
      | some p =>
        exact .inl ⟨u, p, rfl, nonBlank?_eq_some_iff.1 husername, nonBlank?_eq_some_iff.1 hpassword⟩

variable {token username password} {u p : String}

theorem Given.unique {v : Option String} {s t : String} (hs : Given v s) (ht : Given v t) : s = t :=
  Option.some.inj ((nonBlank?_eq_some_iff.2 hs).symm.trans (nonBlank?_eq_some_iff.2 ht))

theorem ofParts_eq_token_iff : ofParts token username password = .token t ↔ Given token t := by
  rcases ofParts_cases token username password with
    ⟨s, heq, hs⟩ | ⟨hnone, ⟨u, p, heq, -, -⟩ | ⟨heq, -⟩⟩ <;> rw [heq]
  · rw [Credentials.token.injEq]
    exact ⟨fun h => h ▸ hs, hs.unique⟩
  · exact ⟨nofun, fun h => (hnone t h).elim⟩
  · exact ⟨nofun, fun h => (hnone t h).elim⟩

theorem ofParts_eq_basic_iff : ofParts token username password = .basic u p ↔
    (∀ t, ¬Given token t) ∧ Given username u ∧ Given password p := by
  rcases ofParts_cases token username password with
    ⟨s, heq, hs⟩ | ⟨hnone, ⟨v, q, heq, hv, hq⟩ | ⟨heq, hmissing⟩⟩ <;> rw [heq]
  · exact ⟨nofun, fun h => (h.1 s hs).elim⟩
  · rw [Credentials.basic.injEq]
    constructor
    · rintro ⟨rfl, rfl⟩
      exact ⟨hnone, hv, hq⟩
    · rintro ⟨-, hu, hp⟩
      exact ⟨hv.unique hu, hq.unique hp⟩
  · refine ⟨nofun, fun ⟨_, hu, hp⟩ => ?_⟩
    rcases hmissing with hmissing | hmissing
    · exact (hmissing u hu).elim
    · exact (hmissing p hp).elim

theorem ofParts_eq_absent_iff : ofParts token username password = .absent ↔
    (∀ t, ¬Given token t) ∧ ((∀ u, ¬Given username u) ∨ ∀ p, ¬Given password p) := by
  rcases ofParts_cases token username password with
    ⟨s, heq, hs⟩ | ⟨hnone, ⟨v, q, heq, hv, hq⟩ | ⟨heq, hmissing⟩⟩ <;> rw [heq]
  · exact ⟨nofun, fun h => (h.1 s hs).elim⟩
  · refine ⟨nofun, fun ⟨_, hmissing⟩ => ?_⟩
    rcases hmissing with hmissing | hmissing
    · exact (hmissing v hv).elim
    · exact (hmissing q hq).elim
  · exact ⟨fun _ => ⟨hnone, hmissing⟩, fun _ => rfl⟩

end Choice

def token? : Credentials → Option String
  | token t => some t
  | _ => none

def username? : Credentials → Option String
  | basic u _ => some u
  | _ => none

def password? : Credentials → Option String
  | basic _ p => some p
  | _ => none

def texts (c : Credentials) : List String :=
  c.token?.toList ++ c.username?.toList ++ c.password?.toList

theorem ofParts_settled {token username password : Option String} {t : String}
    (ht : t ∈ (ofParts token username password).texts) : t ≠ "" ∧ Text.trim t = t := by
  rcases ofParts_cases token username password with
    ⟨s, heq, hs⟩ | ⟨-, ⟨u, p, heq, hu, hp⟩ | ⟨heq, -⟩⟩ <;> rw [heq] at ht
  · obtain rfl : t = s := by simpa [texts, token?, username?, password?] using ht
    exact hs.settled
  · obtain rfl | rfl : t = u ∨ t = p := by simpa [texts, token?, username?, password?] using ht
    · exact hu.settled
    · exact hp.settled
  · simp [texts, token?, username?, password?] at ht

theorem ofParts_parts {c : Credentials} (h : ∀ t ∈ c.texts, nonBlank? (some t) = some t) :
    ofParts c.token? c.username? c.password? = c := by
  cases c with
  | absent => rfl
  | token t =>
    have ht : nonBlank? (some t) = some t := h t (by simp [texts, token?])
    unfold ofParts token?
    rw [ht]
  | basic u p =>
    have hu : nonBlank? (some u) = some u := h u (by simp [texts, username?])
    have hp : nonBlank? (some p) = some p := h p (by simp [texts, password?])
    unfold ofParts username? password?
    rw [hu, hp]
    rfl

end Credentials

def Settings.layer (s : Settings) : Layer where
  applicationName := some s.applicationName
  serverAddress := some s.serverAddress
  authToken := s.credentials.token?
  basicAuthUsername := s.credentials.username?
  basicAuthPassword := s.credentials.password?
  sampleRate := some s.sampleRate
  detectSubprocesses := some s.detectSubprocesses
  onCpu := some s.onCpu
  reportPid := some s.reportPid
  reportThreadId := some s.reportThreadId
  reportThreadName := some s.reportThreadName
  autoinstrument := some s.autoinstrument
  logLevel := some s.logLevel
  compression := some s.compression
  reportEncoding := some s.reportEncoding
  tenantId := s.tenantId
  httpHeaders := some s.httpHeaders
  tags := some s.tags

namespace Layer

open Credentials Text

/-- Blanks put around the secrets and the tenant that a layer sets. -/
def padded (r : Layer) (token username password tenant : Margin) : Layer :=
  { r with
    authToken := r.authToken.map token.around
    basicAuthUsername := r.basicAuthUsername.map username.around
    basicAuthPassword := r.basicAuthPassword.map password.around
    tenantId := r.tenantId.map tenant.around }

theorem usableRate_ne_zero (n : Option UInt32) : usableRate n ≠ 0 := by
  unfold usableRate
  split
  · split
    · decide
    · assumption
  · decide

theorem usableRate_of_ne_zero {n : UInt32} (h : n ≠ 0) : usableRate (some n) = n := if_neg h

theorem resolve_padded (r : Layer) (token username password tenant : Margin) :
    (r.padded token username password tenant).resolve = r.resolve := by
  unfold resolve padded
  simp only [ofParts_congr (nonBlank?_around token r.authToken)
    (nonBlank?_around username r.basicAuthUsername) (nonBlank?_around password r.basicAuthPassword),
    nonBlank?_around tenant r.tenantId]

theorem resolve_layer {s : Settings} (hrate : s.sampleRate ≠ 0)
    (htexts : ∀ t ∈ s.credentials.texts, nonBlank? (some t) = some t)
    (htenant : nonBlank? s.tenantId = s.tenantId) : s.layer.resolve = s := by
  unfold resolve Settings.layer
  simp only [Option.getD_some, ofParts_parts htexts, usableRate_of_ne_zero hrate, htenant]

/-- Resolving normalises. The rate is usable. The tenant is the given one without the blanks around it,
or absent. A token that is given is chosen; otherwise a username and a password that are both given;
otherwise nothing. No blank around a secret or the tenant counts, and resolved settings that are written
back as a layer are resolved to themselves. -/
theorem resolve_normalises (r : Layer) :
    1 ≤ r.resolve.sampleRate ∧
    (∀ t, r.resolve.tenantId = some t ↔ Given r.tenantId t) ∧
    (∀ t, r.resolve.tenantId = some t → t ≠ "" ∧ trim t = t) ∧
    (∀ t, r.resolve.credentials = .token t ↔ Given r.authToken t) ∧
    (∀ u p, r.resolve.credentials = .basic u p ↔
      (∀ t, ¬Given r.authToken t) ∧ Given r.basicAuthUsername u ∧ Given r.basicAuthPassword p) ∧
    (r.resolve.credentials = .absent ↔
      (∀ t, ¬Given r.authToken t) ∧
        ((∀ u, ¬Given r.basicAuthUsername u) ∨ ∀ p, ¬Given r.basicAuthPassword p)) ∧
    (∀ t ∈ r.resolve.credentials.texts, t ≠ "" ∧ trim t = t) ∧
    (∀ token username password tenant : Margin,
      (r.padded token username password tenant).resolve = r.resolve) ∧
    r.resolve.layer.resolve = r.resolve := by
  have hrate : r.resolve.sampleRate ≠ 0 := usableRate_ne_zero r.sampleRate
  have htenant : ∀ t, r.resolve.tenantId = some t ↔ Given r.tenantId t := fun _ => nonBlank?_eq_some_iff
  have htexts : ∀ t ∈ r.resolve.credentials.texts, t ≠ "" ∧ trim t = t := fun _ => ofParts_settled
  refine ⟨?_, htenant, fun t ht => ((htenant t).1 ht).settled, fun _ => ofParts_eq_token_iff,
    fun _ _ => ofParts_eq_basic_iff, ofParts_eq_absent_iff, htexts, r.resolve_padded, ?_⟩
  · rw [UInt32.le_iff_toNat_le]
    exact Nat.one_le_iff_ne_zero.2 fun h => hrate (UInt32.toNat_inj.1 h)
  · exact resolve_layer hrate (fun t ht => nonBlank?_of_settled (htexts t ht))
      (nonBlank?_nonBlank? r.tenantId)

end Layer
end ProfilingAgent

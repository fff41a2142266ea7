import ProfilingAgent.Settings.Sources

set_option autoImplicit false

namespace ProfilingAgent

def Setting.Value : Setting → Type
  | applicationName | serverAddress | authToken | basicAuthUsername | basicAuthPassword
  | tenantId => String
  | sampleRate => UInt32
  | detectSubprocesses | onCpu | reportPid | reportThreadId | reportThreadName
  | autoinstrument => Bool
  | logLevel => Level
  | compression => Compression
  | reportEncoding => ReportEncoding
  | httpHeaders | tags => Dict String

namespace Layer

def get (l : Layer) : (s : Setting) → Option s.Value
  | .applicationName => l.applicationName
  | .serverAddress => l.serverAddress
  | .authToken => l.authToken
  | .basicAuthUsername => l.basicAuthUsername
  | .basicAuthPassword => l.basicAuthPassword
  | .sampleRate => l.sampleRate
  | .detectSubprocesses => l.detectSubprocesses
  | .onCpu => l.onCpu
  | .reportPid => l.reportPid
  | .reportThreadId => l.reportThreadId
  | .reportThreadName => l.reportThreadName
  | .autoinstrument => l.autoinstrument
  | .logLevel => l.logLevel
  | .compression => l.compression
  | .reportEncoding => l.reportEncoding
  | .tenantId => l.tenantId
  | .httpHeaders => l.httpHeaders
  | .tags => l.tags

theorem ext_get {a b : Layer} (h : ∀ s, a.get s = b.get s) : a = b := by
  cases a
  cases b
  simp only [Layer.mk.injEq]
  exact ⟨h .applicationName, h .serverAddress, h .authToken, h .basicAuthUsername,
    h .basicAuthPassword, h .sampleRate, h .detectSubprocesses, h .onCpu, h .reportPid,
    h .reportThreadId, h .reportThreadName, h .autoinstrument, h .logLevel, h .compression,
    h .reportEncoding, h .tenantId, h .httpHeaders, h .tags⟩

theorem get_empty (s : Setting) : empty.get s = none := by cases s <;> rfl

theorem get_onto (upper lower : Layer) (s : Setting) :
    (upper.onto lower).get s = (upper.get s).or (lower.get s) := by
  cases s <;> exact Option.orElse_eq_or

theorem onto_assoc (a b c : Layer) : (a.onto b).onto c = a.onto (b.onto c) := by
  apply ext_get
  intro s
  simp only [get_onto, Option.or_assoc]

def pile (layers : List Layer) (below : Layer) : Layer := layers.foldl (fun b l => l.onto b) below

theorem get_pile (layers : List Layer) (below : Layer) (s : Setting) :
    (pile layers below).get s = (layers.filterMap (·.get s)).getLast?.or (below.get s) := by
  induction layers generalizing below with
  | nil => rfl
  | cons l rest ih =>
    rw [pile, List.foldl_cons, ← pile, ih, get_onto]
    simp only [List.filterMap_cons]
    cases l.get s with
    | none => rw [Option.none_or]
    | some v =>
      rw [List.getLast?_cons, Option.some_or]
      cases (rest.filterMap (·.get s)).getLast? <;> rfl

theorem pile_pile (layers : List Layer) (below : Layer) :
    pile layers (pile layers below) = pile layers below := by
  apply ext_get
  intro s
  simp only [get_pile]
  rw [← Option.or_assoc, Option.or_self]

end Layer
end ProfilingAgent

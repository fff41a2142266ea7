import ProfilingAgent.Dict
import ProfilingAgent.Log.Level
import ProfilingAgent.Settings.Upload

set_option autoImplicit false

namespace ProfilingAgent

inductive Setting
  | applicationName | serverAddress | authToken | basicAuthUsername | basicAuthPassword
  | sampleRate | detectSubprocesses | onCpu | reportPid | reportThreadId | reportThreadName
  | autoinstrument | logLevel | compression | reportEncoding | tenantId | httpHeaders | tags
deriving DecidableEq, Repr

namespace Setting

def all : List Setting :=
  [applicationName, serverAddress, authToken, basicAuthUsername, basicAuthPassword, sampleRate,
   detectSubprocesses, onCpu, reportPid, reportThreadId, reportThreadName, autoinstrument,
   logLevel, compression, reportEncoding, tenantId, httpHeaders, tags]

def name : Setting → String
  | applicationName => "application_name"
  | serverAddress => "server_address"
  | authToken => "auth_token"
  | basicAuthUsername => "basic_auth_username"
  | basicAuthPassword => "basic_auth_password"
  | sampleRate => "sample_rate"
  | detectSubprocesses => "detect_subprocesses"
  | onCpu => "oncpu"
  | reportPid => "report_pid"
  | reportThreadId => "report_thread_id"
  | reportThreadName => "report_thread_name"
  | autoinstrument => "autoinstrument"
  | logLevel => "log_level"
  | compression => "compression"
  | reportEncoding => "report_encoding"
  | tenantId => "tenant_id"
  | httpHeaders => "http_headers"
  | tags => "tags"

def ofName? (s : String) : Option Setting := all.find? (·.name == s)

theorem ofName?_name (s : Setting) : ofName? s.name = some s := by cases s <;> decide

theorem name_injective {s t : Setting} (h : s.name = t.name) : s = t :=
  Option.some.inj (by rw [← ofName?_name s, ← ofName?_name t, h])

end Setting

structure Layer where
  applicationName : Option String := none
  serverAddress : Option String := none
  authToken : Option String := none
  basicAuthUsername : Option String := none
  basicAuthPassword : Option String := none
  sampleRate : Option UInt32 := none
  detectSubprocesses : Option Bool := none
  onCpu : Option Bool := none
  reportPid : Option Bool := none
  reportThreadId : Option Bool := none
  reportThreadName : Option Bool := none
  autoinstrument : Option Bool := none
  logLevel : Option Level := none
  compression : Option Compression := none
  reportEncoding : Option ReportEncoding := none
  tenantId : Option String := none
  httpHeaders : Option (Dict String) := none
  tags : Option (Dict String) := none
deriving DecidableEq, Inhabited

namespace Layer

def empty : Layer := {}

def onto (upper lower : Layer) : Layer where
  applicationName := upper.applicationName <|> lower.applicationName
  serverAddress := upper.serverAddress <|> lower.serverAddress
  authToken := upper.authToken <|> lower.authToken
  basicAuthUsername := upper.basicAuthUsername <|> lower.basicAuthUsername
  basicAuthPassword := upper.basicAuthPassword <|> lower.basicAuthPassword
  sampleRate := upper.sampleRate <|> lower.sampleRate
  detectSubprocesses := upper.detectSubprocesses <|> lower.detectSubprocesses
  onCpu := upper.onCpu <|> lower.onCpu
  reportPid := upper.reportPid <|> lower.reportPid
  reportThreadId := upper.reportThreadId <|> lower.reportThreadId
  reportThreadName := upper.reportThreadName <|> lower.reportThreadName
  autoinstrument := upper.autoinstrument <|> lower.autoinstrument
  logLevel := upper.logLevel <|> lower.logLevel
  compression := upper.compression <|> lower.compression
  reportEncoding := upper.reportEncoding <|> lower.reportEncoding
  tenantId := upper.tenantId <|> lower.tenantId
  httpHeaders := upper.httpHeaders <|> lower.httpHeaders
  tags := upper.tags <|> lower.tags

theorem empty_onto (l : Layer) : empty.onto l = l := rfl

theorem onto_empty (l : Layer) : l.onto empty = l := by
  cases l
  simp [onto, empty]

end Layer
end ProfilingAgent

import ProfilingAgent.Json.Value
import ProfilingAgent.Log.Noted
import ProfilingAgent.Settings.Credentials
import ProfilingAgent.Settings.Layer

set_option autoImplicit false

/-!
# Settings

What an agent runs with: a layer with every gap filled. Resolving a layer never fails. A sample
rate of zero and a blank tenant count as open. Settings are shown in two ways, as data and as a
description, and neither shows a secret.
-/
namespace ProfilingAgent

structure Settings where
  applicationName : String
  serverAddress : String
  credentials : Credentials
  sampleRate : UInt32
  detectSubprocesses : Bool
  onCpu : Bool
  reportPid : Bool
  reportThreadId : Bool
  reportThreadName : Bool
  autoinstrument : Bool
  logLevel : Level
  compression : Compression
  reportEncoding : ReportEncoding
  tenantId : Option String
  httpHeaders : Dict String
  tags : Dict String
deriving DecidableEq, Inhabited

def defaultServerAddress : String := "http://localhost:4040"

def defaultSampleRate : UInt32 := 100

namespace Layer

def usableRate : Option UInt32 → UInt32
  | some n => if n = 0 then defaultSampleRate else n
  | none => defaultSampleRate

def resolve (l : Layer) : Settings where
  applicationName := l.applicationName.getD ""
  serverAddress := l.serverAddress.getD defaultServerAddress
  credentials := .ofParts l.authToken l.basicAuthUsername l.basicAuthPassword
  sampleRate := usableRate l.sampleRate
  detectSubprocesses := l.detectSubprocesses.getD false
  onCpu := l.onCpu.getD true
  reportPid := l.reportPid.getD false
  reportThreadId := l.reportThreadId.getD false
  reportThreadName := l.reportThreadName.getD false
  autoinstrument := l.autoinstrument.getD true
  logLevel := l.logLevel.getD .error
  compression := l.compression.getD .gzip
  reportEncoding := l.reportEncoding.getD .pprof
  tenantId := Credentials.nonBlank? l.tenantId
  httpHeaders := l.httpHeaders.getD .empty
  tags := l.tags.getD .empty

def remarks (l : Layer) : List Log.Event :=
  if l.sampleRate = some 0 then
    [.say .debug ("Sample rate 0 is not usable, using " ++
      Text.numeral defaultSampleRate.toNat ++ "Hz")]
  else []

def settle (l : Layer) : Log.Noted Settings := ⟨l.resolve, l.remarks⟩

end Layer

namespace Settings

open Json

def optionalText : Option String → Value
  | none => .null
  | some s => .string s

/-- The settings as data, without headers and with the credentials' scheme alone. -/
def toValue (s : Settings) : Value :=
  .object
    [("application_name", .string s.applicationName),
     ("server_address", .string s.serverAddress),
     ("credentials", .string s.credentials.scheme),
     ("sample_rate", .number (.ofUInt32 s.sampleRate)),
     ("detect_subprocesses", .bool s.detectSubprocesses),
     ("oncpu", .bool s.onCpu),
     ("report_pid", .bool s.reportPid),
     ("report_thread_id", .bool s.reportThreadId),
     ("report_thread_name", .bool s.reportThreadName),
     ("autoinstrument", .bool s.autoinstrument),
     ("log_level", .string s.logLevel.name),
     ("compression", .string s.compression.name),
     ("report_encoding", .string s.reportEncoding.name),
     ("tenant_id", optionalText s.tenantId),
     ("tags", .ofTexts s.tags)]

def json (s : Settings) : String := s.toValue.text

def levelLabel : Level → String
  | .trace => "Trace"
  | .debug => "Debug"
  | .info => "Info"
  | .warn => "Warn"
  | .error => "Error"

def describeTexts (d : Dict String) : String :=
  "\x7b" ++ ", ".intercalate (d.entries.map fun e => Text.quoted e.1 ++ ": " ++ Text.quoted e.2) ++
    "\x7d"

def describeOptional : Option String → String
  | none => "None"
  | some s => "Some(" ++ Text.quoted s ++ ")"

def described (s : Settings) : List (String × String) :=
  [("application_name", Text.quoted s.applicationName),
   ("server_address", Text.quoted s.serverAddress),
   ("credentials", s.credentials.describe),
   ("sample_rate", Text.numeral s.sampleRate.toNat),
   ("detect_subprocesses", Value.boolText s.detectSubprocesses),
   ("oncpu", Value.boolText s.onCpu),
   ("report_pid", Value.boolText s.reportPid),
   ("report_thread_id", Value.boolText s.reportThreadId),
   ("report_thread_name", Value.boolText s.reportThreadName),
   ("autoinstrument", Value.boolText s.autoinstrument),
   ("log_level", levelLabel s.logLevel),
   ("compression", s.compression.label),
   ("report_encoding", s.reportEncoding.label),
   ("tenant_id", describeOptional s.tenantId),
   ("http_headers", describeTexts s.httpHeaders),
   ("tags", describeTexts s.tags)]

def describe (s : Settings) : String :=
  "Config \x7b " ++ ", ".intercalate (s.described.map fun e => e.1 ++ ": " ++ e.2) ++ " \x7d"

end Settings
end ProfilingAgent

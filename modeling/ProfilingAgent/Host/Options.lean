import ProfilingAgent.Settings.Sources
import ProfilingAgent.Tag.Structured

set_option autoImplicit false

/-!
# Options of a host

A host hands over its settings as plain words: texts as bytes up to a zero, or nothing at all; flags
that are negative when they are not set; numbers that are zero when they are not set. What cannot be
used is reported and counts as not set.
-/
namespace ProfilingAgent.Host

open Log

abbrev HostText := Option (List UInt8)

inductive Given
  | nothing
  | invalid
  | text (s : String)
deriving DecidableEq, Repr

/-- A text ends at the first zero byte. -/
def given (t : HostText) : Given :=
  match t with
  | none => .nothing
  | some bytes =>
    match Text.Utf8.decode? (bytes.takeWhile (· ≠ 0)) with
    | none => .invalid
    | some s => .text s

structure Options where
  applicationName : HostText := none
  serverAddress : HostText := none
  authToken : HostText := none
  basicAuthUsername : HostText := none
  basicAuthPassword : HostText := none
  sampleRate : UInt32 := 0
  detectSubprocesses : Int := -1
  onCpu : Int := -1
  reportPid : Int := -1
  reportThreadId : Int := -1
  reportThreadName : Int := -1
  logLevel : UInt32 := 0
  compression : HostText := none
  reportEncoding : HostText := none
  tenantId : HostText := none
  httpHeaders : HostText := none
  tags : HostText := none

def optionText (name : String) (t : HostText) : Noted (Option String) :=
  match given t with
  | .nothing => pure none
  | .invalid => .saying none .warn ("Ignoring " ++ name ++ ": not valid UTF-8")
  | .text s => pure (some s)

def flag (n : Int) : Option Bool := if n < 0 then none else some (n ≠ 0)

def andThen {α : Type} (t : Noted (Option String)) (f : String → Noted (Option α)) :
    Noted (Option α) := do
  match ← t with
  | none => pure none
  | some s => f s

def headersOf (s : String) : Noted (Option (Dict String)) :=
  match Headers.ofText s with
  | .ok d => pure (some d)
  | .error e => .saying none .error ("Ignoring http_headers_json: " ++ e.message)

def compressionOf (s : String) : Noted (Option Compression) :=
  match Compression.ofName? s with
  | some c => pure (some c)
  | none => .saying none .warn ("Unknown compression " ++ Text.quoted s ++ ", using the default")

def reportEncodingOf (s : String) : Noted (Option ReportEncoding) :=
  match ReportEncoding.ofName? s with
  | some e => pure (some e)
  | none =>
    .saying none .warn ("Unknown report encoding " ++ Text.quoted s ++ ", using the default")

def looksStructured (cs : List Char) : Bool := cs.head? == some '[' || cs.head? == some '{'

def tagsOfText (s : String) : Noted (Option (Dict String)) :=
  let trimmed := Text.trim s
  if looksStructured trimmed.toList then
    match Tag.Structured.read trimmed with
    | .ok tags => pure (some (Lenient.dictOfTags tags))
    | .error e => .saying none .error ("Ignoring tags: " ++ e.message)
  else do
    let tags ← Tag.Delimited.read trimmed
    pure (some (Lenient.dictOfTags tags))

def Options.layer (o : Options) : Noted Layer := do
  let httpHeaders ← andThen (optionText "http_headers_json" o.httpHeaders) headersOf
  let compression ← andThen (optionText "compression" o.compression) compressionOf
  let reportEncoding ← andThen (optionText "report_encoding" o.reportEncoding) reportEncodingOf
  let applicationName ← optionText "application_name" o.applicationName
  let serverAddress ← optionText "server_address" o.serverAddress
  let authToken ← optionText "auth_token" o.authToken
  let basicAuthUsername ← optionText "basic_auth_username" o.basicAuthUsername
  let basicAuthPassword ← optionText "basic_auth_password" o.basicAuthPassword
  let tenantId ← optionText "tenant_id" o.tenantId
  let tags ← andThen (optionText "tags" o.tags) tagsOfText
  pure
    { applicationName, serverAddress, authToken, basicAuthUsername, basicAuthPassword
      sampleRate := if o.sampleRate = 0 then none else some o.sampleRate
      detectSubprocesses := flag o.detectSubprocesses
      onCpu := flag o.onCpu
      reportPid := flag o.reportPid
      reportThreadId := flag o.reportThreadId
      reportThreadName := flag o.reportThreadName
      autoinstrument := none
      logLevel := if o.logLevel = 0 then none else some (.ofSeverity o.logLevel)
      compression, reportEncoding, tenantId, httpHeaders, tags }

end ProfilingAgent.Host

import GuardedDump.Duration.Reader
import GuardedDump.Duration.Printer
import GuardedDump.Response
import GuardedDump.World

namespace GuardedDump

structure Settings where
  response : String
  timeout : Duration
  level : Int
  deriving DecidableEq

namespace Settings

def responseVariable : String := "LOCKEDDUMP_ASSERT_MODE"

def timeoutVariable : String := "LOCKEDDUMP_LOCK_WARNING_TIMEOUT"

def levelVariable : String := "LOCKEDDUMP_VERBOSE"

def valueOr (environment : String → Option String) (name default : String) : String :=
  match environment name with
  | none => default
  | some text => if text.isEmpty then default else text

def timeoutFault (text : String) (fault : Duration.Fault) : String :=
  "parse error on field \"LockWarningTimeout\" of type \"time.Duration\": unable to parse duration: " ++
    fault.message text

def levelFault (text : String) (fault : Numeral.Fault) : String :=
  "parse error on field \"VerboseLevel\" of type \"int\": strconv.ParseInt: parsing " ++
    Text.quoted text ++ ": " ++ fault.message

structure ReadError where
  text : String

def ReadError.message (error : ReadError) : String :=
  "parse env: " ++ error.text

def ReadError.ofFaults (faults : List String) : ReadError :=
  ⟨"env: " ++ String.intercalate "; " faults⟩

abbrev Reader := (String → Option String) → Except ReadError Settings

/-- The reader in use. The faults of all variables are reported in the order of the fields. -/
def read : Reader := fun environment =>
  let response := valueOr environment responseVariable "fatal"
  let timeout := valueOr environment timeoutVariable "1s"
  let level := valueOr environment levelVariable "1"
  match Duration.parse timeout, Numeral.readInt32 level.toList with
  | .ok timeout, .ok level => .ok ⟨response, timeout, level⟩
  | .error fault, .ok _ => .error (.ofFaults [timeoutFault timeout fault])
  | .ok _, .error fault => .error (.ofFaults [levelFault level fault])
  | .error fault, .error next =>
    .error (.ofFaults [timeoutFault timeout fault, levelFault level next])

def blank : Settings := ⟨"", .zero, 0⟩

def load (reader : Reader) (environment : String → Option String) : Settings × Option ReadError :=
  match reader environment with
  | .ok settings => (settings, none)
  | .error error => (blank, some error)

inductive ApplyError where
  | unknownResponse (text : String)
  | negativeTimeout (timeout : Duration)
  deriving DecidableEq

def ApplyError.message : ApplyError → String
  | .unknownResponse text => "configure: " ++ Response.unknownMessage text
  | .negativeTimeout timeout => "configure: negative lock warning timeout " ++ timeout.text

end Settings

/-- Apply settings. Both checks come before the first change. -/
def World.apply (world : World) (settings : Settings) : Except Settings.ApplyError World :=
  match Response.parse? settings.response with
  | none => .error (.unknownResponse settings.response)
  | some response =>
    if settings.timeout.isNegative then .error (.negativeTimeout settings.timeout)
    else
      let adjusted := world.modifyLock World.mainLock fun lock =>
        { lock.setLevel settings.level with timeout := settings.timeout }
      .ok { adjusted with hooks := (world.hooks.setResponse response).2 }

end GuardedDump

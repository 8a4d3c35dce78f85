import Multicast.Environment
import Multicast.Log.Filter
import Multicast.Settings.Flag
import Multicast.Telemetry.Endpoint
/-!
Log and span output of the service. Lines of the log go through a filter; spans are sent to a
collector as well if that is switched on. The output can be set up once only.
-/

namespace Multicast

/-- Where spans go, and under which name. -/
structure TelemetrySettings where
  enabled : Bool := false
  endpoint : String := "http://localhost:4317"
  serviceName : String := "stream-fanout"
  deriving DecidableEq, Repr, Inhabited

namespace TelemetrySettings

/-- The variable that switches the sending of spans on. -/
def enabledKey : String := "OTEL_ENABLED"
/-- The variable of the address of the collector. -/
def endpointKey : String := "OTEL_EXPORTER_OTLP_ENDPOINT"
/-- The variable of the name of the service. -/
def serviceNameKey : String := "OTEL_SERVICE_NAME"

def ofEnvironment (env : Environment) : TelemetrySettings where
  enabled := ((env.text? enabledKey).map Settings.exportFlag).getD false
  endpoint := (env.text? endpointKey).getD "http://localhost:4317"
  serviceName := (env.text? serviceNameKey).getD "stream-fanout"

end TelemetrySettings

/-- Why the output could not be set up. -/
inductive TelemetryError
  | exporter (endpoint : String)
  | subscriber
  deriving DecidableEq, Repr

namespace TelemetryError

def heading : TelemetryError → String
  | .exporter _ => "failed to build OTLP exporter"
  | .subscriber => "failed to install tracing subscriber"

def reason : TelemetryError → String
  | .exporter endpoint => "invalid URI " ++ endpoint ++ ". Reason invalid URI"
  | .subscriber => "a global default trace dispatcher has already been set"

def message (e : TelemetryError) : String := e.heading ++ ": " ++ e.reason

end TelemetryError

/-- The output of the service, as far as it has been set up. -/
structure Telemetry where
  /-- The filter of the log; without one nothing is shown. -/
  filter : Option LogFilter := none
  deriving DecidableEq, Repr

namespace Telemetry

/-- Sets the output up. The answer says whether spans are sent. A bad address is found first. -/
def init (t : Telemetry) (settings : TelemetrySettings) (filter : LogFilter) :
    Telemetry × Except TelemetryError Bool :=
  if settings.enabled && !Endpoint.isValid settings.endpoint then
    (t, .error (.exporter settings.endpoint))
  else
    match t.filter with
    | some _ => (t, .error .subscriber)
    | none => ({ filter := some filter }, .ok settings.enabled)

/-- Sets the output up as the environment asks for. -/
def initFrom (t : Telemetry) (env : Environment) : Telemetry × Except TelemetryError Bool :=
  t.init (.ofEnvironment env) (.ofEnvironment env)

/-- Whether a line of the given level from a part of the service is shown. -/
def shows (t : Telemetry) (part : String) (level : LogLevel) : Bool :=
  (t.filter.map fun f => f.shows part level).getD false

def shown (t : Telemetry) (lines : List LogLine) : List LogLine :=
  lines.filter fun l => t.shows l.target l.level

end Telemetry

end Multicast

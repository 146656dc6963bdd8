/-
This file holds the services of the program under their keys. A service can be
replaced by a named stand-in, and the whole registry can be renewed.
-/

namespace CrateAudit

/-- What a key can stand for. -/
inductive Service where
  | announcer
  | files
  | settings
  | guidance
  | terminalReport
  | markdownReport
  | jsonReport
  | standIn (name : String)
  deriving DecidableEq, Repr

/-- The services that are registered. -/
abbrev Registry := List (String × Service)

namespace Registry

/-- The services that every registry starts with. -/
def standard : Registry :=
  [("TelemetryPort", .announcer), ("FileSystemGateway", .files), ("ConfigFileLoader", .settings),
    ("GuidanceService", .guidance), ("ScanReporter", .terminalReport),
    ("MarkdownRenderer", .markdownReport), ("JsonRenderer", .jsonReport)]

/-- Registers a service, in the place of an earlier one with its key. -/
def register (key : String) (service : Service) (registry : Registry) : Registry :=
  (key, service) :: registry.filter fun entry => entry.1 != key

/-- The service with a key. -/
def get? (registry : Registry) (key : String) : Option Service :=
  List.lookup key registry

/-- The complaint about a key without a service. -/
def missingMessage (key : String) : String :=
  "Dependency '" ++ key ++ "' not registered."

end Registry

/-- The registry that all parts of a run share. `renewals` counts how often it was renewed. -/
structure SharedRegistry where
  current : Registry
  renewals : Nat
  deriving DecidableEq, Repr

namespace SharedRegistry

def start : SharedRegistry := ⟨.standard, 0⟩

/-- Starts over with the services that every registry has. -/
def renew (shared : SharedRegistry) : SharedRegistry :=
  ⟨.standard, shared.renewals + 1⟩

/-- Registers a service in the shared registry. -/
def register (key : String) (service : Service) (shared : SharedRegistry) : SharedRegistry :=
  { shared with current := shared.current.register key service }

/-- Whether the registry is still the one from the start. -/
def isFirst (shared : SharedRegistry) : Bool :=
  shared.renewals == 0

end SharedRegistry

end CrateAudit

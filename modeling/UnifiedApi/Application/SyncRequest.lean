import UnifiedApi.Lib.Text
import UnifiedApi.Application.ApplyToCache

/-! # What to sync, and how it is handed to the connector -/

namespace UnifiedApi

/-- The `?host=` form. `none` when no name survives, so that the caller can
fall back to another scope. -/
def SyncScope.hostsFromCsv (value : String) : Option SyncScope :=
  let names := Text.commaNames value
  if names.isEmpty then none else some (.hosts names)

/-- What logs, responses and the history call the scope. -/
def SyncScope.label : SyncScope → String
  | .full => "full"
  | .hosts names => "host:" ++ ",".intercalate names
  | .group name => "group:" ++ name

/-- How many federation hops a refresh may travel unless it says otherwise. -/
def defaultRefreshDepth : UInt8 := 3

structure SyncRequest where
  scope : SyncScope
  refreshOrigin : Bool
  refreshDepth : UInt8
  deriving DecidableEq

namespace SyncRequest

/-- Whatever the source can give without asking anyone else. -/
def new (scope : SyncScope) : SyncRequest := ⟨scope, false, 0⟩

def refreshingOrigin (scope : SyncScope) (refreshDepth : UInt8) : SyncRequest :=
  ⟨scope, true, refreshDepth⟩

/-- The configuration a connector runs with: the source's own, with the scope
and the refresh intent. -/
def config (request : SyncRequest) (source : Source) : StrMap String :=
  let config := match request.scope with
    | .hosts hosts =>
      (source.config.insert "scope" "host").insert "target" (",".intercalate hosts)
    | .group group => (source.config.insert "scope" "group").insert "target" group
    | .full => source.config
  if request.refreshOrigin then
    (config.insert "refresh_origin" "true").insert "refresh_depth"
      (toString request.refreshDepth.toNat)
  else config

end SyncRequest

end UnifiedApi

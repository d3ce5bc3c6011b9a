import UnifiedApi.Lib.FormUrl
import UnifiedApi.Application.SyncRequest

/-! # POST /sources/{id}/sync: from the query to a sync request -/

namespace UnifiedApi

structure SyncParams where
  host : Option String := none
  group : Option String := none
  refreshOrigin : Option Bool := none
  refreshDepth : Option UInt8 := none
  deriving DecidableEq

namespace SyncParams

/-- One field of the query; a field given twice or one that does not parse
refuses the request, an unknown one is ignored. -/
def setField (params : SyncParams) (name value : List Char) : Option SyncParams :=
  if name = "host".toList then
    if params.host.isSome then none else some { params with host := some (String.ofList value) }
  else if name = "group".toList then
    if params.group.isSome then none else some { params with group := some (String.ofList value) }
  else if name = "refresh_origin".toList then
    if params.refreshOrigin.isSome then none
    else (Text.parseBool (String.ofList value)).map fun b => { params with refreshOrigin := some b }
  else if name = "refresh_depth".toList then
    if params.refreshDepth.isSome then none
    else (Text.parseU8 value).map fun depth => { params with refreshDepth := some depth }
  else some params

/-- The parameters of a query string; `none` is a 400. -/
def ofQuery (query : List UInt8) : Option SyncParams :=
  (FormUrl.formParse query).foldlM (fun params pair => params.setField pair.1 pair.2) {}

/-- A host list that selects nothing falls through to the next scope. -/
def scope (params : SyncParams) : SyncScope :=
  ((params.host.bind SyncScope.hostsFromCsv).or (params.group.map .group)).getD .full

def request (params : SyncParams) : SyncRequest :=
  if params.refreshOrigin.getD false then
    .refreshingOrigin params.scope (params.refreshDepth.getD defaultRefreshDepth)
  else .new params.scope

end SyncParams

end UnifiedApi

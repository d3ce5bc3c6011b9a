import UnifiedApi.Adapters.Http.Error

/-! # GET /sources/{id}/scope -/

namespace UnifiedApi

inductive ScopeKind where
  | source | view
  deriving DecidableEq

structure ScopeInfo where
  sourceId : String
  kind : ScopeKind
  /-- False when no ownership claim is made; the rest then means nothing. -/
  declared : Bool
  groups : List String
  hosts : List String
  catchAll : Bool
  deriving DecidableEq

/-- Config-derived: it answers alike whether or not anything has synced. -/
def sourceScope (config : Config) (permissions : Permissions) (id : String) :
    Except ApiError ScopeInfo :=
  if !permissions.allowsSource id then .error (.sourceForbidden id)
  else match config.views[id]? with
    | some view =>
      let claim := view.advertisedScope
      .ok ⟨id, .view, true, claim.groups, claim.hosts, claim.catchAll⟩
    | none => match config.sources[id]? with
      | none => .error (.sourceNotConfigured id)
      | some source => match source.advertisedScope with
        | some claim => .ok ⟨id, .source, true, claim.groups, claim.hosts, claim.catchAll⟩
        | none => .ok ⟨id, .source, false, [], [], false⟩

end UnifiedApi

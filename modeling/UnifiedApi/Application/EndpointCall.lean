import Mathlib.Data.List.Sort
import UnifiedApi.Application.AnsibleRoundTrip
import UnifiedApi.Cache.MemoryCache
import UnifiedApi.Domain.Source

/-! # Calling an output endpoint

What a builtin is given: the cached datasets of the endpoint's sources, within
its limit. A call that misses a source, or whose settings do not parse, renders
nothing. -/

namespace UnifiedApi

inductive OutputFormat where
  | ansible | json | csv
  deriving DecidableEq

/-- Without an output format a script transforms the datasets. -/
structure OutputEndpoint where
  sourceIds : List String := []
  output : Option OutputFormat := none
  config : StrMap String := ∅
  limit : Option EndpointLimit := none
  deriving DecidableEq

/-- The settings that a builtin understands. -/
def builtinSettings : List String := ["host", "group", "filter", "fields", "exclude_fields"]

/-- What a setting from before 0.32 is called now. -/
def renamedSetting (old : String) : Option String :=
  [("filter_os", "filter: \"os=<value>\""),
    ("filter_datacenter", "filter: \"datacenter=<value>\""),
    ("filter_group", "group"), ("columns", "fields"),
    ("exclude_vars", "exclude_fields")].lookup old

/-- Why a builtin does not take a parameter of a request. -/
def checkParam (ops : TextOps) (key : String) (value : Json) : Except String Unit :=
  match renamedSetting key with
  | some new => .error ("'" ++ key ++ "' was renamed in 0.32 — it is called " ++ new ++ " now")
  | none =>
    match value with
    | .string _ => .ok ()
    | value =>
      let list := key == "filter" && value matches .array _
      if builtinSettings.contains key && !list then
        .error ("'" ++ key ++ "' must be a string, got " ++ String.ofList (ops.jsonText value))
      else .ok ()

/-- A mistake in a request is answered as one, before anything is rendered. -/
def checkParams (ops : TextOps) (config : StrMap String) (params : Json) : Except String Unit := do
  match params with
  | .object fields =>
    (fields.insertionSort fun a b => a.1 ≤ b.1).forM fun field =>
      checkParam ops field.1 field.2
  | _ => .ok ()
  let _ ← Output.hostFilter ops config params
  return ()

namespace OutputEndpoint
variable (ops : TextOps) (cache : MemoryCache) (endpoint : OutputEndpoint)

/-- The datasets of the sources that are cached. -/
def datasets : StrMap Dataset :=
  endpoint.sourceIds.foldl (fun datasets sourceId =>
    match cache.get sourceId with
    | some entry => datasets.insert sourceId entry.dataset
    | none => datasets) ∅

def ready : Bool := endpoint.sourceIds.all fun sourceId => (cache.get sourceId).isSome

/-- Everything is merged, but only what the limit describes comes back. -/
def limited : StrMap Dataset :=
  match endpoint.limit with
  | some limit => applyLimit (endpoint.datasets cache) limit
  | none => endpoint.datasets cache

/-- What a builtin renders, unless the call is refused. -/
def call (params : Json) : Option Output.Inventory :=
  match checkParams ops endpoint.config params with
  | .error _ => none
  | .ok _ =>
    if endpoint.ready cache then
      some (Output.mergeAndFilter ops (endpoint.limited cache) endpoint.config params)
    else none

/-- As the configuration is validated: known sources, and a limit by one of them. -/
structure Valid (sources : StrMap Source) : Prop where
  configured : ∀ sourceId ∈ endpoint.sourceIds, sourceId ∈ sources
  limiting : ∀ limit, endpoint.limit = some limit →
    ∃ sourceId ∈ endpoint.sourceIds, limit.byHostsFromInventory = some sourceId

theorem getElem?_datasets (sourceId : String) :
    (endpoint.datasets cache)[sourceId]? =
      if sourceId ∈ endpoint.sourceIds then (cache.get sourceId).map (·.dataset) else none := by
  have hstep : StrMap.KeyOnly (fun (datasets : StrMap Dataset) sourceId =>
      match cache.get sourceId with
      | some entry => datasets.insert sourceId entry.dataset
      | none => datasets) fun sourceId old => ((cache.get sourceId).map (·.dataset)).or old := by
    intro datasets key other
    dsimp only
    cases cache.get key with
    | none => simp
    | some entry =>
      rw [StrMap.getElem?_insert]
      rfl
  rw [datasets, StrMap.getElem?_foldl_keys hstep]
  · split
    · simp
    · simp
  · intro sourceId old
    cases cache.get sourceId <;> rfl

/-- The settings of the endpoint itself decide a call that brings none. -/
theorem call_noParams :
    endpoint.call ops cache Output.noParams =
      match Output.hostFilter ops endpoint.config Output.noParams with
      | .error _ => none
      | .ok _ =>
        if endpoint.ready cache then
          some (Output.mergeAndFilter ops (endpoint.limited cache) endpoint.config Output.noParams)
        else none := by
  have hcheck : checkParams ops endpoint.config Output.noParams =
      (Output.hostFilter ops endpoint.config Output.noParams).map fun _ => () := by
    unfold checkParams Output.noParams
    simp only [List.insertionSort_nil]
    cases Output.hostFilter ops endpoint.config (.object []) <;> rfl
  rw [call, hcheck]
  cases Output.hostFilter ops endpoint.config Output.noParams <;> rfl

/-- The hosts of a call that brings no parameters: those that are merged and kept. -/
theorem mem_call_noParams (hready : endpoint.ready cache = true) (host : String) :
    (∃ inventory, endpoint.call ops cache Output.noParams = some inventory ∧
        host ∈ inventory.hostvars) ↔
      host ∈ (Output.mergeAndFilter ops (endpoint.limited cache) endpoint.config
        Output.noParams).hostvars := by
  rw [call_noParams]
  cases hfilter : Output.hostFilter ops endpoint.config Output.noParams with
  | error _ =>
    rw [Output.mergeAndFilter_error hfilter]
    simp
  | ok _ => simp [hready]

end OutputEndpoint

end UnifiedApi

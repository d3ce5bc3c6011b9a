import UnifiedApi.Domain.Source

/-! # What a connector hands back -/

namespace UnifiedApi

/-- How old federated data already was when it was fetched. -/
structure DatasetAges where
  datasetAgeSeconds : Nat
  hostAges : StrMap Nat := ∅
  deriving DecidableEq

structure ConnectorOutput where
  dataset : Dataset
  ages : Option DatasetAges := none
  unreachable : List String := []
  advertisedScope : Option ScopeClaim := none
  deriving DecidableEq

end UnifiedApi

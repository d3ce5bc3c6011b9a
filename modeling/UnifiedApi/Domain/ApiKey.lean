import UnifiedApi.Lib.StrMap

/-! # API keys, as api_keys.yaml declares them

The file names the environment variable that holds the secret, never the secret. -/

namespace UnifiedApi

inductive ApiKeyRole where
  | admin | restricted
  deriving DecidableEq

structure ApiKeyDef where
  name : String
  envVars : StrMap String := ∅
  /-- Deprecated: the variable's name on its own. -/
  env : Option String := none
  role : ApiKeyRole := .restricted
  sources : List String := []
  endpoints : List String := []
  deriving DecidableEq

/-- The variable holding the secret, whichever form names it. -/
def ApiKeyDef.envVar (key : ApiKeyDef) : String :=
  (key.envVars["key"]?.or key.env).getD ""

end UnifiedApi

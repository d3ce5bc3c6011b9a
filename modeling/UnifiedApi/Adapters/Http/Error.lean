import Mathlib.Data.Finset.Basic
import UnifiedApi.Domain.View

/-! # Refusals and permissions of the HTTP routes -/

namespace UnifiedApi

structure ApiError where
  status : Nat
  message : String
  deriving DecidableEq

namespace ApiError

def badRequest (message : String) : ApiError := ⟨400, message⟩

def forbidden (message : String) : ApiError := ⟨403, message⟩

def notFound (message : String) : ApiError := ⟨404, message⟩

def sourceForbidden (id : String) : ApiError :=
  forbidden ("this API key is not allowed to access source '" ++ id ++ "'")

def sourceNotCached (id : String) : ApiError :=
  notFound ("source '" ++ id ++ "' is not in the cache (never synced, or evicted)")

def sourceNotConfigured (id : String) : ApiError :=
  notFound ("source '" ++ id ++ "' is not configured")

/-- A view is read-only: what it composes has to be addressed directly. -/
def writeRefused (id : String) (view : View) (action : String) : ApiError :=
  badRequest ("'" ++ id ++ "' is a view, not a source: it composes " ++
    ", ".intercalate view.memberIds ++ " at read time and holds no cache entry, so it cannot " ++
    action ++ ". Address the member source directly.")

end ApiError

/-- What a caller is allowed to touch. -/
inductive Permissions where
  | admin
  | scoped (sources endpoints : Finset String)
  deriving DecidableEq

def Permissions.allowsSource (permissions : Permissions) (id : String) : Bool :=
  match permissions with
  | .admin => true
  | .scoped sources _ => decide (id ∈ sources)

end UnifiedApi

import UnifiedApi.Adapters.Http.Error
import UnifiedApi.Cache.MemoryCache

/-! # Writing and deleting one host -/

namespace UnifiedApi

/-- PUT /sources/{id}/hosts/{hostname}. -/
def putHost (config : Config) (permissions : Permissions) (id hostname : String) (vars : HostVars)
    (now : Nat) (cache : MemoryCache) : Except ApiError MemoryCache :=
  if !permissions.allowsSource id then .error (.sourceForbidden id)
  else match config.views[id]? with
    | some view => .error (.writeRefused id view "take a host write")
    | none =>
      let (found, cache) := cache.update id fun entry => entry.updateHost hostname vars now
      if found then .ok cache else .error (.sourceNotCached id)

/-- What the delete does under the entry's lock: nothing to a host that is
not there. -/
def removeHostIfPresent (hostname : String) (entry : CacheEntry) : CacheEntry :=
  if entry.dataset.hostvars.contains hostname then entry.removeHost hostname else entry

/-- DELETE /sources/{id}/hosts/{hostname}: the answer, and the cache, which
the update of a present source has written either way. -/
def deleteHost (config : Config) (permissions : Permissions) (id hostname : String)
    (cache : MemoryCache) : Except ApiError Unit × MemoryCache :=
  if !permissions.allowsSource id then (.error (.sourceForbidden id), cache)
  else match config.views[id]? with
    | some view => (.error (.writeRefused id view "take a host write"), cache)
    | none =>
      let removed := match cache.get id with
        | some entry => entry.dataset.hostvars.contains hostname
        | none => false
      let (found, cache) := cache.update id (removeHostIfPresent hostname)
      if !found then (.error (.sourceNotCached id), cache)
      else if !removed then
        (.error (.notFound ("host '" ++ hostname ++ "' is not in source '" ++ id ++ "'")), cache)
      else (.ok (), cache)

/-- A write that is answered has run on the source's entry and on no other. -/
theorem putHost_ok {config : Config} {permissions : Permissions} {id hostname : String}
    {vars : HostVars} {now : Nat} {cache cache' : MemoryCache}
    (h : putHost config permissions id hostname vars now cache = .ok cache') :
    cache' = (cache.update id fun entry => entry.updateHost hostname vars now).2 := by
  unfold putHost at h
  split at h
  · cases h
  · split at h
    · cases h
    · dsimp only at h
      split at h
      · cases h
        rfl
      · cases h

end UnifiedApi

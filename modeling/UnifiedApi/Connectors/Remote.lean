import UnifiedApi.Adapters.Http.Scope
import UnifiedApi.Adapters.Http.Sync

/-! # The remote connector: another instance as a source

It asks the origin to gather first, then fetches. Its query is put together
from the connector's configuration by plain formatting; the origin reads it
with its own query parser. -/

namespace UnifiedApi

/-! ## The query to the origin -/

/-- The `?host=` of the remote calls, empty unless the scope names hosts. A
hostname that needed encoding would not be a hostname. -/
def hostScopeFilter (config : StrMap String) : String :=
  if config["scope"]? ≠ some "host" then ""
  else match config["target"]? with
    | some target => if target.isEmpty then "" else "?host=" ++ target
    | none => ""

/-- How many hops the refresh may still travel: `none` when no refresh was
asked for or the budget is spent. -/
def propagatedRefreshDepth (config : StrMap String) : Option UInt8 :=
  if config["refresh_origin"]? ≠ some "true" then none
  else
    let depth := (config["refresh_depth"]?.bind fun depth => Text.parseU8 depth.toList).getD 0
    if depth = 0 then none else some (depth - 1)

def refreshQuery (hostFilter : String) (remainingDepth : UInt8) : String :=
  let separator := if hostFilter.isEmpty then "?" else "&"
  hostFilter ++ separator ++ "refresh_origin=true&refresh_depth=" ++
    toString remainingDepth.toNat

/-- The query string of the refresh that is sent to the origin, if one is. -/
def refreshSyncQuery (config : StrMap String) : Option String :=
  (propagatedRefreshDepth config).map (refreshQuery (hostScopeFilter config))

/-- What the origin makes of a query string: the URL parser takes what follows
its question mark. `none` is a 400. -/
def originRequest (query : String) : Option SyncRequest :=
  (SyncParams.ofQuery (FormUrl.urlQuery (query.toList.drop 1))).map (·.request)

/-! ## What comes back of it -/

/-- The connector's configuration for a host-scoped refresh. -/
theorem config_hosts (source : Source) (hosts : List String) (depth : UInt8) :
    let config := (SyncRequest.refreshingOrigin (.hosts hosts) depth).config source
    config["scope"]? = some "host" ∧ config["target"]? = some (",".intercalate hosts) := by
  have hconfig : (SyncRequest.refreshingOrigin (.hosts hosts) depth).config source =
      (((source.config.insert "scope" "host").insert "target" (",".intercalate hosts)).insert
        "refresh_origin" "true").insert "refresh_depth" (toString depth.toNat) := rfl
  dsimp only
  rw [hconfig]
  constructor
  · rw [StrMap.getElem?_insert, if_neg (by decide), StrMap.getElem?_insert, if_neg (by decide),
      StrMap.getElem?_insert, if_neg (by decide), StrMap.getElem?_insert, if_pos rfl]
  · rw [StrMap.getElem?_insert, if_neg (by decide), StrMap.getElem?_insert, if_neg (by decide),
      StrMap.getElem?_insert, if_pos rfl]

theorem toList_toString (n : Nat) : (toString n).toList = Nat.toDigits 10 n := by
  show (Nat.repr n).toList = _
  rw [Nat.repr, String.toList_ofList]

theorem propagatedRefreshDepth_insert (config : StrMap String) (depth : UInt8) :
    propagatedRefreshDepth ((config.insert "refresh_origin" "true").insert "refresh_depth"
      (toString depth.toNat)) = if depth = 0 then none else some (depth - 1) := by
  have horigin : ((config.insert "refresh_origin" "true").insert "refresh_depth"
      (toString depth.toNat))["refresh_origin"]? = some "true" := by
    rw [StrMap.getElem?_insert, if_neg (by decide), StrMap.getElem?_insert, if_pos rfl]
  have hdepth : ((config.insert "refresh_origin" "true").insert "refresh_depth"
      (toString depth.toNat))["refresh_depth"]? = some (toString depth.toNat) := by
    rw [StrMap.getElem?_insert, if_pos rfl]
  unfold propagatedRefreshDepth
  rw [horigin, hdepth, if_neg (fun h => h rfl), Option.bind_some, toList_toString,
    Text.parseU8_toDigits, Option.getD_some]

theorem toNat_sub_one {depth : UInt8} (h : depth ≠ 0) : (depth - 1).toNat = depth.toNat - 1 := by
  have hpos : depth.toNat ≠ 0 := fun hzero => h (UInt8.toNat_inj.mp hzero)
  have hle : (1 : UInt8) ≤ depth := UInt8.le_iff_toNat_le.mpr (Nat.one_le_iff_ne_zero.mpr hpos)
  exact UInt8.toNat_sub_of_le _ _ hle

/-- The pairs that a host-scoped refresh means. -/
def refreshPairs (hosts : List String) (depth : UInt8) : List (List Char × List Char) :=
  [("host".toList, (",".intercalate hosts).toList), ("refresh_origin".toList, "true".toList),
    ("refresh_depth".toList, Nat.toDigits 10 depth.toNat)]

theorem isEmpty_intercalate {hosts : List String} (hne : hosts ≠ [])
    (hnames : ∀ host ∈ hosts, Text.IsName host) : (",".intercalate hosts).isEmpty = false := by
  cases hempty : (",".intercalate hosts).isEmpty with
  | false => rfl
  | true =>
    have hread := Text.commaNames_intercalate hne hnames
    rw [String.isEmpty_iff.mp hempty] at hread
    exact absurd hread.symm hne

/-- The query that is sent is those pairs, written one after the other. -/
theorem refreshSyncQuery_hosts (source : Source) {hosts : List String} {depth : UInt8}
    (hne : hosts ≠ []) (hnames : ∀ host ∈ hosts, Text.IsName host) (hdepth : depth ≠ 0) :
    ∃ query, refreshSyncQuery
        ((SyncRequest.refreshingOrigin (.hosts hosts) depth).config source) = some query ∧
      query.toList.drop 1 =
        ['&'].intercalate ((refreshPairs hosts (depth - 1)).map FormUrl.pairText) := by
  obtain ⟨hscope, htarget⟩ := config_hosts source hosts depth
  have hfilter : hostScopeFilter
      ((SyncRequest.refreshingOrigin (.hosts hosts) depth).config source) =
        "?host=" ++ ",".intercalate hosts := by
    unfold hostScopeFilter
    rw [hscope, htarget, if_neg (fun h => h rfl)]
    dsimp only
    rw [isEmpty_intercalate hne hnames]
    rfl
  have hremaining : propagatedRefreshDepth
      ((SyncRequest.refreshingOrigin (.hosts hosts) depth).config source) = some (depth - 1) :=
    (propagatedRefreshDepth_insert _ depth).trans (if_neg hdepth)
  refine ⟨_, by rw [refreshSyncQuery, hremaining, hfilter, Option.map_some], ?_⟩
  have hfull : ("?host=" ++ ",".intercalate hosts).isEmpty = false := by
    rw [String.isEmpty_eq_false_iff, ne_eq, String.append_eq_empty_iff]
    exact fun h => absurd h.1 (by decide)
  rw [refreshQuery, hfull]
  have hdigits := toList_toString (depth - 1).toNat
  show List.drop 1 (("?host=" ++ ",".intercalate hosts) ++ "&" ++
    "refresh_origin=true&refresh_depth=" ++ toString (depth - 1).toNat).toList = _
  rw [String.toList_append, String.toList_append, String.toList_append, String.toList_append,
    hdigits]
  show _ = ['&'].intercalate (FormUrl.pairText ("host".toList, (",".intercalate hosts).toList) ::
    FormUrl.pairText ("refresh_origin".toList, "true".toList) ::
    [FormUrl.pairText ("refresh_depth".toList, Nat.toDigits 10 (depth - 1).toNat)])
  rw [List.intercalate_cons_cons, List.intercalate_cons_cons, List.intercalate_singleton]
  simp [FormUrl.pairText]

/-- A digit is one byte, and none that a query gives a meaning to. -/
theorem digit_bytes {c : Char} (h : c.isDigit = true) :
    ∀ b ∈ String.utf8EncodeChar c, b ∉ 0x25 :: FormUrl.reserved := by
  obtain ⟨hzero, hnine⟩ := Char.isDigit_iff_toNat.mp h
  have hzero : 48 ≤ c.toNat := hzero
  have hnine : c.toNat ≤ 57 := hnine
  have hencoded : String.utf8EncodeChar c = [c.val.toUInt8] := by
    unfold String.utf8EncodeChar
    exact if_pos (show c.val.toNat ≤ 0x7F from hnine.trans (by decide))
  intro b hb hmem
  rw [hencoded, List.mem_singleton] at hb
  have hval : b.toNat = c.toNat := by
    rw [hb]
    exact Nat.mod_eq_of_lt (Nat.lt_of_le_of_lt hnine (by decide))
  have hother : ∀ b ∈ 0x25 :: FormUrl.reserved, b.toNat < 48 := by
    simp [FormUrl.reserved, FormUrl.dropped]
  exact absurd (hother b hmem) (by omega)

theorem plain_digits (n : UInt8) : FormUrl.Plain (Nat.toDigits 10 n.toNat) :=
  FormUrl.plain_of_forall fun _ hc =>
    digit_bytes (Nat.isDigit_of_mem_toDigits (by decide) (le_refl _) hc)

/-- The refresh intent needs no encoding. -/
theorem refreshIntent_plain (depth : UInt8) :
    ∀ pair ∈ [("refresh_origin".toList, "true".toList),
        ("refresh_depth".toList, Nat.toDigits 10 depth.toNat)],
      FormUrl.Plain pair.1 ∧ 0x3D ∉ FormUrl.utf8 pair.1 ∧ FormUrl.Plain pair.2 := by
  intro pair hpair
  rcases List.mem_cons.mp hpair with rfl | hpair
  · exact ⟨by decide, by decide, by decide⟩
  · rw [List.mem_singleton.mp hpair]
    exact ⟨show FormUrl.Plain "refresh_depth".toList by decide,
      show 0x3D ∉ FormUrl.utf8 "refresh_depth".toList by decide, plain_digits _⟩

/-- The refresh intent, read into parameters that have none yet. -/
theorem setField_refresh {params : SyncParams} (horigin : params.refreshOrigin = none)
    (hdepth : params.refreshDepth = none) (depth : UInt8) :
    [("refresh_origin".toList, "true".toList),
        ("refresh_depth".toList, Nat.toDigits 10 depth.toNat)].foldlM
      (fun params pair => SyncParams.setField params pair.1 pair.2) params =
      some { params with refreshOrigin := some true, refreshDepth := some depth } := by
  have hread : SyncParams.setField params "refresh_origin".toList "true".toList =
      some { params with refreshOrigin := some true } := by
    unfold SyncParams.setField
    rw [if_neg (by decide), if_neg (by decide), if_pos rfl, horigin, if_neg (fun h => nomatch h)]
    rfl
  have hbudget : SyncParams.setField { params with refreshOrigin := some true }
      "refresh_depth".toList (Nat.toDigits 10 depth.toNat) =
        some { params with refreshOrigin := some true, refreshDepth := some depth } := by
    unfold SyncParams.setField
    rw [if_neg (by decide), if_neg (by decide), if_neg (by decide), if_pos rfl, hdepth,
      if_neg (fun h => nomatch h), Text.parseU8_toDigits]
    rfl
  rw [List.foldlM_cons, hread, Option.bind_eq_bind, Option.bind_some, List.foldlM_cons, hbudget]
  rfl

/-- What the origin reads of the pairs. -/
theorem setField_refreshPairs (hosts : List String) (depth : UInt8) :
    (refreshPairs hosts depth).foldlM (fun params pair => SyncParams.setField params pair.1 pair.2)
        ({} : SyncParams) =
      some { host := some (",".intercalate hosts), refreshOrigin := some true,
             refreshDepth := some depth } := by
  have hhost : SyncParams.setField {} "host".toList (",".intercalate hosts).toList =
      some { host := some (",".intercalate hosts) } := by
    unfold SyncParams.setField
    rw [if_pos rfl, if_neg (by decide), String.ofList_toList]
  rw [refreshPairs, List.foldlM_cons, hhost, Option.bind_eq_bind, Option.bind_some]
  exact setField_refresh rfl rfl depth

/-- The origin reads the pairs as the refresh they mean. -/
theorem originRequest_of_pairs {hosts : List String} {depth : UInt8} {query : String}
    (hne : hosts ≠ []) (hnames : ∀ host ∈ hosts, Text.IsName host)
    (hplain : ∀ host ∈ hosts, FormUrl.Plain host.toList)
    (htext : query.toList.drop 1 =
      ['&'].intercalate ((refreshPairs hosts depth).map FormUrl.pairText)) :
    originRequest query = some (.refreshingOrigin (.hosts hosts) depth) := by
  have hjoined : FormUrl.Plain (",".intercalate hosts).toList := by
    rw [String.toList_intercalate]
    apply FormUrl.plain_intercalate
    intro name hname
    obtain ⟨host, hhost, rfl⟩ := List.mem_map.mp hname
    exact hplain host hhost
  have hpairs : FormUrl.formParse (FormUrl.urlQuery (query.toList.drop 1)) =
      refreshPairs hosts depth := by
    rw [htext]
    apply FormUrl.formParse_urlQuery (List.cons_ne_nil _ _)
    intro pair hpair
    rcases List.mem_cons.mp hpair with rfl | hpair
    · exact ⟨show FormUrl.Plain "host".toList by decide,
        show 0x3D ∉ FormUrl.utf8 "host".toList by decide, hjoined⟩
    · exact refreshIntent_plain depth pair hpair
  have hread : SyncParams.ofQuery (FormUrl.urlQuery (query.toList.drop 1)) =
      some { host := some (",".intercalate hosts), refreshOrigin := some true,
             refreshDepth := some depth } := by
    unfold SyncParams.ofQuery
    rw [hpairs]
    exact setField_refreshPairs hosts depth
  have hhosts : SyncScope.hostsFromCsv (",".intercalate hosts) = some (.hosts hosts) := by
    unfold SyncScope.hostsFromCsv
    rw [Text.commaNames_intercalate hne hnames]
    cases hosts with
    | nil => exact absurd rfl hne
    | cons host rest => rfl
  rw [originRequest, hread, Option.map_some]
  show some (SyncRequest.refreshingOrigin
    (((SyncScope.hostsFromCsv (",".intercalate hosts)).or none).getD .full) depth) = _
  rw [hhosts]
  rfl

/-- **A host-scoped refresh reaches the origin as it was meant**, one hop
spent, when no hostname needs percent-encoding. -/
theorem originRequest_refreshSyncQuery (source : Source) (hosts : List String) (depth : UInt8)
    (hne : hosts ≠ []) (hnames : ∀ host ∈ hosts, Text.IsName host)
    (hplain : ∀ host ∈ hosts, FormUrl.Plain host.toList) (hdepth : depth ≠ 0) :
    (refreshSyncQuery ((SyncRequest.refreshingOrigin (.hosts hosts) depth).config source)).bind
        originRequest =
      some (.refreshingOrigin (.hosts hosts) (depth - 1)) := by
  obtain ⟨query, hquery, htext⟩ := refreshSyncQuery_hosts source hne hnames hdepth
  rw [hquery, Option.bind_some, originRequest_of_pairs hne hnames hplain htext]

/-- Two hosts, three hops. -/
theorem pair_originRequest :
    (refreshSyncQuery ((SyncRequest.refreshingOrigin (.hosts ["web-1", "db=2"]) 3).config
        { ttlSeconds := 60 })).bind originRequest =
      some (.refreshingOrigin (.hosts ["web-1", "db=2"]) 2) :=
  originRequest_refreshSyncQuery { ttlSeconds := 60 } ["web-1", "db=2"] 3 (by decide)
    (by decide) (by decide) (by decide)

/-- Nothing encodes a name that would need it: what stands behind a `#` is not
sent, and an origin that is asked for no host and no refresh syncs everything. -/
theorem hash_syncs_full :
    Text.IsName "#" ∧
    (refreshSyncQuery ((SyncRequest.refreshingOrigin (.hosts ["#"]) 3).config
        { ttlSeconds := 60 })).bind originRequest = some (.new .full) := by
  decide

/-! ## The origin's claim -/

/-- What a sync learns of the origin's claim: nothing from any failing answer,
and nothing from an origin that declares nothing. -/
def fetchScope (response : Except ApiError ScopeInfo) : Option ScopeClaim :=
  match response with
  | .error _ => none
  | .ok scope => if scope.declared then some ⟨scope.groups, scope.hosts, scope.catchAll⟩ else none

end UnifiedApi

import UnifiedApi.Connectors.Remote

/-! # Instances that federate one another

A remote source names a source of another instance, which may be remote in its
turn. The links may lead in a circle. -/

namespace UnifiedApi

/-- A source of one instance. -/
structure SourceAt where
  url : String
  sourceId : String
  deriving DecidableEq

/-- A sync asked of a source; `none` is a query that the instance refuses. -/
structure SyncAsk where
  node : SourceAt
  request : Option SyncRequest
  deriving DecidableEq

/-- What each instance has configured, and where its remote sources point. -/
structure Federation where
  sources : SourceAt → Option Source
  origin : SourceAt → SourceAt

namespace Federation

variable (fed : Federation)

/-- The source a remote source has its data from. -/
def next (node : SourceAt) : Option SourceAt :=
  (fed.sources node).bind fun source =>
    if source.connectorType = .remote then some (fed.origin node) else none

/-- The sources on the way of `hops` links. -/
def walk : Nat → SourceAt → List SourceAt
  | 0, node => [node]
  | hops + 1, node => node :: match fed.next node with
    | some origin => walk hops origin
    | none => []

/-- The sync that a sync asks of the source's origin before it fetches: where,
and what the origin reads of it. -/
def forward (ask : SyncAsk) : Option SyncAsk :=
  ask.request.bind fun request => (fed.sources ask.node).bind fun source =>
    if source.connectorType = .remote then
      (refreshSyncQuery (request.config source)).map fun query =>
        { node := fed.origin ask.node, request := originRequest query }
    else none

/-- What is asked `hops` steps further on. -/
def visit : Nat → SyncAsk → Option SyncAsk
  | 0, ask => some ask
  | hops + 1, ask => (fed.forward ask).bind (visit hops)

/-- No hostname needs encoding, and no source's own configuration passes for a
scope of hosts. -/
def Travels : SyncScope → Prop
  | .hosts hosts => hosts ≠ [] ∧ (∀ host ∈ hosts, Text.IsName host) ∧
      ∀ host ∈ hosts, FormUrl.Plain host.toList
  | .group _ | .full =>
    ∀ node source, fed.sources node = some source → source.config["scope"]? ≠ some "host"

/-- The remote has no group filter that would also narrow what a group-scoped
sync needs. -/
def forwardedScope : SyncScope → SyncScope
  | .hosts hosts => .hosts hosts
  | .group _ | .full => .full

variable {fed}

theorem walk_length_le (hops : Nat) (node : SourceAt) :
    (fed.walk hops node).length ≤ hops + 1 := by
  induction hops generalizing node with
  | zero => exact le_refl _
  | succ hops ih =>
    rw [walk, List.length_cons]
    cases fed.next node with
    | none => simp
    | some origin => exact Nat.succ_le_succ (ih origin)

theorem visit_succ (hops : Nat) (ask : SyncAsk) :
    fed.visit (hops + 1) ask = (fed.visit hops ask).bind fed.forward := by
  induction hops generalizing ask with
  | zero =>
    show (fed.forward ask).bind some = fed.forward ask
    cases fed.forward ask <;> rfl
  | succ hops ih =>
    show (fed.forward ask).bind (fed.visit (hops + 1)) =
      ((fed.forward ask).bind (fed.visit hops)).bind fed.forward
    rw [Option.bind_assoc]
    exact Option.bind_congr fun asked _ => ih asked

end Federation

/-! ## How far a refresh travels -/

/-- A scope that names no hosts sends no host filter, unless the source's own
configuration does. -/
theorem hostScopeFilter_config {source : Source} {scope : SyncScope} (depth : UInt8)
    (hhosts : ∀ hosts, scope ≠ .hosts hosts) (hown : source.config["scope"]? ≠ some "host") :
    hostScopeFilter ((SyncRequest.refreshingOrigin scope depth).config source) = "" := by
  have hscope : ∀ config : StrMap String, config["scope"]? ≠ some "host" →
      ((config.insert "refresh_origin" "true").insert "refresh_depth"
        (toString depth.toNat))["scope"]? ≠ some "host" := by
    intro config hconfig
    rw [StrMap.getElem?_insert, if_neg (by decide), StrMap.getElem?_insert, if_neg (by decide)]
    exact hconfig
  refine if_pos ?_
  cases scope with
  | hosts hosts => exact absurd rfl (hhosts hosts)
  | full => exact hscope source.config hown
  | group group =>
    refine hscope ((source.config.insert "scope" "group").insert "target" group) ?_
    rw [StrMap.getElem?_insert, if_neg (by decide), StrMap.getElem?_insert, if_pos rfl]
    decide

/-- Without a host filter the origin reads a refresh of the whole source. -/
theorem originRequest_refreshQuery_full (depth : UInt8) :
    originRequest (refreshQuery "" depth) = some (.refreshingOrigin .full depth) := by
  have hpairs : FormUrl.formParse (FormUrl.urlQuery ((refreshQuery "" depth).toList.drop 1)) =
      [("refresh_origin".toList, "true".toList),
        ("refresh_depth".toList, Nat.toDigits 10 depth.toNat)] := by
    have htext : (refreshQuery "" depth).toList.drop 1 = ['&'].intercalate
        ([("refresh_origin".toList, "true".toList),
          ("refresh_depth".toList, Nat.toDigits 10 depth.toNat)].map FormUrl.pairText) := by
      show List.drop 1 ("" ++ "?" ++ "refresh_origin=true&refresh_depth=" ++
        toString depth.toNat).toList = _
      rw [String.toList_append, toList_toString, List.map_cons, List.map_cons, List.map_nil,
        List.intercalate_cons_cons, List.intercalate_singleton]
      simp [FormUrl.pairText]
    rw [htext]
    apply FormUrl.formParse_urlQuery (List.cons_ne_nil _ _)
    exact refreshIntent_plain depth
  have hread : SyncParams.ofQuery (FormUrl.urlQuery ((refreshQuery "" depth).toList.drop 1)) =
      some { refreshOrigin := some true, refreshDepth := some depth } := by
    unfold SyncParams.ofQuery
    rw [hpairs]
    exact setField_refresh rfl rfl depth
  rw [originRequest, hread]
  rfl

namespace Federation

variable {fed : Federation}

/-- A refresh goes on to the origin with one hop less, until none is left. -/
theorem forward_refresh (node : SourceAt) {scope : SyncScope} (htravels : fed.Travels scope)
    (depth : UInt8) :
    fed.forward ⟨node, some (.refreshingOrigin scope depth)⟩ =
      if depth = 0 then none
      else (fed.next node).map fun origin =>
        ⟨origin, some (.refreshingOrigin (forwardedScope scope) (depth - 1))⟩ := by
  have hdepth : ∀ source : Source, propagatedRefreshDepth
      ((SyncRequest.refreshingOrigin scope depth).config source) =
        if depth = 0 then none else some (depth - 1) := fun source =>
    propagatedRefreshDepth_insert _ depth
  unfold forward next
  rw [Option.bind_some]
  cases hsource : fed.sources node with
  | none => simp
  | some source =>
    rw [Option.bind_some, Option.bind_some]
    by_cases hremote : source.connectorType = .remote
    · rw [if_pos hremote, if_pos hremote, Option.map_some]
      by_cases hzero : depth = 0
      · rw [if_pos hzero, refreshSyncQuery, hdepth source, if_pos hzero]
        rfl
      · rw [if_neg hzero]
        cases scope with
        | hosts hosts =>
          obtain ⟨hne, hnames, hplain⟩ := htravels
          obtain ⟨query, hquery, htext⟩ := refreshSyncQuery_hosts source hne hnames hzero
          rw [hquery, Option.map_some, originRequest_of_pairs hne hnames hplain htext]
          rfl
        | group group =>
          rw [refreshSyncQuery, hdepth source, if_neg hzero,
            hostScopeFilter_config depth (by simp) (htravels node source hsource),
            Option.map_some, Option.map_some, originRequest_refreshQuery_full]
          rfl
        | full =>
          rw [refreshSyncQuery, hdepth source, if_neg hzero,
            hostScopeFilter_config depth (by simp) (htravels node source hsource),
            Option.map_some, Option.map_some, originRequest_refreshQuery_full]
          rfl
    · rw [if_neg hremote, if_neg hremote]
      simp

theorem Travels.forwarded {scope : SyncScope} (h : fed.Travels scope) :
    fed.Travels (forwardedScope scope) := by
  cases scope with
  | hosts hosts => exact h
  | group group => exact h
  | full => exact h

/-- The asks that a refresh causes follow the links as far as its hops go. -/
theorem visit_refresh (hops : Nat) (node : SourceAt) {scope : SyncScope}
    (htravels : fed.Travels scope) (depth : UInt8) :
    ∃ request, fed.visit hops ⟨node, some (.refreshingOrigin scope depth)⟩ =
      (fed.walk depth.toNat node)[hops]?.map fun node => ⟨node, some request⟩ := by
  induction hops generalizing node scope depth with
  | zero =>
    refine ⟨.refreshingOrigin scope depth, ?_⟩
    cases depth.toNat <;> rfl
  | succ hops ih =>
    rw [visit, forward_refresh node htravels depth]
    by_cases hzero : depth = 0
    · subst hzero
      exact ⟨.new .full, rfl⟩
    · have hspent := toNat_sub_one hzero
      have hpos : depth.toNat ≠ 0 := fun h => hzero (UInt8.toNat_inj.mp h)
      obtain ⟨left, hleft⟩ := Nat.exists_eq_succ_of_ne_zero hpos
      rw [hleft, Nat.succ_sub_one] at hspent
      rw [if_neg hzero, hleft, walk, List.getElem?_cons_succ]
      cases fed.next node with
      | none => exact ⟨.new .full, rfl⟩
      | some origin =>
        rw [Option.map_some, Option.bind_some]
        obtain ⟨request, hrequest⟩ := ih origin htravels.forwarded (depth - 1)
        rw [hspent] at hrequest
        exact ⟨request, hrequest⟩

theorem walk_of_visit {hops : Nat} {node : SourceAt} {scope : SyncScope} {depth : UInt8}
    {ask : SyncAsk} (htravels : fed.Travels scope)
    (h : fed.visit hops ⟨node, some (.refreshingOrigin scope depth)⟩ = some ask) :
    (fed.walk depth.toNat node)[hops]? = some ask.node := by
  obtain ⟨request, hrequest⟩ := visit_refresh hops node htravels depth
  rw [hrequest] at h
  obtain ⟨place, hplace, rfl⟩ := Option.map_eq_some_iff.mp h
  exact hplace

end Federation

end UnifiedApi

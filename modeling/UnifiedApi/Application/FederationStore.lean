import Mathlib.Data.String.Basic
import UnifiedApi.Adapters.Http.Error
import UnifiedApi.Domain.Topology
import UnifiedApi.Lib.Expiring
import UnifiedApi.Lib.Runs

/-! # The maps pushed here

An instance that reads from this one says what the federation looks like from
there. One map is kept for each sender, until the sender has been silent for ten
minutes. -/

namespace UnifiedApi

/-- What a sender says about itself. -/
structure InstanceSummary where
  sources : List String := []
  hosts : Nat := 0
  groups : Nat := 0
  endpoints : Nat := 0
  oldestAgeSeconds : Option Nat := none

structure FederationPush where
  /-- This instance's address, as the sender spells it. -/
  url : String
  senderUrl : Option String := none
  sender : InstanceSummary := {}
  topology : Topology

/-- A pushed map as it is served back. -/
structure Topology.Federation where
  pushedBy : String
  url : String
  senderUrl : Option String
  sender : InstanceSummary
  topology : Topology
  ageSeconds : Nat

def federationExpires : Nat := Clock.fromSecs 600

structure FederationStore where
  pushed : Expiring FederationPush := ∅

namespace FederationStore

def record (store : FederationStore) (pushedBy : String) (push : FederationPush) (now : Nat) :
    FederationStore :=
  { pushed := store.pushed.record federationExpires now pushedBy push }

/-- One sender's map as it is served at a moment. -/
def served (now : Nat) (pushedBy : String) (pushed : FederationPush × Nat) :
    Topology.Federation where
  pushedBy
  url := pushed.1.url
  senderUrl := pushed.1.senderUrl
  sender := pushed.1.sender
  topology := pushed.1.topology
  ageSeconds := Clock.asSecs (Clock.elapsed now pushed.2)

/-- Newest first, and then by sender. -/
def before (a b : Topology.Federation) : Bool :=
  a.ageSeconds < b.ageSeconds || (a.ageSeconds == b.ageSeconds && decide (a.pushedBy ≤ b.pushedBy))

def list (store : FederationStore) (now : Nat) : List Topology.Federation :=
  ((store.pushed.toList.filter fun (_, pushed) =>
    Expiring.fresh federationExpires now pushed).map fun (by', pushed) =>
      served now by' pushed).mergeSort before

end FederationStore

/-! ## The routes -/

inductive AuthMethod where
  | «open» | apiKey | ldap
  deriving DecidableEq

structure AuthContext where
  method : AuthMethod
  /-- The key that came with the request itself. -/
  keyId : Option String
  permissions : Permissions

def Permissions.isAdmin (permissions : Permissions) : Bool := permissions = .admin

/-- Whom a push is stored under: a browser session has no key to tell it by. -/
def AuthContext.sender (auth : AuthContext) : Except ApiError String :=
  match auth.method, auth.keyId with
  | .apiKey, some id => .ok id
  | .open, _ => .ok "open"
  | _, _ => .error (.forbidden
      "a federation map is pushed by another instance, with an API key")

def putFederation (store : FederationStore) (auth : AuthContext)
    (body : Except String FederationPush) (now : Nat) : Except ApiError FederationStore := do
  let sender ← auth.sender
  match body with
  | .error message => .error (.badRequest message)
  | .ok push => .ok (store.record sender push now)

/-- `adminOnly` is how the routes refuse a caller who is no admin. -/
def getFederation (adminOnly : ApiError) (store : FederationStore) (auth : AuthContext)
    (now : Nat) : Except ApiError (List Topology.Federation) :=
  if auth.permissions.isAdmin then .ok (store.list now) else .error adminOnly

/-! ## What a list holds -/

namespace FederationStore

theorem before_trans (a b c : Topology.Federation) (hab : before a b = true)
    (hbc : before b c = true) : before a c = true := by
  simp only [before, Bool.or_eq_true, Bool.and_eq_true, decide_eq_true_eq, beq_iff_eq] at *
  rcases hab with hab | ⟨hab, hle⟩ <;> rcases hbc with hbc | ⟨hbc, hle'⟩
  · exact .inl (hab.trans hbc)
  · exact .inl (hbc ▸ hab)
  · exact .inl (hab ▸ hbc)
  · exact .inr ⟨hab.trans hbc, String.le_trans hle hle'⟩

theorem before_total (a b : Topology.Federation) : (before a b || before b a) = true := by
  simp only [before, Bool.or_eq_true, Bool.and_eq_true, decide_eq_true_eq, beq_iff_eq]
  rcases Nat.lt_trichotomy a.ageSeconds b.ageSeconds with hlt | heq | hgt
  · exact .inl (.inl hlt)
  · rcases String.le_total a.pushedBy b.pushedBy with hle | hle
    · exact .inl (.inr ⟨heq, hle⟩)
    · exact .inr (.inr ⟨heq.symm, hle⟩)
  · exact .inr (.inl hgt)

theorem mem_list {store : FederationStore} {now : Nat} {federation : Topology.Federation} :
    federation ∈ store.list now ↔ ∃ pushed,
      store.pushed.shown federationExpires now federation.pushedBy = some pushed ∧
        federation = served now federation.pushedBy pushed := by
  unfold list Expiring.shown
  simp only [List.mem_mergeSort, List.mem_map, List.mem_filter,
    Std.ExtTreeMap.mem_toList_iff_getElem?_eq_some, Option.filter_eq_some_iff, Prod.exists]
  constructor
  · rintro ⟨sender, push, instant, ⟨hstored, hfresh⟩, rfl⟩
    exact ⟨push, instant, ⟨hstored, hfresh⟩, rfl⟩
  · rintro ⟨push, instant, ⟨hstored, hfresh⟩, heq⟩
    exact ⟨federation.pushedBy, push, instant, ⟨hstored, hfresh⟩, heq.symm⟩

theorem nodup_senders (store : FederationStore) (now : Nat) :
    ((store.list now).map (·.pushedBy)).Nodup := by
  have hperm := (List.mergeSort_perm ((store.pushed.toList.filter fun (_, pushed) =>
    Expiring.fresh federationExpires now pushed).map fun (sender, pushed) =>
      served now sender pushed) before).map (·.pushedBy)
  refine hperm.nodup_iff.mpr ?_
  rw [List.map_map]
  have hkeys : (store.pushed.toList.map Prod.fst).Nodup := by
    rw [Std.ExtTreeMap.map_fst_toList_eq_keys]
    exact Std.ExtTreeMap.nodup_keys
  exact hkeys.sublist (List.filter_sublist.map Prod.fst)

/-- Each map comes strictly before the next: by age, and then by sender. -/
theorem pairwise_list (store : FederationStore) (now : Nat) :
    (store.list now).Pairwise fun a b =>
      before a b = true ∧ a.pushedBy ≠ b.pushedBy := by
  refine List.pairwise_and_iff.mpr ⟨?_, List.pairwise_map.mp (nodup_senders store now)⟩
  exact List.pairwise_mergeSort before_trans before_total _

end FederationStore

/-! ## Runs -/

/-- The store, and the pushes that were accepted since the process started. -/
structure FederationState where
  store : FederationStore := {}
  clock : Nat := 0
  log : List (Expiring.Write FederationPush) := []

inductive FederationLabel where
  | put (auth : AuthContext) (body : Except String FederationPush)
  | wait (time : Nat)
  | restart

namespace FederationState

/-- The push of a request that is accepted. -/
def accepted (auth : AuthContext) (body : Except String FederationPush) (now : Nat) :
    Option (Expiring.Write FederationPush) :=
  match auth.sender, body with
  | .ok sender, .ok push => some ⟨sender, push, now⟩
  | _, _ => none

/-- A push that is refused changes nothing. -/
def step (s : FederationState) : FederationLabel → Option FederationState
  | .put auth body => match putFederation s.store auth body s.clock with
    | .error _ => some s
    | .ok store => some { s with store, log := (accepted auth body s.clock).toList ++ s.log }
  | .wait time => some { s with clock := s.clock + time }
  | .restart => some { s with store := {}, log := [] }

abbrev Reached (s : FederationState) : Prop := Runs.Reach step Runs.Any {} s

theorem putFederation_ok {store store' : FederationStore} {auth : AuthContext}
    {body : Except String FederationPush} {now : Nat}
    (h : putFederation store auth body now = .ok store') :
    ∃ sender push, auth.sender = .ok sender ∧ body = .ok push ∧
      store' = store.record sender push now := by
  unfold putFederation at h
  cases hsender : auth.sender with
  | error refusal => simp [hsender, bind, Except.bind] at h
  | ok sender =>
    cases body with
    | error message => simp [hsender, bind, Except.bind] at h
    | ok push =>
      rw [hsender] at h
      exact ⟨sender, push, rfl, rfl, (Except.ok.inj h).symm⟩

structure Inv (s : FederationState) : Prop where
  past : Expiring.Past s.log s.clock
  shows : Expiring.Shows federationExpires s.store.pushed s.log

theorem Inv.step {s s' : FederationState} {label : FederationLabel} (h : s.Inv)
    (hstep : s.step label = some s') : s'.Inv := by
  cases label with
  | wait time =>
    obtain rfl := Option.some.inj hstep
    exact ⟨h.past.mono (Nat.le_add_right _ _), h.shows⟩
  | restart =>
    obtain rfl := Option.some.inj hstep
    exact ⟨fun _ hwrite => absurd hwrite List.not_mem_nil, Expiring.shows_empty⟩
  | put auth body =>
    simp only [FederationState.step] at hstep
    split at hstep
    · obtain rfl := Option.some.inj hstep
      exact h
    · rename_i store hput
      obtain rfl := Option.some.inj hstep
      obtain ⟨sender, push, hsender, rfl, rfl⟩ := putFederation_ok hput
      have hlog : (accepted auth (.ok push) s.clock).toList ++ s.log =
          ⟨sender, push, s.clock⟩ :: s.log := by
        simp [accepted, hsender]
      simp only [hlog]
      refine ⟨fun write hwrite => ?_, h.shows.record h.past sender push⟩
      rcases List.mem_cons.mp hwrite with rfl | hold
      · exact le_refl _
      · exact h.past write hold

theorem Reached.inv {s : FederationState} (h : Reached s) : s.Inv :=
  h.invariant ⟨fun _ hwrite => absurd hwrite List.not_mem_nil, Expiring.shows_empty⟩
    fun _ _ _ hinv _ hstep => hinv.step hstep

/-- **Over any run of pushes, waits and restarts every admin is answered, and
nobody else: for each sender, its newest accepted push since the process started,
unless that is ten minutes old; the newest come first, and each sender once.** -/
theorem served_federation {s : FederationState} (h : Reached s) (adminOnly : ApiError)
    (auth : AuthContext) :
    match getFederation adminOnly s.store auth s.clock with
    | .error refusal => auth.permissions ≠ .admin ∧ refusal = adminOnly
    | .ok served => auth.permissions = .admin ∧
      (∀ federation, federation ∈ served ↔ ∃ push instant,
        Expiring.latest s.log federation.pushedBy = some (push, instant) ∧
          Clock.elapsed s.clock instant < federationExpires ∧
            federation = FederationStore.served s.clock federation.pushedBy (push, instant)) ∧
      served.Pairwise fun newer older => newer.ageSeconds < older.ageSeconds ∨
        newer.ageSeconds = older.ageSeconds ∧ newer.pushedBy < older.pushedBy := by
  have hinv := h.inv
  unfold getFederation
  by_cases hadmin : auth.permissions.isAdmin = true
  · rw [if_pos hadmin]
    refine ⟨of_decide_eq_true hadmin, fun federation => ?_, ?_⟩
    · rw [FederationStore.mem_list, hinv.shows federation.pushedBy s.clock hinv.past]
      simp only [Option.filter_eq_some_iff, Prod.exists, Expiring.fresh, decide_eq_true_eq,
        and_assoc]
    · refine (FederationStore.pairwise_list s.store s.clock).imp fun {newer older} hpair => ?_
      obtain ⟨hbefore, hne⟩ := hpair
      simp only [FederationStore.before, Bool.or_eq_true, Bool.and_eq_true, decide_eq_true_eq,
        beq_iff_eq] at hbefore
      exact hbefore.imp id fun ⟨heq, hle⟩ => ⟨heq, lt_of_le_of_ne hle hne⟩
  · rw [if_neg hadmin]
    exact ⟨fun hwho => hadmin (decide_eq_true hwho), rfl⟩

def adminContext : AuthContext := ⟨.apiKey, some "ops", .admin⟩

/-- Two instances push, one of them again later, and a browser session tries. -/
def pushedTwice : List FederationLabel :=
  let push (url : String) : FederationPush := { url, topology := { version := "0.37.0" } }
  let key (id : String) : AuthContext := ⟨.apiKey, some id, .scoped {"src"} ∅⟩
  [.put (key "central") (.ok (push "https://edge.example")),
    .put (key "backup") (.ok (push "https://edge.example:8443")), .wait (Clock.fromSecs 60),
    .put ⟨.ldap, none, .admin⟩ (.ok (push "https://elsewhere.example")),
    .put (key "central") (.ok (push "https://edge.example"))]

theorem pushedTwice_served : ∃ s, Runs.exec step {} pushedTwice = some s ∧
    s.log.map (·.key) = ["central", "backup", "central"] ∧
    ∀ federation, federation ∈ s.store.list s.clock ↔ ∃ push instant,
      Expiring.latest s.log federation.pushedBy = some (push, instant) ∧
        Clock.elapsed s.clock instant < federationExpires ∧
          federation = FederationStore.served s.clock federation.pushedBy (push, instant) := by
  have hrun : (Runs.exec step {} pushedTwice).map (fun s => s.log.map (·.key)) =
      some ["central", "backup", "central"] := by
    rfl
  obtain ⟨s, hexec, hlog⟩ := Option.map_eq_some_iff.mp hrun
  exact ⟨s, hexec, hlog,
    (served_federation (Runs.Reach.start.of_exec hexec) ⟨403, "admin"⟩ adminContext).2.1⟩

end FederationState

end UnifiedApi

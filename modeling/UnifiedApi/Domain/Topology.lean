import Mathlib.Data.List.Infix
import UnifiedApi.Domain.Source

/-! # The federation as seen from one instance

Which other instances it pulls from, through which sources, and what those say
of themselves. A peer's answer has the same shape and nests as it is. -/

namespace UnifiedApi

/-! ## Addresses -/

/-- Up to the first `://`, and what follows it. -/
def splitScheme : List Char → Option (List Char × List Char)
  | ':' :: '/' :: '/' :: rest => some ([':', '/', '/'], rest)
  | c :: rest => (splitScheme rest).map fun parts => (c :: parts.1, parts.2)
  | [] => none

/-- Credentials that someone wrote into an address are not shown back. -/
def withoutUserinfo (url : List Char) : List Char :=
  match splitScheme url with
  | none => url
  | some (scheme, rest) =>
    let authority := rest.takeWhile (· != '/')
    if authority.contains '@' then
      scheme ++ (authority.reverse.takeWhile (· != '@')).reverse ++ rest.dropWhile (· != '/')
    else url

def shownUrl (url : String) : String :=
  .ofList (withoutUserinfo (url.toList.reverse.dropWhile (· == '/')).reverse)

/-- The instance a remote source pulls from, in one spelling. -/
def remoteUrl (source : Source) : Option String :=
  if source.connectorType = .remote then source.config["url"]?.map shownUrl else none

/-! ## The map -/

structure PeerSource where
  sourceId : String
  remoteSource : String
  cached : Bool
  hosts : Option Nat
  groups : Option Nat
  ageSeconds : Option Nat
  consecutiveFailures : Nat
  lastPullAgeSeconds : Option Nat
  lastError : Option String
  deriving DecidableEq

/-- A peer, over what a peer says about itself. -/
structure PeerOf (Instance : Type) where
  url : String
  sources : List PeerSource
  inst : Option Instance := none
  error : Option String := none

structure Topology where
  name : Option String := none
  version : String
  /-- Absent when the peer is too old to describe itself. -/
  sources : Option Nat := none
  peers : List (PeerOf Topology) := []

abbrev Peer := PeerOf Topology

/-- No chain of instances is longer than this many hops. -/
def Topology.NestsWithin : Nat → Topology → Prop
  | 0, topology => ∀ peer ∈ topology.peers, peer.inst = none
  | hops + 1, topology => ∀ peer ∈ topology.peers, ∀ answered, peer.inst = some answered →
      NestsWithin hops answered

/-! ## What others are shown of it -/

def notAsked : String := "not asked: this instance cannot authenticate to it"

def pullFailed : String := "the last pull failed — its error is on the instance that pulls"

/-- Told by its text: not asked, and not for the depth. -/
def namesSecret (error : String) : Bool :=
  "not asked:".toList.isPrefixOf error.toList && !decide ("depth limit".toList <:+: error.toList)

def PeerOf.redacted (peer : Peer) : Peer :=
  { peer with
    inst := peer.inst.map fun answered => { answered with sources := none, peers := [] }
    error := peer.error.map fun error => if namesSecret error then notAsked else error }

/-- What a caller who is not an admin may see of the peers. -/
def Topology.redacted (topology : Topology) : Topology :=
  { topology with peers := topology.peers.map PeerOf.redacted }

def PeerSource.forPush (source : PeerSource) : PeerSource :=
  { source with lastError := source.lastError.map fun _ => pullFailed }

def PeerOf.forPush (peer : Peer) : Peer :=
  { peer with sources := peer.sources.map PeerSource.forPush }

/-- What is pushed to the peers: a failing link says that it fails, not why. -/
def Topology.forPush (topology : Topology) : Topology :=
  { topology.redacted with peers := topology.redacted.peers.map PeerOf.forPush }

/-! ## The peers of a configuration -/

/-- The sources that read from one peer: there is at least one. -/
abbrev Members := { members : List (String × Source) // members ≠ [] }

/-- Which of them lends the map its key: the first by id. -/
def Members.keySource (members : Members) : Source := (members.1.head members.2).2

/-- One more source reads from the peer. -/
def Members.push (members : Option Members) (id : String) (source : Source) : Members :=
  ⟨members.elim [] (·.1) ++ [(id, source)], by simp⟩

def addMember (visible : String → Bool) (peers : StrMap Members) (id : String) (source : Source) :
    StrMap Members :=
  if visible id then
    match remoteUrl source with
    | some url => peers.alter url fun members => some (Members.push members id source)
    | none => peers
  else peers

/-- Every remote source that the caller may see, by the address it reads from.
The sources are walked by id, which leaves each peer's sorted. -/
def peersOf (sources : StrMap Source) (visible : String → Bool) : StrMap Members :=
  sources.foldl (addMember visible) ∅

/-- The visible sources that read from an address, by id. -/
def readingFrom (sources : StrMap Source) (visible : String → Bool) (url : String) :
    List (String × Source) :=
  sources.toList.filter fun member => visible member.1 && remoteUrl member.2 == some url

/-- The sources grouped under an address so far. -/
def membersAt (peers : StrMap Members) (url : String) : List (String × Source) :=
  peers[url]?.elim [] (·.1)

theorem membersAt_eq_iff {peers : StrMap Members} {url : String} {members : Members} :
    peers[url]? = some members ↔ membersAt peers url = members.1 := by
  unfold membersAt
  cases hurl : peers[url]? with
  | none => simpa using members.2.symm
  | some grouped => simpa using Subtype.ext_iff

theorem membersAt_addMember (visible : String → Bool) (peers : StrMap Members) (id : String)
    (source : Source) (url : String) :
    membersAt (addMember visible peers id source) url =
      membersAt peers url ++
        if visible id && remoteUrl source == some url then [(id, source)] else [] := by
  unfold addMember
  by_cases hvisible : visible id
  · cases hsource : remoteUrl source with
    | none => simp [hvisible]
    | some own =>
      by_cases hown : own = url
      · simp [hvisible, hown, membersAt, Members.push]
      · simp [hvisible, hown, membersAt, StrMap.getElem?_alter]
  · simp [hvisible]

theorem membersAt_peersOf (sources : StrMap Source) (visible : String → Bool) (url : String) :
    membersAt (peersOf sources visible) url = readingFrom sources visible url := by
  suffices hfold : ∀ (listed : List (String × Source)) (peers : StrMap Members),
      membersAt (listed.foldl (fun peers member => addMember visible peers member.1 member.2)
        peers) url =
      membersAt peers url ++
        listed.filter fun member => visible member.1 && remoteUrl member.2 == some url by
    rw [peersOf, Std.ExtTreeMap.foldl_eq_foldl_toList, hfold]
    rfl
  intro listed
  induction listed with
  | nil => simp
  | cons member rest ih =>
    intro peers
    rw [List.foldl_cons, ih, membersAt_addMember, List.append_assoc, List.filter_cons]
    split <;> rfl

/-- A peer's members are the sources that read from it. -/
theorem getElem?_peersOf {sources : StrMap Source} {visible : String → Bool} {url : String}
    {members : Members} : (peersOf sources visible)[url]? = some members ↔
      readingFrom sources visible url = members.1 := by
  rw [membersAt_eq_iff, membersAt_peersOf]

/-- The peers are the addresses that some visible source reads from. -/
theorem mem_peersOf {sources : StrMap Source} {visible : String → Bool} {url : String} :
    url ∈ peersOf sources visible ↔
      ∃ id source,
        sources[id]? = some source ∧ visible id = true ∧ remoteUrl source = some url := by
  constructor
  · intro hurl
    obtain ⟨members, hmembers⟩ := (StrMap.mem_iff_exists _ _).mp hurl
    obtain ⟨⟨id, source⟩, hmember⟩ := List.exists_mem_of_ne_nil _ members.2
    rw [← getElem?_peersOf.mp hmembers, readingFrom, List.mem_filter,
      Std.ExtTreeMap.mem_toList_iff_getElem?_eq_some] at hmember
    obtain ⟨hsource, hreads⟩ := hmember
    rw [Bool.and_eq_true, beq_iff_eq] at hreads
    exact ⟨id, source, hsource, hreads⟩
  · rintro ⟨id, source, hsource, hvisible, hreads⟩
    have hmember : (id, source) ∈ readingFrom sources visible url := by
      rw [readingFrom, List.mem_filter, Std.ExtTreeMap.mem_toList_iff_getElem?_eq_some]
      exact ⟨hsource, by simp [hvisible, hreads]⟩
    exact StrMap.mem_of_some
      (getElem?_peersOf.mpr (show _ = (⟨_, List.ne_nil_of_mem hmember⟩ : Members).1 from rfl))

end UnifiedApi

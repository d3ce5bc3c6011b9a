import UnifiedApi.Adapters.Http.PlainReads
import UnifiedApi.Lib.Slots

/-! # Full pulls with a validator, several at a time

The remote connector remembers the last full body of a dataset URL with its
validator, and a later pull of the URL that is answered with a 304 takes the
dataset from there. A sync holds its source's lock, but two sources may name
one URL, so that the memo may change while a pull is under way. -/

namespace UnifiedApi
namespace PullExchange

structure FetchMemo where
  etag : String
  dataset : Dataset
  /-- History: the pull it was remembered from. -/
  pulledBy : Nat

inductive PullOutcome where
  | fetched (dataset : Dataset)
  | failed (message : String)
  /-- A 304 without a memo. -/
  | panicked

structure FullPull where
  validator : Option String
  sent : Bool := false
  /-- History: the pulls whose bodies were remembered while this one was under way. -/
  since : List Nat := []
  outcome : Option PullOutcome := none

/-- The origin, and the connector's memo of one URL with every pull of it so far. -/
structure PullSystem where
  origin : PlainState := {}
  memo : Option FetchMemo := none
  pulls : List FullPull := []

inductive PullEvent (Layout : Type) where
  /-- Whatever goes on at the origin without a pull's doing. -/
  | origin (event : PlainEvent Layout)
  /-- A pull takes the validator of the memo. -/
  | begin
  /-- Its request reaches the origin. -/
  | arrive (i : Nat)
  | receive (i : Nat)
  /-- Refused, not found, timed out, or the connection was lost. -/
  | fail (i : Nat) (message : String)
  /-- The connector's process starts anew. -/
  | restart

namespace FullPull

def fails (message : String) (pull : FullPull) : FullPull :=
  if pull.outcome.isNone then { pull with outcome := some (.failed message) } else pull

/-- The memo changes under a pull that is under way. -/
def overtaken (other : Nat) (pull : FullPull) : FullPull :=
  if pull.outcome.isNone then { pull with since := other :: pull.since } else pull

end FullPull

namespace PullSystem

variable {Layout : Type} (toVec : Layout → Dataset → Except String (List UInt8))
  (hash : List UInt8 → UInt64) (parse : List UInt8 → Except String Dataset)
  (sourceId url : String)

def finish (s : PullSystem) (i : Nat) (pull : FullPull) (outcome : PullOutcome) : PullSystem :=
  { s with pulls := s.pulls.set i { pull with outcome := some outcome } }

/-- What the connector makes of the answer. -/
def received (s : PullSystem) (i : Nat) (pull : FullPull) (answer : PlainAnswer) : PullSystem :=
  match answer.json with
  | .error e => s.finish i pull (.failed ("'" ++ url ++ "' answered HTTP " ++ toString e.status))
  | .ok json =>
    if answer.notModified then match s.memo with
      | some memo => s.finish i pull (.fetched memo.dataset)
      | none => s.finish i pull .panicked
    else match parse json.bytes with
      | .error e => s.finish i pull (.failed
          ("remote dataset from '" ++ url ++ "' is not valid Dataset JSON: " ++ e))
      | .ok dataset =>
        { s with
          memo := some ⟨json.etag, dataset, i⟩
          pulls := (s.pulls.map (·.overtaken i)).set i
            { pull with outcome := some (.fetched dataset) } }

def step (s : PullSystem) : PullEvent Layout → Option PullSystem
  | .origin event => match event with
    | .take (some _) _ _ => none
    | _ => (s.origin.step toVec hash event).map fun origin => { s with origin }
  | .begin => some { s with pulls := s.pulls ++ [{ validator := s.memo.map (·.etag) }] }
  | .arrive i => s.pulls[i]?.bind fun pull =>
    if pull.sent then none
    else (s.origin.step toVec hash (.take (some i) sourceId pull.validator)).map fun origin =>
      { s with origin, pulls := s.pulls.set i { pull with sent := true } }
  | .receive i => s.pulls[i]?.bind fun pull =>
    if pull.outcome.isSome then none
    else (s.origin.answered.find? fun answer => answer.read.client == some i).map
      (s.received parse url i pull)
  | .fail i message => s.pulls[i]?.map fun pull =>
    { s with pulls := s.pulls.set i (pull.fails message) }
  | .restart => some { s with
      memo := none
      pulls := s.pulls.map (·.fails "the process was restarted") }

end PullSystem

end PullExchange

/-! ## What the origin keeps track of -/

namespace PlainState

variable {Layout : Type} {toVec : Layout → Dataset → Except String (List UInt8)}
  {hash : List UInt8 → UInt64} {s s' : PlainState} {event : PlainEvent Layout}

/-- A request, under way or answered. -/
def Asks (s : PlainState) (client : Option Nat) (key : String) (header : Option String) : Prop :=
  ∃ read, (read ∈ s.reads ∨ ∃ answer ∈ s.answered, answer.read = read) ∧
    read.client = client ∧ read.key = key ∧ read.ifNoneMatch = header

theorem answered_mono (h : s.step toVec hash event = some s') {answer : PlainAnswer}
    (hanswer : answer ∈ s.answered) : answer ∈ s'.answered := by
  cases event with
  | write w =>
    obtain rfl := Option.some.inj h
    unfold afterWrite
    split <;> exact hanswer
  | take client key ifNoneMatch =>
    obtain ⟨entry, _, rfl⟩ := Option.map_eq_some_iff.mp h
    exact hanswer
  | look i layout =>
    simp only [step] at h
    split at h
    · rename_i read _
      split at h
      · cases h
      · obtain rfl := Option.some.inj h
        unfold afterLook
        split
        · exact List.mem_cons_of_mem _ hanswer
        · split
          · exact hanswer
          · exact List.mem_cons_of_mem _ hanswer
    · cases h
  | store i =>
    obtain ⟨read, _, h⟩ := Option.bind_eq_some_iff.mp h
    obtain ⟨json, _, rfl⟩ := Option.map_eq_some_iff.mp h
    exact List.mem_cons_of_mem _ hanswer
  | drop i =>
    obtain ⟨read, _, rfl⟩ := Option.map_eq_some_iff.mp h
    exact hanswer
  | restart =>
    obtain rfl := Option.some.inj h
    exact hanswer

theorem asks_of_answer {i : Nat} {read : PlainRead} {json : Except ApiError SerializedJson}
    (hread : s.reads[i]? = some read) {client : Option Nat} {key : String} {header : Option String}
    (h : (s.answer i read json).Asks client key header) : s.Asks client key header := by
  obtain ⟨other, hother | ⟨answer, hanswer, rfl⟩, hfields⟩ := h
  · exact ⟨other, .inl (List.mem_of_mem_eraseIdx hother), hfields⟩
  · rcases List.mem_cons.mp hanswer with rfl | hold
    · exact ⟨read, .inl (List.mem_of_getElem? hread), hfields⟩
    · exact ⟨answer.read, .inr ⟨answer, hold, rfl⟩, hfields⟩

/-- A request comes from nowhere but a `take`. -/
theorem asks_step (h : s.step toVec hash event = some s') {client : Option Nat} {key : String}
    {header : Option String} (hasks : s'.Asks client key header) :
    s.Asks client key header ∨ event = .take client key header := by
  cases event with
  | write w =>
    obtain rfl := Option.some.inj h
    unfold afterWrite at hasks
    split at hasks <;> exact .inl hasks
  | take client' key' header' =>
    obtain ⟨entry, _, rfl⟩ := Option.map_eq_some_iff.mp h
    obtain ⟨read, hread | hanswered, rfl, rfl, rfl⟩ := hasks
    · rcases List.mem_append.mp hread with hold | hnew
      · exact .inl ⟨read, .inl hold, rfl, rfl, rfl⟩
      · obtain rfl := List.mem_singleton.mp hnew
        exact .inr rfl
    · exact .inl ⟨read, .inr hanswered, rfl, rfl, rfl⟩
  | look i layout =>
    simp only [step] at h
    split at h
    · rename_i read hread
      split at h
      · cases h
      · obtain rfl := Option.some.inj h
        refine .inl ?_
        unfold afterLook at hasks
        split at hasks
        · exact asks_of_answer hread hasks
        · split at hasks
          · obtain ⟨other, hother | hanswered, hfields⟩ := hasks
            · rcases List.mem_or_eq_of_mem_set hother with hold | rfl
              · exact ⟨other, .inl hold, hfields⟩
              · exact ⟨read, .inl (List.mem_of_getElem? hread), hfields⟩
            · exact ⟨other, .inr hanswered, hfields⟩
          · exact asks_of_answer hread hasks
    · cases h
  | store i =>
    obtain ⟨read, hread, h⟩ := Option.bind_eq_some_iff.mp h
    obtain ⟨json, _, rfl⟩ := Option.map_eq_some_iff.mp h
    exact .inl (asks_of_answer (s := { s with cells := s.cells.fill read.cell json }) hread hasks)
  | drop i =>
    obtain ⟨read, _, rfl⟩ := Option.map_eq_some_iff.mp h
    obtain ⟨other, hother | hanswered, hfields⟩ := hasks
    · exact .inl ⟨other, .inl (List.mem_of_mem_eraseIdx hother), hfields⟩
    · exact .inl ⟨other, .inr hanswered, hfields⟩
  | restart =>
    obtain rfl := Option.some.inj h
    obtain ⟨other, hother | hanswered, hfields⟩ := hasks
    · cases hother
    · exact .inl ⟨other, .inr hanswered, hfields⟩

end PlainState

namespace PullExchange
namespace PullSystem

variable {Layout : Type} (toVec : Layout → Dataset → Except String (List UInt8))
  (hash : List UInt8 → UInt64) (parse : List UInt8 → Except String Dataset)
  (sourceId url : String)

/-! ## Where a pull's dataset is from -/

/-- The body that the memo was made of. -/
def Remembered (answered : List PlainAnswer) (memo : FetchMemo) : Prop :=
  ∃ answer ∈ answered, ∃ json, answer.read.client = some memo.pulledBy ∧ answer.json = .ok json ∧
    memo.etag = json.etag ∧ parse json.bytes = .ok memo.dataset

/-- A dataset was read of a body with the validator of an answer to this pull,
or to one whose body was remembered in its time. -/
def Ends (answered : List PlainAnswer) (i : Nat) (pull : FullPull) : PullOutcome → Prop
  | .fetched dataset => ∃ answer ∈ answered, ∃ other ∈ answered, ∃ json json',
      (answer.read.client = some i ∨ ∃ j ∈ pull.since, answer.read.client = some j) ∧
      answer.json = .ok json ∧ other.json = .ok json' ∧ json.etag = json'.etag ∧
      parse json'.bytes = .ok dataset
  | .failed _ => True
  | .panicked => False

structure Inv (s : PullSystem) : Prop where
  origin : s.origin.Inv toVec hash
  memo : ∀ memo, s.memo = some memo → Remembered parse s.origin.answered memo
  /-- A validator that is on its way is that of the memo, unless the memo has
  changed in the pull's time. -/
  pending : ∀ (i : Nat) (pull : FullPull) (etag : String), s.pulls[i]? = some pull →
    pull.outcome = none → pull.validator = some etag → (∃ bytes, etag = contentEtag hash bytes) ∧
      ∃ memo, s.memo = some memo ∧ (memo.etag = etag ∨ memo.pulledBy ∈ pull.since)
  asked : ∀ (i : Nat) (key : String) (header : Option String),
    s.origin.Asks (some i) key header → key = sourceId ∧ ∃ pull : FullPull,
      s.pulls[i]? = some pull ∧ pull.validator = header
  ended : ∀ (i : Nat) (pull : FullPull) (outcome : PullOutcome), s.pulls[i]? = some pull →
    pull.outcome = some outcome →
    Ends parse s.origin.answered i pull outcome

variable {toVec hash parse sourceId url} {s : PullSystem}

theorem Ends.mono {answered answered' : List PlainAnswer} {i : Nat} {pull : FullPull}
    {outcome : PullOutcome} (h : Ends parse answered i pull outcome)
    (hmono : ∀ answer ∈ answered, answer ∈ answered') : Ends parse answered' i pull outcome := by
  cases outcome with
  | fetched dataset =>
    obtain ⟨answer, hanswer, other, hother, hrest⟩ := h
    exact ⟨answer, hmono answer hanswer, other, hmono other hother, hrest⟩
  | failed message => trivial
  | panicked => exact h

theorem inv_start : Inv toVec hash parse sourceId {} where
  origin := PlainState.inv_start
  memo := fun _ h => nomatch h
  pending := fun _ _ _ h => nomatch h
  asked := by
    rintro i key header ⟨read, hread | ⟨answer, hanswer, _⟩, _⟩
    · exact nomatch hread
    · exact nomatch hanswer
  ended := fun _ _ _ h => nomatch h

namespace Inv

/-- The origin goes on. -/
theorem originStep (h : s.Inv toVec hash parse sourceId) {event : PlainEvent Layout}
    {origin : PlainState} (hstep : s.origin.step toVec hash event = some origin)
    (hasked : ∀ i key header, event = .take (some i) key header → key = sourceId ∧
      ∃ pull, s.pulls[i]? = some pull ∧ pull.validator = header) :
    Inv toVec hash parse sourceId { s with origin } where
  origin := h.origin.step hstep
  memo := by
    intro memo hmemo
    obtain ⟨answer, hanswer, hrest⟩ := h.memo memo hmemo
    exact ⟨answer, PlainState.answered_mono hstep hanswer, hrest⟩
  pending := h.pending
  asked := by
    intro i key header hasks
    rcases PlainState.asks_step hstep hasks with hold | hnew
    · exact h.asked i key header hold
    · exact hasked i key header hnew
  ended := fun i pull outcome hpull houtcome =>
    (h.ended i pull outcome hpull houtcome).mono fun _ => PlainState.answered_mono hstep

theorem begin (h : s.Inv toVec hash parse sourceId) : Inv toVec hash parse sourceId
    { s with pulls := s.pulls ++ [{ validator := s.memo.map (·.etag) }] } where
  origin := h.origin
  memo := h.memo
  pending := by
    intro i pull etag hpull hunderWay hetag
    rcases Slots.getElem?_append_or hpull with hold | ⟨_, rfl⟩
    · exact h.pending i pull etag hold hunderWay hetag
    · obtain ⟨memo, hmemo, rfl⟩ := Option.map_eq_some_iff.mp hetag
      obtain ⟨answer, hanswer, json, _, hjson, hsame, _⟩ := h.memo memo hmemo
      exact ⟨⟨json.bytes, hsame.trans (h.origin.etag toVec hash hanswer hjson)⟩,
        memo, hmemo, .inl rfl⟩
  asked := by
    intro i key header hasks
    obtain ⟨hkey, pull, hpull, hheader⟩ := h.asked i key header hasks
    exact ⟨hkey, pull, Slots.getElem?_append hpull _, hheader⟩
  ended := by
    intro i pull outcome hpull houtcome
    rcases Slots.getElem?_append_or hpull with hold | ⟨_, rfl⟩
    · exact h.ended i pull outcome hold houtcome
    · cases houtcome

/-- One pull moves, and keeps what it asked with. -/
theorem set (h : s.Inv toVec hash parse sourceId) {i : Nat} {old new : FullPull}
    (hold : s.pulls[i]? = some old) (hvalidator : new.validator = old.validator)
    (hsince : new.since = old.since) (hunderWay : new.outcome = none → old.outcome = none)
    (hended : ∀ outcome, new.outcome = some outcome → Ends parse s.origin.answered i new outcome) :
    Inv toVec hash parse sourceId { s with pulls := s.pulls.set i new } where
  origin := h.origin
  memo := h.memo
  pending := by
    intro j pull etag hpull hnone hetag
    rw [Slots.getElem?_set hold] at hpull
    split at hpull
    · obtain rfl := Option.some.inj hpull
      rw [hsince]
      exact h.pending i old etag hold (hunderWay hnone) (hvalidator.symm.trans hetag)
    · exact h.pending j pull etag hpull hnone hetag
  asked := by
    intro j key header hasks
    obtain ⟨hkey, pull, hpull, hheader⟩ := h.asked j key header hasks
    refine ⟨hkey, ?_⟩
    rw [Slots.getElem?_set hold]
    split
    · rename_i hj
      subst hj
      obtain rfl := Option.some.inj (hold.symm.trans hpull)
      exact ⟨new, rfl, hvalidator.trans hheader⟩
    · exact ⟨pull, hpull, hheader⟩
  ended := by
    intro j pull outcome hpull houtcome
    rw [Slots.getElem?_set hold] at hpull
    split at hpull
    · rename_i hj
      subst hj
      obtain rfl := Option.some.inj hpull
      exact hended outcome houtcome
    · exact h.ended j pull outcome hpull houtcome

theorem finish (h : s.Inv toVec hash parse sourceId) {i : Nat} {pull : FullPull}
    {outcome : PullOutcome} (hpull : s.pulls[i]? = some pull)
    (hended : Ends parse s.origin.answered i pull outcome) :
    (s.finish i pull outcome).Inv toVec hash parse sourceId :=
  h.set hpull rfl rfl (fun hnone => nomatch hnone) fun other hother => by
    obtain rfl := Option.some.inj hother
    exact hended

/-- A body is remembered, and every other pull under way is overtaken by it. -/
theorem remember (h : s.Inv toVec hash parse sourceId) {i : Nat} {pull : FullPull}
    {answer : PlainAnswer} {json : SerializedJson} {dataset : Dataset}
    (hpull : s.pulls[i]? = some pull) (hanswer : answer ∈ s.origin.answered)
    (hclient : answer.read.client = some i) (hjson : answer.json = .ok json)
    (hparse : parse json.bytes = .ok dataset) : Inv toVec hash parse sourceId
      { s with
        memo := some ⟨json.etag, dataset, i⟩
        pulls := (s.pulls.map (·.overtaken i)).set i
          { pull with outcome := some (.fetched dataset) } } := by
  have hmapped : (s.pulls.map (·.overtaken i))[i]? = some (pull.overtaken i) := by
    rw [List.getElem?_map, hpull]
    rfl
  have hothers : ∀ (j : Nat) (other : FullPull),
      ((s.pulls.map (·.overtaken i)).set i { pull with outcome := some (.fetched dataset) })[j]? =
        some other → (j = i ∧ other = { pull with outcome := some (.fetched dataset) }) ∨
          ∃ old, s.pulls[j]? = some old ∧ other = old.overtaken i := by
    intro j other hother
    rw [Slots.getElem?_set hmapped] at hother
    split at hother
    · rename_i hj
      exact .inl ⟨hj, (Option.some.inj hother).symm⟩
    · rw [List.getElem?_map] at hother
      obtain ⟨old, hold, rfl⟩ := Option.map_eq_some_iff.mp hother
      exact .inr ⟨old, hold, rfl⟩
  constructor
  · exact h.origin
  · intro memo hmemo
    obtain rfl := Option.some.inj hmemo
    exact ⟨answer, hanswer, json, hclient, hjson, rfl, hparse⟩
  · intro j other etag hother hnone hetag
    rcases hothers j other hother with ⟨_, rfl⟩ | ⟨old, hold, rfl⟩
    · cases hnone
    · unfold FullPull.overtaken at hnone hetag ⊢
      split at hnone
      · rename_i hunderWay
        rw [if_pos hunderWay] at hetag ⊢
        exact ⟨(h.pending j old etag hold (Option.isNone_iff_eq_none.mp hunderWay) hetag).1,
          _, rfl, .inr List.mem_cons_self⟩
      · rename_i hover
        exact absurd (Option.isNone_iff_eq_none.mpr hnone) hover
  · intro j key header hasks
    obtain ⟨hkey, old, hold, hheader⟩ := h.asked j key header hasks
    refine ⟨hkey, ?_⟩
    rw [Slots.getElem?_set hmapped]
    split
    · rename_i hj
      subst hj
      obtain rfl := Option.some.inj (hpull.symm.trans hold)
      exact ⟨_, rfl, hheader⟩
    · rw [List.getElem?_map, hold]
      refine ⟨old.overtaken i, rfl, ?_⟩
      unfold FullPull.overtaken
      split <;> exact hheader
  · intro j other outcome hother houtcome
    rcases hothers j other hother with ⟨rfl, rfl⟩ | ⟨old, hold, rfl⟩
    · obtain rfl := Option.some.inj houtcome
      exact ⟨answer, hanswer, answer, hanswer, json, json, .inl hclient, hjson, hjson, rfl, hparse⟩
    · unfold FullPull.overtaken at houtcome ⊢
      split at houtcome
      · rename_i hunderWay
        exact nomatch (Option.isNone_iff_eq_none.mp hunderWay).symm.trans houtcome
      · rename_i hover
        rw [if_neg hover]
        exact h.ended j old outcome hold houtcome

/-- A 304 answers the validator that the pull was sent with, whose memo is still
there or was replaced in the pull's time. -/
theorem received (h : s.Inv toVec hash parse sourceId) {i : Nat} {pull : FullPull}
    {answer : PlainAnswer} (hpull : s.pulls[i]? = some pull) (hunderWay : pull.outcome = none)
    (hanswer : answer ∈ s.origin.answered) (hclient : answer.read.client = some i) :
    (s.received parse url i pull answer).Inv toVec hash parse sourceId := by
  unfold PullSystem.received
  cases hjson : answer.json with
  | error e => exact h.finish hpull trivial
  | ok json =>
    dsimp only
    split
    · rename_i hunchanged
      unfold PlainAnswer.notModified at hunchanged
      rw [hjson] at hunchanged
      obtain ⟨_, asked, hasked, hvalidator⟩ := h.asked i answer.read.key answer.read.ifNoneMatch
        ⟨answer.read, .inr ⟨answer, hanswer, rfl⟩, hclient, rfl, rfl⟩
      obtain rfl := Option.some.inj (hpull.symm.trans hasked)
      cases hheader : answer.read.ifNoneMatch with
      | none =>
        rw [hheader] at hunchanged
        cases hunchanged
      | some etag =>
        obtain ⟨⟨bytes, rfl⟩, memo, hmemo, hetag⟩ :=
          h.pending i pull etag hpull hunderWay (hvalidator.trans hheader)
        rw [hheader] at hunchanged
        have hsame := (ifNoneMatch_contentEtag hash bytes json.etag).mp hunchanged
        rw [hmemo]
        refine h.finish hpull ?_
        obtain ⟨source, hsource, json', hby, hjson', hmade, hparse⟩ := h.memo memo hmemo
        rcases hetag with hetag | hreplaced
        · exact ⟨answer, hanswer, source, hsource, json, json', .inl hclient, hjson, hjson',
            (hsame.symm.trans hetag.symm).trans hmade, hparse⟩
        · exact ⟨source, hsource, source, hsource, json', json', .inr ⟨_, hreplaced, hby⟩, hjson',
            hjson', rfl, hparse⟩
    · split
      · exact h.finish hpull trivial
      · rename_i dataset hparse
        exact h.remember hpull hanswer hclient hjson hparse

/-- A pull that is given up. -/
theorem fail (h : s.Inv toVec hash parse sourceId) {i : Nat} {pull : FullPull}
    (hpull : s.pulls[i]? = some pull) (message : String) :
    Inv toVec hash parse sourceId { s with pulls := s.pulls.set i (pull.fails message) } := by
  unfold FullPull.fails
  split
  · exact h.set hpull rfl rfl (fun hnone => nomatch hnone) fun outcome houtcome => by
      obtain rfl := Option.some.inj houtcome
      trivial
  · exact h.set hpull rfl rfl id fun outcome houtcome => h.ended i pull outcome hpull houtcome

theorem restart (h : s.Inv toVec hash parse sourceId) (message : String) :
    Inv toVec hash parse sourceId
      { s with memo := none, pulls := s.pulls.map (·.fails message) } := by
  constructor
  · exact h.origin
  · exact fun _ hmemo => nomatch hmemo
  · intro i pull etag hpull hnone _
    rw [List.getElem?_map] at hpull
    obtain ⟨old, _, rfl⟩ := Option.map_eq_some_iff.mp hpull
    unfold FullPull.fails at hnone
    split at hnone
    · cases hnone
    · rename_i hover
      exact absurd (Option.isNone_iff_eq_none.mpr hnone) hover
  · intro i key header hasks
    obtain ⟨hkey, old, hold, hheader⟩ := h.asked i key header hasks
    refine ⟨hkey, old.fails message, ?_, ?_⟩
    · rw [List.getElem?_map, hold]
      rfl
    · unfold FullPull.fails
      split <;> exact hheader
  · intro i pull outcome hpull houtcome
    rw [List.getElem?_map] at hpull
    obtain ⟨old, hold, rfl⟩ := Option.map_eq_some_iff.mp hpull
    unfold FullPull.fails at houtcome ⊢
    split at houtcome
    · obtain rfl := Option.some.inj houtcome
      trivial
    · rename_i hover
      rw [if_neg hover]
      exact h.ended i old outcome hold houtcome

theorem step {event : PullEvent Layout} {s' : PullSystem} (h : s.Inv toVec hash parse sourceId)
    (hs : s.step toVec hash parse sourceId url event = some s') :
    s'.Inv toVec hash parse sourceId := by
  cases event with
  | origin event =>
    simp only [PullSystem.step] at hs
    split at hs
    · cases hs
    · rename_i hothers
      obtain ⟨origin, horigin, rfl⟩ := Option.map_eq_some_iff.mp hs
      exact h.originStep horigin fun i key header heq => absurd heq (hothers i key header)
  | begin =>
    obtain rfl := Option.some.inj hs
    exact h.begin
  | arrive i =>
    obtain ⟨pull, hpull, hs⟩ := Option.bind_eq_some_iff.mp hs
    split at hs
    · cases hs
    · obtain ⟨origin, horigin, rfl⟩ := Option.map_eq_some_iff.mp hs
      have hmoved := h.originStep horigin fun j key header heq => by
        obtain ⟨hj, rfl, rfl⟩ := PlainEvent.take.inj heq
        obtain rfl := Option.some.inj hj
        exact ⟨rfl, pull, hpull, rfl⟩
      exact hmoved.set hpull rfl rfl id fun outcome houtcome =>
        hmoved.ended i pull outcome hpull houtcome
  | receive i =>
    obtain ⟨pull, hpull, hs⟩ := Option.bind_eq_some_iff.mp hs
    split at hs
    · cases hs
    · rename_i hunderWay
      obtain ⟨answer, hfound, rfl⟩ := Option.map_eq_some_iff.mp hs
      have hclient := List.find?_some hfound
      exact h.received hpull (by simpa using hunderWay) (List.mem_of_find?_eq_some hfound)
        (beq_iff_eq.mp hclient)
  | fail i message =>
    obtain ⟨pull, hpull, rfl⟩ := Option.map_eq_some_iff.mp hs
    exact h.fail hpull message
  | restart =>
    obtain rfl := Option.some.inj hs
    exact h.restart _

theorem reach (h : Runs.Reach (PullSystem.step toVec hash parse sourceId url) Runs.Any {} s) :
    s.Inv toVec hash parse sourceId :=
  h.invariant inv_start fun _ _ _ hs _ hstep => hs.step hstep

end Inv

end PullSystem

/-! ## A pull with a validator fetches what one without would have fetched -/

section Pulls
variable {Layout : Type} (toVec : Layout → Dataset → Except String (List UInt8))
  (hash : List UInt8 → UInt64) (parse : List UInt8 → Except String Dataset)
  (sourceId url : String)

/-- The dataset is what the connector reads of a whole body that the origin made
for this request. -/
def FetchedBy (answered : List PlainAnswer) (client : Nat) (dataset : Dataset) : Prop :=
  ∃ answer ∈ answered, ∃ json layout, answer.read.client = some client ∧
    answer.read.key = sourceId ∧ answer.json = .ok json ∧
    toVec layout answer.read.dataset = .ok json.bytes ∧ parse json.bytes = .ok dataset

/-- No two bodies that the origin has served have one validator. -/
def NoCollision (answered : List PlainAnswer) : Prop :=
  ∀ a ∈ answered, ∀ b ∈ answered, ∀ json json', a.json = .ok json → b.json = .ok json' →
    json.etag = json'.etag → json.bytes = json'.bytes

/-- **A 304 stands for the body.** A pull that fetches a dataset, by a body or by
a 304, fetches the one of the body that the origin made for its request; or, where
the body of another pull of the URL was remembered in its time, the one of that.
A 304 never finds the memo missing. -/
theorem conditionalPull_exact {s : PullSystem}
    (h : Runs.Reach (PullSystem.step toVec hash parse sourceId url) Runs.Any {} s)
    (hserved : NoCollision s.origin.answered) (i : Nat) (pull : FullPull) (outcome : PullOutcome)
    (hpull : s.pulls[i]? = some pull) (houtcome : pull.outcome = some outcome) :
    match outcome with
    | .fetched dataset => FetchedBy toVec parse sourceId s.origin.answered i dataset ∨
        ∃ j ∈ pull.since, FetchedBy toVec parse sourceId s.origin.answered j dataset
    | .failed _ => True
    | .panicked => False := by
  have hinv := PullSystem.Inv.reach h
  have hended := hinv.ended i pull outcome hpull houtcome
  cases outcome with
  | failed message => trivial
  | panicked => exact hended
  | fetched dataset =>
    obtain ⟨answer, hanswer, other, hother, json, json', hclient, hjson, hjson', hetag, hparse⟩ :=
      hended
    rw [← hserved answer hanswer other hother json json' hjson hjson' hetag] at hparse
    have hby : ∀ j, answer.read.client = some j →
        FetchedBy toVec parse sourceId s.origin.answered j dataset := by
      intro j hj
      obtain ⟨layout, hlayout⟩ := hinv.origin.alone toVec hash hanswer
      rw [hjson] at hlayout
      exact ⟨answer, hanswer, json, layout, hj,
        (hinv.asked j _ _ ⟨answer.read, .inr ⟨answer, hanswer, rfl⟩, hj, rfl, rfl⟩).1,
        hjson, (serialize_ok toVec hash hlayout.symm).1, hparse⟩
    exact hclient.imp (hby i) fun ⟨j, hj, hclient⟩ => ⟨j, hj, hby j hclient⟩

end Pulls

/-- The first pull fetches the body, the second is told that nothing changed. -/
def polledTwice : List (PullEvent Unit) :=
  [.origin (.write (.set "web" (.new {} 60 0) [])), .begin, .arrive 0, .origin (.look 0 ()),
    .origin (.store 0), .receive 0, .begin, .arrive 1, .origin (.look 0 ()), .receive 1]

/-- It fetched something, and nothing was remembered in its time. -/
def FullPull.alone (pull : FullPull) : Bool :=
  pull.since.isEmpty && match pull.outcome with
    | some (.fetched _) => true
    | _ => false

theorem polledTwice_exact : ∃ s dataset, Runs.exec (PullSystem.step
      (fun (_ : Unit) _ => .ok [123, 125]) (fun _ => 0) (fun _ => .ok {}) "web" "https://origin") {}
        polledTwice = some s ∧ s.origin.answered.map (·.notModified) = [true, false] ∧
    FetchedBy (fun (_ : Unit) _ => .ok [123, 125]) (fun _ => .ok {}) "web" s.origin.answered 1
      dataset := by
  have hrun : (Runs.exec (PullSystem.step (fun (_ : Unit) _ => .ok [123, 125]) (fun _ => 0)
      (fun _ => .ok {}) "web" "https://origin") {} polledTwice).any (fun s =>
        s.origin.answered.map (·.notModified) == [true, false] &&
        s.pulls[1]?.any FullPull.alone) = true := by decide +kernel
  obtain ⟨s, hexec, hs⟩ := (Option.any_eq_true _ _).mp hrun
  obtain ⟨hanswered, hpulls⟩ := Bool.and_eq_true_iff.mp hs
  obtain ⟨pull, hpull, halone⟩ := (Option.any_eq_true _ _).mp hpulls
  obtain ⟨hsince, houtcome⟩ := Bool.and_eq_true_iff.mp halone
  split at houtcome
  · rename_i dataset hfetched
    have hreach := Runs.Reach.start.of_exec hexec
    have hserved : NoCollision s.origin.answered := by
      have hbytes :
          ∀ a ∈ s.origin.answered, ∀ json, a.json = .ok json → json.bytes = [123, 125] := by
        intro a ha json hjson
        obtain ⟨_, hlayout⟩ := (PullSystem.Inv.reach hreach).origin.alone _ _ ha
        rw [hjson] at hlayout
        exact (Except.ok.inj (serialize_ok _ _ hlayout.symm).1).symm
      intro a ha b hb json json' hjson hjson' _
      rw [hbytes a ha json hjson, hbytes b hb json' hjson']
    have hexact := conditionalPull_exact _ _ _ _ _ hreach hserved 1 pull _ hpull hfetched
    refine ⟨s, dataset, hexec, beq_iff_eq.mp hanswered, ?_⟩
    rw [List.isEmpty_iff.mp hsince] at hexact
    exact hexact.resolve_right fun ⟨_, hj, _⟩ => nomatch hj
  · cases houtcome

end PullExchange

end UnifiedApi

import UnifiedApi.Domain.JsonPaths
import UnifiedApi.Domain.Yaml

/-! # What aliases can expand to

An alias copies a value that may hold copies itself. The reader keeps the size
of each anchored value and adds up the sizes it copies, which together with
the events read bounds the value it returns. -/

namespace UnifiedApi

namespace Json

mutual
/-- How many nodes a value holds, itself included. -/
def nodes : Json → Nat
  | array items => 1 + nodesItems items
  | object fields => 1 + nodesFields fields
  | _ => 1

def nodesItems : List Json → Nat
  | [] => 0
  | item :: rest => item.nodes + nodesItems rest

def nodesFields : List (String × Json) → Nat
  | [] => 0
  | (_, value) :: rest => value.nodes + nodesFields rest
end

theorem nodesItems_append (items more : List Json) :
    nodesItems (items ++ more) = nodesItems items + nodesItems more := by
  induction items with
  | nil => simp [nodesItems]
  | cons item rest ih => simp only [List.cons_append, nodesItems, ih, Nat.add_assoc]

theorem nodesFields_perm {fields fields' : List (String × Json)} (h : fields.Perm fields') :
    nodesFields fields = nodesFields fields' := by
  induction h with
  | nil => rfl
  | cons field _ ih => simp only [nodesFields, ih]
  | swap field field' rest => simp only [nodesFields, Nat.add_left_comm]
  | trans _ _ ih ih' => exact ih.trans ih'

end Json

namespace Yaml
open Json

theorem nodes_of_isScalar {value : Json} (h : isScalar value = true) : value.nodes = 1 := by
  cases value with
  | array items => cases h
  | object fields => cases h
  | null | bool b | number n | string s => simp only [nodes]

/-- The size kept with each anchor is that of its value. -/
def Reader.Sized (reader : Reader) : Prop :=
  ∀ (id : Nat) (value : Json) (size : Nat), reader.anchors[id]? = some (value, size) →
    size = value.nodes

/-- The copies made keep to the budget. -/
def Reader.InBudget (reader : Reader) : Prop :=
  reader.copied ≤ max minAliasBudget (reader.events * 100)

/-- From `reader` to `reader'` a count of nodes went from `size` to `size'`:
no event is lost, and each node was read as an event or copied. -/
structure Grows (reader reader' : Reader) (size size' : Nat) : Prop where
  left : reader'.events + reader'.parser.length = reader.events + reader.parser.length
  events : reader.events ≤ reader'.events
  nodes : size' + reader.events + reader.copied ≤ size + reader'.events + reader'.copied
  inBudget : reader.InBudget → reader'.InBudget

section
variable {reader reader' reader'' : Reader} {size size' size'' : Nat} {event : Event}

theorem Grows.trans (h : Grows reader reader' size size')
    (h' : Grows reader' reader'' size' size'') : Grows reader reader'' size size'' where
  left := h'.left.trans h.left
  events := h.events.trans h'.events
  nodes := by
    have := h.nodes
    have := h'.nodes
    omega
  inBudget := fun hin => h'.inBudget (h.inBudget hin)

theorem Grows.add (h : Grows reader reader' size size') (more : Nat) :
    Grows reader reader' (more + size) (more + size') where
  left := h.left
  events := h.events
  nodes := by
    have := h.nodes
    omega
  inBudget := h.inBudget

theorem Grows.mono (h : Grows reader reader' size size') (hle : size'' ≤ size') :
    Grows reader reader' size size'' where
  left := h.left
  events := h.events
  nodes := by
    have := h.nodes
    omega
  inBudget := h.inBudget

/-- An event makes room for one node. -/
theorem Grows.next (h : reader.next = .ok (event, reader')) (size : Nat) :
    Grows reader reader' size (size + 1) := by
  obtain ⟨hparser, hreader⟩ := Reader.next_ok h
  rw [hreader]
  refine ⟨?_, Nat.le_succ _, ?_, ?_⟩
  · show reader.events + 1 + reader'.parser.length = _
    rw [hparser, List.length_cons]
    omega
  · show size + 1 + reader.events + reader.copied ≤ size + (reader.events + 1) + reader.copied
    omega
  · intro hin
    show reader.copied ≤ max minAliasBudget ((reader.events + 1) * 100)
    have : reader.copied ≤ max minAliasBudget (reader.events * 100) := hin
    omega

theorem Grows.keep (h : Grows reader reader' size size') (anchor : Nat) (value : Json)
    (kept : Nat) : Grows reader (reader'.keep anchor value kept) size size' := by
  unfold Reader.keep
  split
  · exact h
  · exact ⟨h.left, h.events, h.nodes, h.inBudget⟩

theorem Grows.refl (reader : Reader) (size : Nat) : Grows reader reader size size :=
  ⟨rfl, le_refl _, le_refl _, id⟩

/-- A copy within the budget. -/
theorem Grows.copy (h : reader.copied + size ≤ max minAliasBudget (reader.events * 100)) :
    Grows reader { reader with copied := reader.copied + size } 1 size := by
  refine ⟨rfl, le_refl _, ?_, fun _ => h⟩
  show size + reader.events + reader.copied ≤ 1 + reader.events + (reader.copied + size)
  omega

theorem Reader.Sized.next (h : reader.Sized) (hnext : reader.next = .ok (event, reader')) :
    reader'.Sized := by
  rw [(Reader.next_ok hnext).2]
  exact h

theorem Reader.Sized.keep (h : reader.Sized) (anchor : Nat) (value : Json) :
    (reader.keep anchor value value.nodes).Sized := by
  unfold Reader.keep
  split
  · exact h
  · intro id found size hfound
    dsimp only at hfound
    rw [Std.ExtTreeMap.getElem?_insert] at hfound
    split at hfound
    · obtain ⟨rfl, rfl⟩ := Prod.mk.inj (Option.some.inj hfound)
      rfl
    · exact h id found size hfound

end

/-! ## The calls -/

/-- The events that a call of some depth of fuel reads, and the copies it
makes, pay for its nodes. -/
structure GrowingCalls (ops : TextOps) (verbatim : Bool) (fuel : Nat) : Prop where
  node : ∀ {event : Event} {depth : Nat} {reader reader' : Reader} {value : Json} {size : Nat},
    node ops verbatim fuel event depth reader = .ok (value, size, reader') →
      Grows reader reader' 1 size
  items : ∀ {depth : Nat} {reader reader' : Reader} {items items' : List Json} {size size' : Nat},
    nodeItems ops verbatim fuel depth items size reader = .ok (items', size', reader') →
      Grows reader reader' size size'
  entries : ∀ {depth : Nat} {reader reader' : Reader} {map map' : List (String × Json)}
    {size size' : Nat},
    nodeEntries ops verbatim fuel depth map size reader = .ok (map', size', reader') →
      Grows reader reader' size size'

/-- The sizes it keeps and returns are those of the values. -/
structure SizedCalls (ops : TextOps) (verbatim : Bool) (fuel : Nat) : Prop where
  node : ∀ {event : Event} {depth : Nat} {reader reader' : Reader} {value : Json} {size : Nat},
    node ops verbatim fuel event depth reader = .ok (value, size, reader') → reader.Sized →
      size = value.nodes ∧ reader'.Sized
  items : ∀ {depth : Nat} {reader reader' : Reader} {items items' : List Json} {size size' : Nat},
    nodeItems ops verbatim fuel depth items size reader = .ok (items', size', reader') →
      reader.Sized → size = 1 + nodesItems items → size' = 1 + nodesItems items' ∧ reader'.Sized
  entries : ∀ {depth : Nat} {reader reader' : Reader} {map map' : List (String × Json)}
    {size size' : Nat},
    nodeEntries ops verbatim fuel depth map size reader = .ok (map', size', reader') →
      reader.Sized → size = 1 + nodesFields map → size' = 1 + nodesFields map' ∧ reader'.Sized

section
variable {ops : TextOps} {verbatim : Bool} {fuel depth : Nat} {event : Event}
  {reader reader' : Reader} {size size' : Nat}

theorem GrowingCalls.node_succ (ih : GrowingCalls ops verbatim fuel) {value : Json}
    (h : Yaml.node ops verbatim (fuel + 1) event depth reader = .ok (value, size, reader')) :
    Grows reader reader' 1 size := by
  cases (node_done h).2 with
  | copied _ hbudget => exact Grows.copy hbudget
  | scalar _ => exact (Grows.refl reader 1).keep _ _ 1
  | sequence hitems => exact (ih.items hitems).keep _ _ _
  | mapping hentries => exact (ih.entries hentries).keep _ _ _

theorem GrowingCalls.items_succ (ih : GrowingCalls ops verbatim fuel) {items items' : List Json}
    (h : nodeItems ops verbatim (fuel + 1) depth items size reader = .ok (items', size', reader')) :
    Grows reader reader' size size' := by
  obtain ⟨event, inner, hnext, ⟨_, _, rfl, rfl⟩ | ⟨item, n, after, _, hnode, hrest⟩⟩ :=
    nodeItems_done h
  · exact (Grows.next hnext _).mono (Nat.le_succ _)
  · exact ((Grows.next hnext size).trans ((ih.node hnode).add size)).trans (ih.items hrest)

theorem GrowingCalls.entries_succ (ih : GrowingCalls ops verbatim fuel)
    {map map' : List (String × Json)}
    (h : nodeEntries ops verbatim (fuel + 1) depth map size reader = .ok (map', size', reader')) :
    Grows reader reader' size size' := by
  obtain ⟨event, inner, hnext, ⟨_, _, rfl, rfl⟩ |
    ⟨key, first, before, value, n, after, _, _, hfirst, hnode, _, hrest⟩⟩ := nodeEntries_done h
  · exact (Grows.next hnext _).mono (Nat.le_succ _)
  · -- the key's event is read too, and counts for nothing
    have hkey := ((Grows.next hnext size).mono (Nat.le_succ _)).trans (Grows.next hfirst size)
    exact (hkey.trans ((ih.node hnode).add size)).trans (ih.entries hrest)

theorem growingCalls (ops : TextOps) (verbatim : Bool) (fuel : Nat) :
    GrowingCalls ops verbatim fuel := by
  induction fuel with
  | zero => exact ⟨by simp, by simp, by simp⟩
  | succ fuel ih => exact ⟨ih.node_succ, ih.items_succ, ih.entries_succ⟩

theorem SizedCalls.node_succ (ih : SizedCalls ops verbatim fuel) {value : Json}
    (h : Yaml.node ops verbatim (fuel + 1) event depth reader = .ok (value, size, reader'))
    (hsized : reader.Sized) : size = value.nodes ∧ reader'.Sized := by
  cases (node_done h).2 with
  | copied hanchor _ => exact ⟨hsized _ _ _ hanchor, hsized⟩
  | @scalar text style anchor tag _ =>
    have hone : (readScalar ops verbatim text style tag).nodes = 1 :=
      nodes_of_isScalar (isScalar_readScalar ops verbatim text style tag)
    exact ⟨hone.symm, hone ▸ hsized.keep anchor _⟩
  | sequence hitems =>
    obtain ⟨rfl, hinner⟩ := ih.items hitems hsized rfl
    exact ⟨rfl, hinner.keep _ _⟩
  | mapping hentries =>
    obtain ⟨rfl, hinner⟩ := ih.entries hentries hsized rfl
    exact ⟨rfl, hinner.keep _ _⟩

theorem SizedCalls.items_succ (ih : SizedCalls ops verbatim fuel) {items items' : List Json}
    (h : nodeItems ops verbatim (fuel + 1) depth items size reader = .ok (items', size', reader'))
    (hsized : reader.Sized) (hsize : size = 1 + nodesItems items) :
    size' = 1 + nodesItems items' ∧ reader'.Sized := by
  obtain ⟨event, inner, hnext, ⟨_, rfl, rfl, rfl⟩ | ⟨item, n, after, _, hnode, hrest⟩⟩ :=
    nodeItems_done h
  · exact ⟨hsize, hsized.next hnext⟩
  · obtain ⟨rfl, hafter⟩ := ih.node hnode (hsized.next hnext)
    refine ih.items hrest hafter ?_
    rw [nodesItems_append, hsize]
    simp only [nodesItems]
    omega

theorem SizedCalls.entries_succ (ih : SizedCalls ops verbatim fuel)
    {map map' : List (String × Json)}
    (h : nodeEntries ops verbatim (fuel + 1) depth map size reader = .ok (map', size', reader'))
    (hsized : reader.Sized) (hsize : size = 1 + nodesFields map) :
    size' = 1 + nodesFields map' ∧ reader'.Sized := by
  obtain ⟨event, inner, hnext, ⟨_, rfl, rfl, rfl⟩ |
    ⟨key, first, before, value, n, after, _, _, hfirst, hnode, hnew, hrest⟩⟩ := nodeEntries_done h
  · exact ⟨hsize, hsized.next hnext⟩
  · obtain ⟨rfl, hafter⟩ := ih.node hnode ((hsized.next hnext).next hfirst)
    refine ih.entries hrest hafter ?_
    rw [nodesFields_perm (setField_perm value hnew), hsize]
    simp only [nodesFields]
    omega

theorem sizedCalls (ops : TextOps) (verbatim : Bool) (fuel : Nat) :
    SizedCalls ops verbatim fuel := by
  induction fuel with
  | zero => exact ⟨by simp, by simp, by simp⟩
  | succ fuel ih => exact ⟨ih.node_succ, ih.items_succ, ih.entries_succ⟩

/-! ## Enough fuel -/

/-- What a call does depends on its fuel only as long as that can run out. -/
structure FuelFree (ops : TextOps) (verbatim : Bool) (fuel : Nat) : Prop where
  node : ∀ {fuel' : Nat} {reader : Reader}, enough reader ≤ fuel → enough reader ≤ fuel' →
    ∀ event depth, node ops verbatim fuel event depth reader =
      node ops verbatim fuel' event depth reader
  items : ∀ {fuel' : Nat} {reader : Reader}, enough reader ≤ fuel + 1 →
    enough reader ≤ fuel' + 1 → ∀ depth items size,
      nodeItems ops verbatim fuel depth items size reader =
        nodeItems ops verbatim fuel' depth items size reader
  entries : ∀ {fuel' : Nat} {reader : Reader}, enough reader ≤ fuel + 1 →
    enough reader ≤ fuel' + 1 → ∀ depth map size,
      nodeEntries ops verbatim fuel depth map size reader =
        nodeEntries ops verbatim fuel' depth map size reader

theorem enough_next (h : reader.next = .ok (event, reader')) :
    enough reader = enough reader' + 2 := by
  obtain ⟨hparser, _⟩ := Reader.next_ok h
  unfold enough
  rw [hparser, List.length_cons]
  omega

theorem Grows.enough_le (h : Grows reader reader' size size') :
    enough reader' ≤ enough reader := by
  have hleft := h.left
  have hevents := h.events
  unfold enough
  omega

theorem FuelFree.node_succ (ih : FuelFree ops verbatim fuel) {fuel' : Nat}
    (h : enough reader ≤ fuel + 1) (h' : enough reader ≤ fuel') (event : Event) (depth : Nat) :
    Yaml.node ops verbatim (fuel + 1) event depth reader =
      Yaml.node ops verbatim fuel' event depth reader := by
  cases fuel' with
  | zero => exact absurd h' (by unfold enough; omega)
  | succ fuel' =>
    unfold Yaml.node
    cases event with
    | sequenceStart anchor => simp only [ih.items h h' depth [] 1]
    | mappingStart anchor => simp only [ih.entries h h' depth [] 1]
    | _ => rfl

theorem FuelFree.items_succ (ih : FuelFree ops verbatim fuel) {fuel' : Nat}
    (h : enough reader ≤ fuel + 2) (h' : enough reader ≤ fuel' + 1) (depth : Nat)
    (items : List Json) (size : Nat) :
    nodeItems ops verbatim (fuel + 1) depth items size reader =
      nodeItems ops verbatim fuel' depth items size reader := by
  cases fuel' with
  | zero => exact absurd h' (by unfold enough; omega)
  | succ fuel' =>
    rw [nodeItems, nodeItems]
    cases hnext : reader.next with
    | error e => rfl
    | ok read =>
      obtain ⟨event, inner⟩ := read
      have hinner := enough_next hnext
      simp only [bind, Except.bind]
      split
      · rfl
      · have hfuel : enough inner ≤ fuel := by omega
        have hfuel' : enough inner ≤ fuel' := by omega
        rw [ih.node hfuel hfuel' event (depth + 1)]
        cases hnode : Yaml.node ops verbatim fuel' event (depth + 1) inner with
        | error e => rfl
        | ok read =>
          obtain ⟨item, n, after⟩ := read
          have hafter := ((growingCalls ops verbatim fuel').node hnode).enough_le
          dsimp only
          exact ih.items (by omega) (by omega) depth _ _

theorem FuelFree.entries_succ (ih : FuelFree ops verbatim fuel) {fuel' : Nat}
    (h : enough reader ≤ fuel + 2) (h' : enough reader ≤ fuel' + 1) (depth : Nat)
    (map : List (String × Json)) (size : Nat) :
    nodeEntries ops verbatim (fuel + 1) depth map size reader =
      nodeEntries ops verbatim fuel' depth map size reader := by
  cases fuel' with
  | zero => exact absurd h' (by unfold enough; omega)
  | succ fuel' =>
    rw [nodeEntries, nodeEntries]
    cases hnext : reader.next with
    | error e => rfl
    | ok read =>
      obtain ⟨event, inner⟩ := read
      have hinner := enough_next hnext
      simp only [bind, Except.bind]
      split
      · rfl
      · cases inner.key ops event with
        | error e => rfl
        | ok key =>
          cases hfirst : inner.next with
          | error e => rfl
          | ok read =>
            obtain ⟨first, before⟩ := read
            have hbefore := enough_next hfirst
            dsimp only
            have hfuel : enough before ≤ fuel := by omega
            have hfuel' : enough before ≤ fuel' := by omega
            rw [ih.node hfuel hfuel' first (depth + 1)]
            cases hnode : Yaml.node ops verbatim fuel' first (depth + 1) before with
            | error e => rfl
            | ok read =>
              obtain ⟨value, n, after⟩ := read
              have hafter := ((growingCalls ops verbatim fuel').node hnode).enough_le
              dsimp only
              split
              · rfl
              · exact ih.entries (by omega) (by omega) depth _ _

theorem fuelFree (ops : TextOps) (verbatim : Bool) (fuel : Nat) : FuelFree ops verbatim fuel := by
  induction fuel with
  | zero =>
    have hmore : ∀ reader, ¬ enough reader ≤ 0 + 1 := by
      intro reader
      unfold enough
      omega
    exact ⟨fun h => absurd (Nat.le_succ_of_le h) (hmore _), fun h => absurd h (hmore _),
      fun h => absurd h (hmore _)⟩
  | succ fuel ih => exact ⟨ih.node_succ, ih.items_succ, ih.entries_succ⟩

/-- More fuel than `enough` changes nothing: it does not run out. -/
theorem node_fuel (h : enough reader ≤ fuel) (event : Event) (depth : Nat) :
    node ops verbatim fuel event depth reader =
      node ops verbatim (enough reader) event depth reader :=
  (fuelFree ops verbatim fuel).node h (le_refl _) event depth

end

/-! ## Over a whole stream -/

/-- The readers that a stream can come to. -/
inductive Reached (ops : TextOps) (verbatim : Bool) (events : Events) : Reader → Prop
  | start : Reached ops verbatim events { parser := events }
  | next {reader reader' : Reader} {event : Event} (h : Reached ops verbatim events reader)
      (hnext : reader.next = .ok (event, reader')) : Reached ops verbatim events reader'
  | node {reader reader' : Reader} {event : Event} {fuel depth : Nat} {value : Json} {size : Nat}
      (h : Reached ops verbatim events reader)
      (hnode : node ops verbatim fuel event depth reader = .ok (value, size, reader')) :
      Reached ops verbatim events reader'

section
variable {ops : TextOps} {verbatim : Bool} {events : Events} {reader : Reader}

theorem Reached.sized (h : Reached ops verbatim events reader) : reader.Sized := by
  induction h with
  | start =>
    intro id value size hanchor
    simp at hanchor
  | next _ hnext ih => exact ih.next hnext
  | node _ hnode ih => exact ((sizedCalls ops verbatim _).node hnode ih).2

/-- What holds between two events of a stream: its value was paid for. -/
structure Paid (ops : TextOps) (verbatim : Bool) (events : Events) (value : Json)
    (reader : Reader) : Prop where
  reached : Reached ops verbatim events reader
  left : reader.events + reader.parser.length = events.length
  inBudget : reader.InBudget
  nodes : value.nodes ≤ 1 + reader.events + reader.copied

theorem Paid.next {value : Json} {reader' : Reader} {event : Event}
    (h : Paid ops verbatim events value reader) (hnext : reader.next = .ok (event, reader')) :
    Paid ops verbatim events value reader' ∧
      value.nodes ≤ reader'.events + reader'.copied := by
  have hgrows := Grows.next hnext 0
  have hnodes := h.nodes
  have hroom := hgrows.nodes
  have heq := (Reader.next_ok hnext).2
  have hevents : reader'.events = reader.events + 1 := by rw [heq]
  have hcopied : reader'.copied = reader.copied := by rw [heq]
  exact ⟨⟨h.reached.next hnext, hgrows.left.trans h.left, hgrows.inBudget h.inBudget, by omega⟩,
    by omega⟩

theorem Paid.document {value value' : Json} {reader' : Reader} {event : Event} {fuel depth : Nat}
    {size : Nat} (h : Paid ops verbatim events value reader)
    (hnode : node ops verbatim fuel event depth reader = .ok (value', size, reader')) :
    Paid ops verbatim events value' reader' := by
  have hgrows := (growingCalls ops verbatim fuel).node hnode
  obtain ⟨rfl, _⟩ := (sizedCalls ops verbatim fuel).node hnode h.reached.sized
  have hroom := hgrows.nodes
  exact ⟨h.reached.node hnode, hgrows.left.trans h.left, hgrows.inBudget h.inBudget, by omega⟩

theorem stream_paid {fuel documents : Nat} {value value' : Json} {reader' : Reader}
    (h : stream ops verbatim fuel value documents reader = .ok (value', reader'))
    (hpaid : Paid ops verbatim events value reader) :
    Paid ops verbatim events value' reader' ∧ value'.nodes ≤ reader'.events + reader'.copied := by
  induction fuel generalizing value documents reader with
  | zero => cases h
  | succ fuel ih =>
    unfold stream at h
    obtain ⟨⟨event, inner⟩, hnext, h⟩ := Results.ok_of_bind h
    obtain ⟨hinner, hroom⟩ := hpaid.next hnext
    dsimp only at h
    split at h
    · exact ih h hinner
    · exact ih h hinner
    · cases h
      exact ⟨hinner, hroom⟩
    · split at h
      · cases h
      · obtain ⟨⟨first, before⟩, hfirst, h⟩ := Results.ok_of_bind h
        obtain ⟨⟨value, size, after⟩, hnode, h⟩ := Results.ok_of_bind h
        exact ih h ((hinner.next hfirst).1.document hnode)
    · cases h

/-- Each anchor's size is its value's at every step, and what was read holds
no more nodes than the events and the copies they allow. -/
theorem aliases_bounded (ops : TextOps) (verbatim : Bool) (events : Events) :
    (∀ reader, Reached ops verbatim events reader → ∀ (id : Nat) (value : Json) (size : Nat),
      reader.anchors[id]? = some (value, size) → size = value.nodes) ∧
    ∀ value, read ops verbatim events = .ok value →
      ∃ reader, Reached ops verbatim events reader ∧ reader.events ≤ events.length ∧
        value.nodes ≤ reader.events + max minAliasBudget (100 * reader.events) := by
  refine ⟨fun reader hreached => hreached.sized, ?_⟩
  intro value hread
  unfold read at hread
  cases hstream : stream ops verbatim (events.length + 1) .null 0 { parser := events } with
  | error e =>
    rw [hstream] at hread
    cases hread
  | ok result =>
    obtain ⟨value', reader⟩ := result
    rw [hstream] at hread
    obtain rfl : value' = value := Except.ok.inj hread
    have hstart : Paid ops verbatim events .null { parser := events } :=
      ⟨.start, Nat.zero_add _, Nat.zero_le _, by simp only [Json.nodes]; omega⟩
    obtain ⟨hpaid, hroom⟩ := stream_paid hstream hstart
    have hleft := hpaid.left
    have hin : reader.copied ≤ max minAliasBudget (reader.events * 100) := hpaid.inBudget
    exact ⟨reader, hpaid.reached, by omega, by omega⟩

end

/-- `[&1 [x], &2 [*1, *1], *2]` -/
def nestedCopies : Events :=
  [.streamStart, .documentStart, .sequenceStart 0,
    .sequenceStart 1, .scalar "x" .plain 0 none, .sequenceEnd,
    .sequenceStart 2, .alias 1, .alias 1, .sequenceEnd,
    .alias 2, .sequenceEnd, .documentEnd, .streamEnd].map .ok

theorem nestedCopies_bounded :
    (∃ reader, Reached .wordsOnly false nestedCopies reader ∧
      reader.anchors[2]? = some (.array [.array [.string "x"], .array [.string "x"]], 5) ∧
      5 = (Json.array [.array [.string "x"], .array [.string "x"]]).nodes) ∧
    ∃ reader, Reached .wordsOnly false nestedCopies reader ∧
      reader.events ≤ nestedCopies.length ∧
      (Json.array [.array [.string "x"], .array [.array [.string "x"], .array [.string "x"]],
        .array [.array [.string "x"], .array [.string "x"]]]).nodes ≤
        reader.events + max minAliasBudget (100 * reader.events) := by
  obtain ⟨hsized, hnodes⟩ := aliases_bounded .wordsOnly false nestedCopies
  refine ⟨?_, hnodes _ (by decide +kernel)⟩
  have hroot :
      Reached .wordsOnly false nestedCopies { parser := nestedCopies.drop 3, events := 3 } :=
    ((Reached.start.next rfl).next rfl).next rfl
  have hread : (node .wordsOnly false 30 (.sequenceStart 0) 0
      { parser := nestedCopies.drop 3, events := 3 }).toOption.bind
        (fun done => done.2.2.anchors[2]?) =
      some (.array [.array [.string "x"], .array [.string "x"]], 5) := by decide +kernel
  cases hnode : node .wordsOnly false 30 (.sequenceStart 0) 0
      { parser := nestedCopies.drop 3, events := 3 } with
  | error e =>
    rw [hnode] at hread
    cases hread
  | ok done =>
    obtain ⟨value, size, reader⟩ := done
    rw [hnode] at hread
    have hreached := hroot.node hnode
    exact ⟨reader, hreached, hread, hsized reader hreached 2 _ 5 hread⟩

end Yaml

end UnifiedApi

import UnifiedApi.Domain.StaticInventory

/-! # What the walk of an inventory gathers

A group's record is out of the map while its children are walked, and comes
back over whatever they left under its name. What the walk keeps of a group is
what its outermost descriptions declare; of hosts it keeps everything. -/

namespace UnifiedApi.StaticInventory

/-! ## Declarations -/

/-- What a description can say of its group; that it is there, for one. -/
inductive Item where
  | itself
  | host (host : String)
  | child (child : String)
  | var (name : String)

inductive HostItem where
  | itself (host : String)
  | var (host name : String)

/-- What the fields of a description declare of its group. -/
def FieldsDeclare (fields : List (String × Json)) : Item → Prop
  | .itself => False
  | .host host => ∃ hosts, ("hosts", .object hosts) ∈ fields ∧ host ∈ hosts.map Prod.fst
  | .child child => ∃ nodes, ("children", .object nodes) ∈ fields ∧ child ∈ nodes.map Prod.fst
  | .var name => ∃ vars, ("vars", vars) ∈ fields ∧ name ∈ varNames vars

def Declares : Json → Item → Prop
  | .object fields, item => item = .itself ∨ FieldsDeclare fields item
  | _, item => item = .itself

/-- What a mapping of hosts to their variables declares. -/
def HostsDeclare (hosts : List (String × Json)) : HostItem → Prop
  | .itself host => host ∈ hosts.map Prod.fst
  | .var host name => ∃ vars, (host, vars) ∈ hosts ∧ name ∈ varNames vars

def FieldsDeclareHost (fields : List (String × Json)) (item : HostItem) : Prop :=
  ∃ hosts, ("hosts", .object hosts) ∈ fields ∧ HostsDeclare hosts item

/-- The descriptions in a tree of groups, at any depth. -/
inductive Describes : List (String × Json) → String → Json → Prop
  | here {nodes : List (String × Json)} {name : String} {node : Json} (h : (name, node) ∈ nodes) :
      Describes nodes name node
  | under {nodes fields children : List (String × Json)} {parent name : String} {node : Json}
      (hparent : (parent, .object fields) ∈ nodes)
      (hfield : ("children", .object children) ∈ fields)
      (h : Describes children name node) : Describes nodes name node

/-- The descriptions of a group that stand in no other description of it. -/
inductive Outermost (name : String) : List (String × Json) → Json → Prop
  | here {nodes : List (String × Json)} {node : Json} (h : (name, node) ∈ nodes) :
      Outermost name nodes node
  | under {nodes fields children : List (String × Json)} {parent : String} {node : Json}
      (hparent : (parent, .object fields) ∈ nodes) (hother : parent ≠ name)
      (hfield : ("children", .object children) ∈ fields) (h : Outermost name children node) :
      Outermost name nodes node

def DeclaredOutermost (nodes : List (String × Json)) (name : String) (item : Item) : Prop :=
  ∃ node, Outermost name nodes node ∧ Declares node item

def DeclaredHost (nodes : List (String × Json)) (item : HostItem) : Prop :=
  ∃ name fields, Describes nodes name (.object fields) ∧ FieldsDeclareHost fields item

section
variable {nodes : List (String × Json)} {name : String} {node : Json}

theorem Outermost.describes (h : Outermost name nodes node) : Describes nodes name node := by
  induction h with
  | here h => exact .here h
  | under hparent _ hfield _ ih => exact .under hparent hfield ih

/-- A group that is described is described outermost. -/
theorem Describes.outermost (h : Describes nodes name node) :
    ∃ outer, Outermost name nodes outer := by
  induction h with
  | here h => exact ⟨_, .here h⟩
  | @under nodes fields children parent name node hparent hfield _ ih =>
    by_cases hsame : parent = name
    · exact ⟨_, .here (hsame ▸ hparent)⟩
    · obtain ⟨outer, houter⟩ := ih
      exact ⟨outer, .under hparent hsame hfield houter⟩

theorem outermost_cons {first : String × Json} :
    Outermost name (first :: nodes) node ↔
      Outermost name [first] node ∨ Outermost name nodes node := by
  constructor
  · intro h
    obtain h | ⟨hparent, hother, hfield, h⟩ := h
    · obtain rfl | h := List.mem_cons.mp h
      · exact .inl (.here List.mem_cons_self)
      · exact .inr (.here h)
    · obtain rfl | hparent := List.mem_cons.mp hparent
      · exact .inl (.under List.mem_cons_self hother hfield h)
      · exact .inr (.under hparent hother hfield h)
  · intro h
    obtain (h | ⟨hparent, hother, hfield, h⟩) | (h | ⟨hparent, hother, hfield, h⟩) := h
    · obtain rfl := List.mem_singleton.mp h
      exact .here List.mem_cons_self
    · obtain rfl := List.mem_singleton.mp hparent
      exact .under List.mem_cons_self hother hfield h
    · exact .here (List.mem_cons_of_mem _ h)
    · exact .under (List.mem_cons_of_mem _ hparent) hother hfield h

theorem describes_cons {first : String × Json} :
    Describes (first :: nodes) name node ↔
      Describes [first] name node ∨ Describes nodes name node := by
  constructor
  · intro h
    obtain h | ⟨hparent, hfield, h⟩ := h
    · obtain rfl | h := List.mem_cons.mp h
      · exact .inl (.here List.mem_cons_self)
      · exact .inr (.here h)
    · obtain rfl | hparent := List.mem_cons.mp hparent
      · exact .inl (.under List.mem_cons_self hfield h)
      · exact .inr (.under hparent hfield h)
  · intro h
    obtain (h | ⟨hparent, hfield, h⟩) | (h | ⟨hparent, hfield, h⟩) := h
    · obtain rfl := List.mem_singleton.mp h
      exact .here List.mem_cons_self
    · obtain rfl := List.mem_singleton.mp hparent
      exact .under List.mem_cons_self hfield h
    · exact .here (List.mem_cons_of_mem _ h)
    · exact .under (List.mem_cons_of_mem _ hparent) hfield h

end

/-! ## What is kept -/

def GroupInfo.Has (info : GroupInfo) : Item → Prop
  | .itself => True
  | .host host => host ∈ info.hosts
  | .child child => child ∈ info.children
  | .var name => name ∈ info.inlineVars

namespace Walk

def Has (walk : Walk) (name : String) (item : Item) : Prop :=
  ∃ info, walk.groups[name]? = some info ∧ info.Has item

def HasHost (walk : Walk) : HostItem → Prop
  | .itself host => host ∈ walk.hostMemberships
  | .var host name => ∃ vars, walk.hostInlineVars[host]? = some vars ∧ name ∈ vars

end Walk

/-- From `walk` to `walk'` what the tree declares was added. -/
structure Gathers (nodes : List (String × Json)) (walk walk' : Walk) : Prop where
  groups : ∀ name item, walk'.Has name item ↔ walk.Has name item ∨ DeclaredOutermost nodes name item
  hosts : ∀ item, walk'.HasHost item ↔ walk.HasHost item ∨ DeclaredHost nodes item

/-- The same for the fields of a description, whose group is held out. -/
structure FieldsGather (fields : List (String × Json)) (info info' : GroupInfo)
    (walk walk' : Walk) : Prop where
  own : ∀ item, info'.Has item ↔ info.Has item ∨ FieldsDeclare fields item
  groups : ∀ name item, walk'.Has name item ↔ walk.Has name item ∨
    ∃ nodes, ("children", .object nodes) ∈ fields ∧ DeclaredOutermost nodes name item
  hosts : ∀ item, walk'.HasHost item ↔ walk.HasHost item ∨ FieldsDeclareHost fields item ∨
    ∃ nodes, ("children", .object nodes) ∈ fields ∧ DeclaredHost nodes item

section
variable {nodes fields : List (String × Json)} {name : String} {node : Json}
  {walk walk' walk'' : Walk} {info info' info'' : GroupInfo}

theorem Gathers.nil (walk : Walk) : Gathers [] walk walk where
  groups name item := by
    refine ⟨.inl, ?_⟩
    intro h
    obtain h | ⟨node, h | ⟨hparent, _⟩, _⟩ := h
    · exact h
    · cases h
    · cases hparent
  hosts item := by
    refine ⟨.inl, ?_⟩
    intro h
    obtain h | ⟨name, fields, h | ⟨hparent, _⟩, _⟩ := h
    · exact h
    · cases h
    · cases hparent

theorem Gathers.cons {first : String × Json} (h : Gathers [first] walk walk')
    (hrest : Gathers nodes walk' walk'') : Gathers (first :: nodes) walk walk'' where
  groups name item := by
    rw [hrest.groups, h.groups, or_assoc]
    refine or_congr_right ?_
    have hcons : ∀ node, Outermost name (first :: nodes) node ↔
        Outermost name [first] node ∨ Outermost name nodes node := fun _ => outermost_cons
    unfold DeclaredOutermost
    simp only [hcons, or_and_right, exists_or]
  hosts item := by
    rw [hrest.hosts, h.hosts, or_assoc]
    refine or_congr_right ?_
    have hcons : ∀ name node, Describes (first :: nodes) name node ↔
        Describes [first] name node ∨ Describes nodes name node := fun _ _ => describes_cons
    unfold DeclaredHost
    simp only [hcons, or_and_right, exists_or]

theorem FieldsGather.nil (info : GroupInfo) (walk : Walk) :
    FieldsGather [] info info walk walk where
  own item := by cases item <;> simp [FieldsDeclare]
  groups name item := by simp
  hosts item := by simp [FieldsDeclareHost]

theorem FieldsGather.cons {first : String × Json} (h : FieldsGather [first] info info' walk walk')
    (hrest : FieldsGather fields info' info'' walk' walk'') :
    FieldsGather (first :: fields) info info'' walk walk'' where
  own item := by
    rw [hrest.own, h.own, or_assoc]
    refine or_congr_right ?_
    cases item <;> simp [FieldsDeclare, or_and_right, exists_or]
  groups name item := by
    rw [hrest.groups, h.groups, or_assoc]
    simp [or_and_right, exists_or]
  hosts item := by
    rw [hrest.hosts, h.hosts, or_assoc]
    refine or_congr_right ?_
    simp [FieldsDeclareHost, or_and_right, exists_or, or_assoc, or_left_comm]

/-- One more host, under the group held out. -/
theorem host_done {host : String} {hostVars : Json}
    (h : Walk.host name host hostVars (info, walk) = .ok (info', walk')) :
    info' = { info with hosts := info.hosts ++ [host] } ∧ walk'.groups = walk.groups ∧
      ∀ item, walk'.HasHost item ↔ walk.HasHost item ∨ HostsDeclare [(host, hostVars)] item := by
  unfold Walk.host at h
  dsimp only at h
  split at h
  · cases h
  · split at h
    · cases h
    · rename_i vars hvars
      cases h
      refine ⟨rfl, rfl, ?_⟩
      intro item
      cases item with
      | itself other =>
        simp only [Walk.HasHost, HostsDeclare, StrMap.mem_iff, StrMap.getElem?_alter]
        by_cases hsame : host = other
        · simp [hsame]
        · simp [hsame, eq_comm]
      | var other name =>
        simp only [Walk.HasHost, HostsDeclare, StrMap.getElem?_alter]
        by_cases hsame : host = other
        · subst hsame
          cases walk.hostInlineVars[host]? with
          | none => simp [mem_yamlVars hvars]
          | some inline => simp [mem_yamlVars hvars]
        · simp [hsame, Ne.symm hsame]

theorem hosts_done {hosts : List (String × Json)}
    (h : Walk.hosts name (.object hosts) (info, walk) = .ok (info', walk')) :
    info' = { info with hosts := info.hosts ++ hosts.map Prod.fst } ∧ walk'.groups = walk.groups ∧
      ∀ item, walk'.HasHost item ↔ walk.HasHost item ∨ HostsDeclare hosts item := by
  unfold Walk.hosts at h
  dsimp only at h
  induction hosts generalizing info walk with
  | nil =>
    cases h
    refine ⟨by simp, rfl, fun item => ?_⟩
    cases item <;> simp [HostsDeclare]
  | cons first rest ih =>
    rw [List.foldlM_cons] at h
    obtain ⟨⟨inner, between⟩, hfirst, h⟩ := Results.ok_of_bind h
    obtain ⟨rfl, hgroups, hhosts⟩ := host_done hfirst
    obtain ⟨rfl, hgroups', hhosts'⟩ := ih h
    refine ⟨by simp, hgroups'.trans hgroups, fun item => ?_⟩
    rw [hhosts', hhosts, or_assoc]
    refine or_congr_right ?_
    cases item with
    | itself host => simp [HostsDeclare]
    | var host name => simp [HostsDeclare, or_and_right, exists_or]

theorem hosts_gather {value : Json}
    (h : Walk.hosts name value (info, walk) = .ok (info', walk')) :
    FieldsGather [("hosts", value)] info info' walk walk' := by
  cases value with
  | object hosts =>
    obtain ⟨rfl, hgroups, hhosts⟩ := hosts_done h
    refine ⟨?_, ?_, ?_⟩
    · intro item
      cases item <;> simp [GroupInfo.Has, FieldsDeclare]
    · intro name item
      simp [Walk.Has, hgroups]
    · intro item
      rw [hhosts]
      simp [FieldsDeclareHost]
  | null | bool b | number n | string s | array items => cases h

theorem vars_gather {value : Json}
    (h : Walk.vars name value (info, walk) = .ok (info', walk')) :
    FieldsGather [("vars", value)] info info' walk walk' := by
  unfold Walk.vars at h
  dsimp only at h
  split at h
  · cases h
  · rename_i vars hvars
    cases h
    refine ⟨?_, ?_, ?_⟩
    · intro item
      cases item <;> simp [GroupInfo.Has, FieldsDeclare, mem_yamlVars hvars]
    · intro name item
      simp
    · intro item
      simp [FieldsDeclareHost]

theorem Gathers.field (h : Gathers nodes walk walk') (info : GroupInfo) :
    FieldsGather [("children", .object nodes)] info
      { info with children := info.children ++ nodes.map Prod.fst } walk walk' where
  own item := by cases item <;> simp [GroupInfo.Has, FieldsDeclare]
  groups name item := by
    rw [h.groups]
    simp
  hosts item := by
    rw [h.hosts]
    simp [FieldsDeclareHost]

/-- What an earlier description left of a group. -/
theorem has_taken (walk : Walk) (name : String) (item : Item) :
    (walk.groups[name]?.getD {}).Has item ↔ walk.Has name item ∨ item = .itself := by
  unfold Walk.Has
  cases walk.groups[name]? with
  | none => cases item <;> simp [GroupInfo.Has]
  | some info => cases item <;> simp [GroupInfo.Has]

theorem outermost_self {outer : Json} : Outermost name [(name, node)] outer ↔ outer = node := by
  constructor
  · intro h
    obtain h | ⟨hparent, hother, _, _⟩ := h
    · exact (Prod.mk.inj (List.mem_singleton.mp h)).2
    · exact absurd (Prod.mk.inj (List.mem_singleton.mp hparent)).1 hother
  · intro h
    obtain rfl := h
    exact .here List.mem_cons_self

theorem outermost_other {other : String} {outer : Json} (h : name ≠ other) :
    Outermost other [(name, .object fields)] outer ↔
      ∃ nodes, ("children", .object nodes) ∈ fields ∧ Outermost other nodes outer := by
  constructor
  · intro h
    obtain hhere | ⟨hparent, -, hfield, hunder⟩ := h
    · exact absurd (Prod.mk.inj (List.mem_singleton.mp hhere)).1.symm h
    · obtain ⟨-, hfields⟩ := Prod.mk.inj (List.mem_singleton.mp hparent)
      cases hfields
      exact ⟨_, hfield, hunder⟩
  · intro h
    obtain ⟨nodes, hfield, hunder⟩ := h
    exact .under List.mem_cons_self h hfield hunder

theorem declaredOutermost_other {other : String} {item : Item} (h : name ≠ other) :
    DeclaredOutermost [(name, .object fields)] other item ↔
      ∃ nodes, ("children", .object nodes) ∈ fields ∧ DeclaredOutermost nodes other item := by
  constructor
  · intro h
    obtain ⟨outer, houter, hitem⟩ := h
    obtain ⟨nodes, hfield, hunder⟩ := (outermost_other h).mp houter
    exact ⟨nodes, hfield, outer, hunder, hitem⟩
  · intro h
    obtain ⟨nodes, hfield, outer, hunder, hitem⟩ := h
    exact ⟨outer, (outermost_other h).mpr ⟨nodes, hfield, hunder⟩, hitem⟩

theorem declaredHost_singleton {item : HostItem} : DeclaredHost [(name, .object fields)] item ↔
    FieldsDeclareHost fields item ∨
      ∃ nodes, ("children", .object nodes) ∈ fields ∧ DeclaredHost nodes item := by
  constructor
  · intro h
    obtain ⟨other, declared, h | ⟨hparent, hfield, h⟩, hitem⟩ := h
    · cases List.mem_singleton.mp h
      exact .inl hitem
    · cases List.mem_singleton.mp hparent
      exact .inr ⟨_, hfield, other, declared, h, hitem⟩
  · intro h
    obtain hitem | ⟨nodes, hfield, other, declared, h, hitem⟩ := h
    · exact ⟨name, fields, .here List.mem_cons_self, hitem⟩
    · exact ⟨other, declared, .under List.mem_cons_self hfield h, hitem⟩

/-- The group's record comes back over what its children left there. -/
theorem FieldsGather.group
    (h : FieldsGather fields (walk.groups[name]?.getD {}) info
      { walk with groups := walk.groups.erase name } walk') :
    Gathers [(name, .object fields)] walk
      { walk' with groups := walk'.groups.insert name info } where
  groups other item := by
    by_cases hsame : name = other
    · subst hsame
      have hown := h.own item
      rw [has_taken, or_assoc] at hown
      simpa [Walk.Has, DeclaredOutermost, outermost_self, Declares] using hown
    · have hgroups := h.groups other item
      rw [declaredOutermost_other hsame]
      simpa [Walk.Has, StrMap.getElem?_insert, StrMap.getElem?_erase, hsame] using hgroups
  hosts item := by
    rw [declaredHost_singleton]
    exact h.hosts item

theorem Gathers.empty (walk : Walk) (name : String) :
    Gathers [(name, .null)] walk
      { walk with
        groups := (walk.groups.erase name).insert name (walk.groups[name]?.getD {}) } where
  groups other item := by
    by_cases hsame : name = other
    · subst hsame
      have htaken := has_taken walk name item
      simpa [Walk.Has, DeclaredOutermost, outermost_self, Declares] using htaken
    · have hnone : ¬ DeclaredOutermost [(name, .null)] other item := by
        intro h
        obtain ⟨outer, h | ⟨hparent, _, _, _⟩, _⟩ := h
        · exact hsame (Prod.mk.inj (List.mem_singleton.mp h)).1.symm
        · cases List.mem_singleton.mp hparent
      simp [Walk.Has, StrMap.getElem?_insert, StrMap.getElem?_erase, hsame, hnone]
  hosts item := by
    refine ⟨.inl, ?_⟩
    intro h
    obtain h | ⟨other, declared, h | ⟨hparent, _, _⟩, _⟩ := h
    · exact h
    · cases List.mem_singleton.mp h
    · cases List.mem_singleton.mp hparent

end

/-! ## The whole walk -/

mutual
theorem group_gathers (name : String) : ∀ (node : Json) {walk walk' : Walk},
    walk.group name node = .ok walk' → Gathers [(name, node)] walk walk'
  | .object mapping, walk, walk', h => by
    unfold Walk.group at h
    obtain ⟨⟨info, inner⟩, hfields, h⟩ := Results.ok_of_bind h
    cases h
    exact (fields_gather name mapping hfields).group
  | .null, walk, walk', h => by
    unfold Walk.group at h
    cases h
    exact .empty walk name
  | .bool _, _, _, h => by
    unfold Walk.group at h
    cases h
  | .number _, _, _, h => by
    unfold Walk.group at h
    cases h
  | .string _, _, _, h => by
    unfold Walk.group at h
    cases h
  | .array _, _, _, h => by
    unfold Walk.group at h
    cases h

theorem field_gathers (name key : String) : ∀ (value : Json) {info info' : GroupInfo}
    {walk walk' : Walk}, Walk.field name key value (info, walk) = .ok (info', walk') →
      FieldsGather [(key, value)] info info' walk walk'
  | value, info, info', walk, walk', h => by
    unfold Walk.field at h
    split at h
    · rename_i hkey
      exact hkey ▸ hosts_gather h
    · split at h
      · rename_i hkey
        cases value with
        | object nodes =>
          obtain ⟨hnodes, rfl⟩ := children_gather nodes h
          exact hkey ▸ hnodes.field info
        | null | bool b | number n | string s | array items => cases h
      · split at h
        · rename_i hkey
          exact hkey ▸ vars_gather h
        · cases h

theorem fields_gather (name : String) : ∀ (fields : List (String × Json)) {info info' : GroupInfo}
    {walk walk' : Walk}, Walk.fields name fields (info, walk) = .ok (info', walk') →
      FieldsGather fields info info' walk walk'
  | [], info, info', walk, walk', h => by
    unfold Walk.fields at h
    cases h
    exact .nil info walk
  | (key, value) :: rest, info, info', walk, walk', h => by
    unfold Walk.fields at h
    obtain ⟨⟨inner, between⟩, hfirst, h⟩ := Results.ok_of_bind h
    exact .cons (field_gathers name key value hfirst) (fields_gather name rest h)

theorem children_gather : ∀ (nodes : List (String × Json)) {info info' : GroupInfo}
    {walk walk' : Walk}, Walk.children nodes (info, walk) = .ok (info', walk') →
      Gathers nodes walk walk' ∧
        info' = { info with children := info.children ++ nodes.map Prod.fst }
  | [], info, info', walk, walk', h => by
    unfold Walk.children at h
    cases h
    exact ⟨.nil walk, by simp⟩
  | (child, node) :: rest, info, info', walk, walk', h => by
    unfold Walk.children at h
    obtain ⟨between, hchild, h⟩ := Results.ok_of_bind h
    obtain ⟨hrest, rfl⟩ := children_gather rest h
    exact ⟨.cons (group_gathers child node hchild) hrest, by simp⟩
end

theorem walk_gathers {root : List (String × Json)} {walk walk' : Walk}
    (h : root.foldlM (fun (walk : Walk) field => walk.group field.1 field.2) walk = .ok walk') :
    Gathers root walk walk' := by
  induction root generalizing walk with
  | nil =>
    cases h
    exact .nil _
  | cons first rest ih =>
    rw [List.foldlM_cons] at h
    obtain ⟨between, hfirst, h⟩ := Results.ok_of_bind h
    exact .cons (group_gathers first.1 first.2 hfirst) (ih h)

end UnifiedApi.StaticInventory

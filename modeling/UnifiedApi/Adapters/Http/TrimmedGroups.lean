import UnifiedApi.Adapters.Http.Dataset
import UnifiedApi.Application.GroupPruning

/-! # The trimmed groups are the groups of the page

The groups that `matching` returns are the least set that its two rules give,
in whatever order its passes visit the groups. A host of the page belongs to
the same groups in it, itself and through their children, which may lead in
circles or name no group at all. -/

namespace UnifiedApi.GroupTrim

/-- The groups with a host on the page, and with each group those that have it
among their children. -/
inductive Kept (groups : StrMap Group) (page : List String) : String → Prop
  | onPage {name host : String} {group : Group} (hgroup : groups[name]? = some group)
      (hhost : host ∈ group.hosts) (hpage : host ∈ page) : Kept groups page name
  | parent {name child : String} {group : Group} (hgroup : groups[name]? = some group)
      (hchild : child ∈ group.children) (hkept : Kept groups page child) : Kept groups page name

/-! ## The passes, in any order of the groups -/

/-- What a pass does with one group. -/
def visit (kept : StrMap Trimmed) (entry : String × Group) : StrMap Trimmed :=
  if !kept.contains entry.1 && entry.2.children.any kept.contains then kept.insert entry.1 {}
  else kept

def pass (order : List (String × Group)) (kept : StrMap Trimmed) : StrMap Trimmed :=
  order.foldl visit kept

theorem addParents_eq (groups : StrMap Group) (kept : StrMap Trimmed) :
    addParents groups kept = pass groups.toList kept := by
  unfold addParents pass
  rw [Std.ExtTreeMap.foldl_eq_foldl_toList]
  rfl

/-- The loop: passes until one leaves everything as it is. -/
inductive Settles (order : List (String × Group)) : StrMap Trimmed → StrMap Trimmed → Prop
  | done {kept : StrMap Trimmed} (h : pass order kept = kept) : Settles order kept kept
  | grew {kept out : StrMap Trimmed} (h : pass order kept ≠ kept)
      (hrest : Settles order (pass order kept) out) : Settles order kept out

/-- What the loop goes through: the groups on the page, and only groups to be
kept, each with its hosts of the page. -/
structure Growing (groups : StrMap Group) (page : List String) (kept : StrMap Trimmed) : Prop where
  onPage : ∀ name group host, groups[name]? = some group → host ∈ group.hosts → host ∈ page →
    name ∈ kept
  only : ∀ name trimmed, kept[name]? = some trimmed → Kept groups page name ∧
    ∃ group, groups[name]? = some group ∧ trimmed = { hosts := group.hosts.filter page.contains }

/-- Nothing is left to be added. -/
def Closed (groups : StrMap Group) (kept : StrMap Trimmed) : Prop :=
  ∀ name group, groups[name]? = some group → ∀ child ∈ group.children, child ∈ kept → name ∈ kept

section
variable {groups : StrMap Group} {page : List String} {kept : StrMap Trimmed}

theorem getElem?_onPage (groups : StrMap Group) (page : List String) (name : String) :
    (onPage groups page)[name]? = groups[name]?.bind fun group =>
      if (group.hosts.filter page.contains).isEmpty then none
      else some { hosts := group.hosts.filter page.contains } := by
  unfold onPage
  rw [StrMap.getElem?_foldl (g := fun _ group old =>
    if (group.hosts.filter page.contains).isEmpty then old
    else some { hosts := group.hosts.filter page.contains })]
  · cases groups[name]? <;> simp
  · intro kept visited group other
    dsimp only
    split
    · simp
    · exact StrMap.getElem?_insert kept visited other _

theorem growing_onPage (groups : StrMap Group) (page : List String) :
    Growing groups page (onPage groups page) where
  onPage name group host hgroup hhost hpage := by
    have hne : (group.hosts.filter page.contains).isEmpty = false := by
      rw [List.isEmpty_eq_false_iff_exists_mem]
      exact ⟨host, List.mem_filter.mpr ⟨hhost, List.contains_iff_mem.mpr hpage⟩⟩
    rw [StrMap.mem_iff, getElem?_onPage, hgroup, Option.bind_some, hne]
    exact nofun
  only name trimmed hname := by
    rw [getElem?_onPage] at hname
    obtain ⟨group, hgroup, htrimmed⟩ := Option.bind_eq_some_iff.mp hname
    obtain ⟨hne, htrimmed⟩ := Option.ite_none_left_eq_some.mp htrimmed
    obtain ⟨host, hhost⟩ := List.isEmpty_eq_false_iff_exists_mem.mp (Bool.eq_false_iff.mpr hne)
    obtain ⟨hmember, hpage⟩ := List.mem_filter.mp hhost
    exact ⟨.onPage hgroup hmember (List.contains_iff_mem.mp hpage), group, hgroup,
      (Option.some.inj htrimmed).symm⟩

theorem mem_visit_of_mem {entry : String × Group} {name : String} (h : name ∈ kept) :
    name ∈ visit kept entry := by
  unfold visit
  split
  · exact Std.ExtTreeMap.mem_insert.mpr (.inr h)
  · exact h

theorem mem_pass_of_mem {order : List (String × Group)} {name : String} (h : name ∈ kept) :
    name ∈ pass order kept := by
  induction order generalizing kept with
  | nil => exact h
  | cons entry rest ih => exact ih (mem_visit_of_mem h)

/-- A group comes in with no host: had it one on the page it would be there. -/
theorem Growing.visit (h : Growing groups page kept) {entry : String × Group}
    (hentry : groups[entry.1]? = some entry.2) : Growing groups page (visit kept entry) := by
  refine ⟨fun name group host hgroup hhost hpage =>
    mem_visit_of_mem (h.onPage name group host hgroup hhost hpage), ?_⟩
  intro name trimmed hname
  unfold GroupTrim.visit at hname
  split at hname
  · rename_i hnew
    rw [StrMap.getElem?_insert] at hname
    split at hname
    · rename_i heq
      subst heq
      obtain rfl := Option.some.inj hname
      obtain ⟨hcontains, hany⟩ := Bool.and_eq_true_iff.mp hnew
      have habsent : entry.1 ∉ kept := fun hmem => by
        rw [Std.ExtTreeMap.contains_iff_mem.mpr hmem] at hcontains
        cases hcontains
      obtain ⟨child, hchild, hkept⟩ := List.any_eq_true.mp hany
      obtain ⟨found, hfound⟩ := (StrMap.mem_iff_exists kept child).mp
        (Std.ExtTreeMap.contains_iff_mem.mp hkept)
      have hnone : entry.2.hosts.filter page.contains = [] := by
        rw [List.filter_eq_nil_iff]
        intro host hhost hpage
        exact habsent (h.onPage _ _ host hentry hhost (List.contains_iff_mem.mp hpage))
      exact ⟨.parent hentry hchild (h.only child found hfound).1, entry.2, hentry, by rw [hnone]⟩
    · exact h.only name trimmed hname
  · exact h.only name trimmed hname

theorem Growing.pass (h : Growing groups page kept) {order : List (String × Group)}
    (horder : ∀ entry ∈ order, groups[entry.1]? = some entry.2) :
    Growing groups page (pass order kept) := by
  induction order generalizing kept with
  | nil => exact h
  | cons entry rest ih =>
    exact ih (h.visit (horder entry List.mem_cons_self))
      fun other hother => horder other (List.mem_cons_of_mem entry hother)

/-- A pass reaches every group with a kept child. -/
theorem mem_pass_of_child {order : List (String × Group)} {name child : String} {group : Group}
    (hentry : (name, group) ∈ order) (hchild : child ∈ group.children) (h : child ∈ kept) :
    name ∈ pass order kept := by
  induction order generalizing kept with
  | nil => cases hentry
  | cons entry rest ih =>
    rcases List.mem_cons.mp hentry with rfl | hrest
    · show name ∈ pass rest _
      refine mem_pass_of_mem ?_
      unfold visit
      split
      · exact Std.ExtTreeMap.mem_insert.mpr (.inl (by simp))
      · rename_i hold
        have hany : group.children.any kept.contains = true :=
          List.any_eq_true.mpr ⟨child, hchild, Std.ExtTreeMap.contains_iff_mem.mpr h⟩
        simpa [hany] using hold
    · exact ih hrest (mem_visit_of_mem h)

theorem closed_of_pass_eq {order : List (String × Group)} (horder : order.Perm groups.toList)
    (h : pass order kept = kept) : Closed groups kept := by
  intro name group hgroup child hchild hkept
  have hentry : (name, group) ∈ order :=
    horder.mem_iff.mpr (Std.ExtTreeMap.mem_toList_iff_getElem?_eq_some.mpr hgroup)
  rw [← h]
  exact mem_pass_of_child hentry hchild hkept

/-! ## Where the passes end -/

theorem Growing.eq_of_mem_iff {kept' : StrMap Trimmed} (h : Growing groups page kept)
    (h' : Growing groups page kept') (hmem : ∀ name, name ∈ kept ↔ name ∈ kept') :
    kept = kept' := by
  apply Std.ExtTreeMap.ext_getElem?
  intro name
  cases hname : kept[name]? with
  | none =>
    cases hname' : kept'[name]? with
    | none => rfl
    | some found =>
      exact absurd ((hmem name).mpr (StrMap.mem_of_some hname')) (StrMap.not_mem_of_none hname)
  | some trimmed =>
    obtain ⟨found, hfound⟩ := (StrMap.mem_iff_exists _ name).mp
      ((hmem name).mp (StrMap.mem_of_some hname))
    obtain ⟨_, group, hgroup, rfl⟩ := h.only name trimmed hname
    obtain ⟨_, group', hgroup', rfl⟩ := h'.only name found hfound
    rw [hfound, Option.some.inj (hgroup.symm.trans hgroup')]

theorem Growing.mem_iff (h : Growing groups page kept) (hclosed : Closed groups kept)
    (name : String) : name ∈ kept ↔ Kept groups page name := by
  constructor
  · intro hname
    obtain ⟨trimmed, htrimmed⟩ := (StrMap.mem_iff_exists kept name).mp hname
    exact (h.only name trimmed htrimmed).1
  · intro hkept
    induction hkept with
    | onPage hgroup hhost hpage => exact h.onPage _ _ _ hgroup hhost hpage
    | parent hgroup hchild _ ih => exact hclosed _ _ hgroup _ hchild ih

theorem Growing.eq_of_closed {kept' : StrMap Trimmed} (h : Growing groups page kept)
    (hclosed : Closed groups kept) (h' : Growing groups page kept')
    (hclosed' : Closed groups kept') : kept = kept' :=
  h.eq_of_mem_iff h' fun name => (h.mem_iff hclosed name).trans (h'.mem_iff hclosed' name).symm

theorem Growing.subset (h : Growing groups page kept) {name : String} (hname : name ∈ kept) :
    name ∈ groups := by
  obtain ⟨trimmed, htrimmed⟩ := (StrMap.mem_iff_exists kept name).mp hname
  obtain ⟨_, group, hgroup, _⟩ := h.only name trimmed htrimmed
  exact StrMap.mem_of_some hgroup

/-- A pass that changes something adds a group. -/
theorem Growing.size_lt (h : Growing groups page kept) {order : List (String × Group)}
    (horder : ∀ entry ∈ order, groups[entry.1]? = some entry.2)
    (hgrew : GroupTrim.pass order kept ≠ kept) :
    kept.size < (GroupTrim.pass order kept).size := by
  have hsub : ∀ name ∈ kept, name ∈ GroupTrim.pass order kept := fun _ => mem_pass_of_mem
  by_contra hle
  refine hgrew ((h.pass horder).eq_of_mem_iff h fun name => ⟨fun hname => ?_, hsub name⟩)
  exact StrMap.mem_of_size_le hsub (Nat.not_lt.mp hle) hname

theorem Growing.size_le (h : Growing groups page kept) : kept.size ≤ groups.size :=
  StrMap.size_le_of_subset fun _ => h.subset

theorem mem_of_order {order : List (String × Group)} (horder : order.Perm groups.toList)
    (entry : String × Group) (hentry : entry ∈ order) : groups[entry.1]? = some entry.2 :=
  Std.ExtTreeMap.mem_toList_iff_getElem?_eq_some.mp (horder.mem_iff.mp hentry)

/-- There are no more passes than groups to add. -/
theorem exists_settles {order : List (String × Group)} (horder : order.Perm groups.toList)
    (room : Nat) (h : Growing groups page kept) (hroom : groups.size ≤ kept.size + room) :
    ∃ out, Settles order kept out ∧ Growing groups page out ∧ Closed groups out := by
  induction room generalizing kept with
  | zero =>
    have hstays : pass order kept = kept := by
      by_contra hgrew
      have hlt := h.size_lt (mem_of_order horder) hgrew
      have hle := (h.pass (mem_of_order horder)).size_le
      omega
    exact ⟨kept, .done hstays, h, closed_of_pass_eq horder hstays⟩
  | succ room ih =>
    by_cases hstays : pass order kept = kept
    · exact ⟨kept, .done hstays, h, closed_of_pass_eq horder hstays⟩
    · have hlt := h.size_lt (mem_of_order horder) hstays
      obtain ⟨out, hsettles, hout⟩ := ih (h.pass (mem_of_order horder)) (by omega)
      exact ⟨out, .grew hstays hsettles, hout⟩

theorem addAncestors_closed (passes : Nat) (h : Growing groups page kept)
    (hpasses : groups.size ≤ kept.size + passes) :
    Growing groups page (addAncestors groups passes kept) ∧
      Closed groups (addAncestors groups passes kept) := by
  induction passes generalizing kept with
  | zero =>
    refine ⟨h, fun name group hgroup _ _ _ => ?_⟩
    exact StrMap.mem_of_size_le (fun _ => h.subset) hpasses (StrMap.mem_of_some hgroup)
  | succ passes ih =>
    have hgrown := h.pass (mem_of_order (List.Perm.refl groups.toList))
    unfold addAncestors
    rw [addParents_eq]
    dsimp only
    split
    · rename_i hsize
      refine ⟨h, closed_of_pass_eq (List.Perm.refl groups.toList) ?_⟩
      by_contra hgrew
      have hlt := h.size_lt (mem_of_order (List.Perm.refl groups.toList)) hgrew
      omega
    · rename_i hsize
      refine ih hgrown ?_
      have hlt := h.size_lt (mem_of_order (List.Perm.refl groups.toList)) fun heq =>
        hsize (congrArg Std.ExtTreeMap.size heq)
      omega

end

/-! ## What `matching` returns -/

section
variable (groups : StrMap Group) (page : List String)

/-- The groups where the passes end. -/
theorem growing_addAncestors :
    Growing groups page (addAncestors groups groups.size (onPage groups page)) ∧
      Closed groups (addAncestors groups groups.size (onPage groups page)) :=
  addAncestors_closed groups.size (growing_onPage groups page) (by omega)

/-- The loop ends, and in no order of the groups with other groups. -/
theorem settles_addAncestors {order : List (String × Group)} (horder : order.Perm groups.toList) :
    Settles order (onPage groups page) (addAncestors groups groups.size (onPage groups page)) := by
  obtain ⟨out, hsettles, hgrowing, hclosed⟩ :=
    exists_settles horder groups.size (growing_onPage groups page) (by omega)
  obtain ⟨hgrowing', hclosed'⟩ := growing_addAncestors groups page
  rwa [hgrowing.eq_of_closed hclosed hgrowing' hclosed'] at hsettles

theorem mem_matching_iff (name : String) : name ∈ matching groups page ↔ Kept groups page name := by
  obtain ⟨hgrowing, hclosed⟩ := growing_addAncestors groups page
  rw [← hgrowing.mem_iff hclosed]
  unfold matching
  exact Std.ExtTreeMap.mem_map

theorem contains_matching (name : String) : (matching groups page).contains name =
    (addAncestors groups groups.size (onPage groups page)).contains name := by
  unfold matching
  exact Std.ExtTreeMap.contains_map

theorem getElem?_matching {name : String} {group : Group} (hgroup : groups[name]? = some group)
    (hkept : Kept groups page name) : (matching groups page)[name]? = some
      { hosts := group.hosts.filter page.contains
        children := group.children.filter (matching groups page).contains } := by
  obtain ⟨hgrowing, hclosed⟩ := growing_addAncestors groups page
  obtain ⟨trimmed, htrimmed⟩ :=
    (StrMap.mem_iff_exists _ name).mp ((hgrowing.mem_iff hclosed name).mpr hkept)
  obtain ⟨_, found, hfound, rfl⟩ := hgrowing.only name trimmed htrimmed
  obtain rfl := Option.some.inj (hgroup.symm.trans hfound)
  have hchildren : group.children.filter (matching groups page).contains =
      group.children.filter (addAncestors groups groups.size (onPage groups page)).contains :=
    List.filter_congr fun child _ => contains_matching groups page child
  rw [hchildren]
  unfold matching
  dsimp only
  rw [StrMap.getElem?_map, htrimmed, Option.map_some, hgroup]

end

/-- The trimmed groups, as groups. -/
def asGroups (trimmed : StrMap Trimmed) : StrMap Group :=
  trimmed.map fun _ kept => { hosts := kept.hosts, children := kept.children }

section
variable {groups : StrMap Group} {page : List String} {host : String}
open Output

theorem Kept.exists_group {name : String} (h : Kept groups page name) :
    ∃ group, groups[name]? = some group := by
  cases h with
  | onPage hgroup _ _ => exact ⟨_, hgroup⟩
  | parent hgroup _ _ => exact ⟨_, hgroup⟩

theorem kept_of_belongs (hpage : host ∈ page) {name : String} (h : Belongs groups host name) :
    Kept groups page name := by
  induction h with
  | member hgroup hhost => exact .onPage hgroup hhost hpage
  | child hgroup hnext _ ih => exact .parent hgroup hnext ih

theorem getElem?_asGroups {name : String} {group : Group}
    (h : (asGroups (matching groups page))[name]? = some group) : ∃ whole,
      groups[name]? = some whole ∧ group.hosts = whole.hosts.filter page.contains ∧
        group.children = whole.children.filter (matching groups page).contains := by
  unfold asGroups at h
  rw [StrMap.getElem?_map] at h
  obtain ⟨trimmed, htrimmed, rfl⟩ := Option.map_eq_some_iff.mp h
  have hkept := (mem_matching_iff groups page name).mp (StrMap.mem_of_some htrimmed)
  obtain ⟨whole, hwhole⟩ := hkept.exists_group
  rw [getElem?_matching groups page hwhole hkept] at htrimmed
  obtain rfl := Option.some.inj htrimmed
  exact ⟨whole, hwhole, rfl, rfl⟩

theorem belongs_of_asGroups {name : String}
    (h : Belongs (asGroups (matching groups page)) host name) : Belongs groups host name := by
  induction h with
  | member hgroup hhost =>
    obtain ⟨whole, hwhole, hhosts, _⟩ := getElem?_asGroups hgroup
    rw [hhosts] at hhost
    exact .member hwhole (List.mem_of_mem_filter hhost)
  | child hgroup hnext _ ih =>
    obtain ⟨whole, hwhole, _, hchildren⟩ := getElem?_asGroups hgroup
    rw [hchildren] at hnext
    exact .child hwhole (List.mem_of_mem_filter hnext) ih

theorem asGroups_of_belongs (hpage : host ∈ page) {name : String} (h : Belongs groups host name) :
    Belongs (asGroups (matching groups page)) host name := by
  have htrimmed : ∀ {name : String} {group : Group}, groups[name]? = some group →
      Kept groups page name → (asGroups (matching groups page))[name]? = some
        { hosts := group.hosts.filter page.contains
          children := group.children.filter (matching groups page).contains } := by
    intro name group hgroup hkept
    unfold asGroups
    rw [StrMap.getElem?_map, getElem?_matching groups page hgroup hkept]
    rfl
  induction h with
  | member hgroup hhost =>
    refine .member (htrimmed hgroup (.onPage hgroup hhost hpage)) ?_
    exact List.mem_filter.mpr ⟨hhost, List.contains_iff_mem.mpr hpage⟩
  | child hgroup hnext hbelow ih =>
    have hkept := kept_of_belongs hpage hbelow
    refine .child (htrimmed hgroup (.parent hgroup hnext hkept)) ?_ ih
    refine List.mem_filter.mpr ⟨hnext, ?_⟩
    exact Std.ExtTreeMap.contains_iff_mem.mpr ((mem_matching_iff groups page _).mpr hkept)

end

/-- The loop ends in every order of the groups, and with the same groups: the
least set of the two rules, each with its hosts of the page and its children
in the set. A host of the page belongs to the groups it belongs to untrimmed. -/
theorem matching_exact (groups : StrMap Group) (page : List String) :
    (∀ order, order.Perm groups.toList → Settles order (onPage groups page)
      (addAncestors groups groups.size (onPage groups page))) ∧
    (∀ name, name ∈ matching groups page ↔ Kept groups page name) ∧
    (∀ (name : String) (trimmed : Trimmed), (matching groups page)[name]? = some trimmed →
      ∃ group : Group, groups[name]? = some group ∧
        trimmed.hosts = group.hosts.filter page.contains ∧
        trimmed.children = group.children.filter (matching groups page).contains) ∧
    ∀ host ∈ page, ∀ name, Output.Belongs (asGroups (matching groups page)) host name ↔
      Output.Belongs groups host name := by
  refine ⟨fun order => settles_addAncestors groups page, mem_matching_iff groups page, ?_,
    fun host hpage name => ⟨belongs_of_asGroups, asGroups_of_belongs hpage⟩⟩
  intro name trimmed htrimmed
  have hkept := (mem_matching_iff groups page name).mp (StrMap.mem_of_some htrimmed)
  obtain ⟨group, hgroup⟩ := hkept.exists_group
  rw [getElem?_matching groups page hgroup hkept] at htrimmed
  obtain rfl := Option.some.inj htrimmed
  exact ⟨group, hgroup, rfl, rfl⟩

/-- Two groups below each other, one of them with a child that is no group and
the other with a host on the page. -/
theorem circleOfGroups_exact :
    let groups : StrMap Group := ((∅ : StrMap Group).insert "web"
      { hosts := ["web1", "web2"], children := ["apps"] }).insert "apps"
      { children := ["web", "gone"] }
    "apps" ∈ matching groups ["web2"] ∧
      Output.Belongs (asGroups (matching groups ["web2"])) "web2" "apps" := by
  intro groups
  have happs : groups["apps"]? = some { children := ["web", "gone"] } := by decide +kernel
  have hweb : groups["web"]? = some { hosts := ["web1", "web2"], children := ["apps"] } := by
    decide +kernel
  have hbelow : Output.Belongs groups "web2" "apps" :=
    .child happs List.mem_cons_self (.member hweb (by simp))
  obtain ⟨_, hkept, _, hbelongs⟩ := matching_exact groups ["web2"]
  refine ⟨(hkept "apps").mpr (kept_of_belongs List.mem_cons_self hbelow), ?_⟩
  exact (hbelongs "web2" List.mem_cons_self "apps").mpr hbelow

end UnifiedApi.GroupTrim

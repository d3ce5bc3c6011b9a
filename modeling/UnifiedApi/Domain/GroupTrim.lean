import UnifiedApi.Domain.Dataset

/-! # The groups that a page of hosts belongs to

Every group with a host on the page, its hosts cut to those, and every group
with a kept group among its children; children are cut to kept groups. -/

namespace UnifiedApi

structure Trimmed where
  hosts : List String := []
  children : List String := []
  deriving DecidableEq

namespace GroupTrim

/-- The groups with a host on the page. -/
def onPage (groups : StrMap Group) (page : List String) : StrMap Trimmed :=
  groups.foldl (fun kept name group =>
    let hosts := group.hosts.filter page.contains
    if hosts.isEmpty then kept else kept.insert name { hosts }) ∅

/-- One pass over the groups: those with a kept child are kept. -/
def addParents (groups : StrMap Group) (kept : StrMap Trimmed) : StrMap Trimmed :=
  groups.foldl (fun kept name group =>
    if !kept.contains name && group.children.any kept.contains then kept.insert name {} else kept)
    kept

/-- Passes until one adds nothing, `passes` of them at most. -/
def addAncestors (groups : StrMap Group) : Nat → StrMap Trimmed → StrMap Trimmed
  | 0, kept => kept
  | passes + 1, kept =>
    let grown := addParents groups kept
    if grown.size = kept.size then kept else addAncestors groups passes grown

/-- A pass that adds something adds a group, so there are no more passes than
groups. -/
def matching (groups : StrMap Group) (page : List String) : StrMap Trimmed :=
  let kept := addAncestors groups groups.size (onPage groups page)
  kept.map fun name trimmed => match groups[name]? with
    | some group => { trimmed with children := group.children.filter kept.contains }
    | none => trimmed

end GroupTrim

end UnifiedApi

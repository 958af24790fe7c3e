import StateScript.Path.Match
import StateScript.Text.NameSet
import StateScript.Json.Basic

/-!
Results of expressions kept under a scope until a write reaches one of the paths they depend on.
-/

namespace StateScript

/-- Identifies the bindings against which results were computed. -/
abbrev TreeId := Nat

structure CachedResult where
  scope : TreeId
  source : String
  value : Json
  dependencies : NameSet

abbrev ResultCache := List CachedResult

namespace ResultCache

def find? (scope : TreeId) (source : String) : ResultCache → Option CachedResult
  | [] => none
  | entry :: rest =>
    if entry.scope = scope ∧ entry.source = source then some entry else find? scope source rest

/-- Stores a result in place of an earlier one of the same expression in the same scope. -/
def insert (entry : CachedResult) (cache : ResultCache) : ResultCache :=
  entry :: cache.filter fun e => !(e.scope == entry.scope && e.source == entry.source)

/-- Whether a write at a path may change a result. -/
def touched (path : String) (entry : CachedResult) : Bool :=
  entry.dependencies.any fun d => Path.textsIntersect d path

/-- The results that a write at a path leaves valid. -/
def invalidate (path : String) (cache : ResultCache) : ResultCache :=
  cache.filter fun entry => !touched path entry

def removeScope (scope : TreeId) (cache : ResultCache) : ResultCache :=
  cache.filter fun entry => entry.scope != scope

end ResultCache

end StateScript

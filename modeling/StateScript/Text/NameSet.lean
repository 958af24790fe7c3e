/-!
Sets of names as increasing lists.
-/

namespace StateScript

abbrev NameSet := List String

namespace NameSet

def insert (name : String) : NameSet → NameSet
  | [] => [name]
  | n :: rest =>
    if n = name then n :: rest
    else if name < n then name :: n :: rest
    else n :: insert name rest

def ofList (names : List String) : NameSet := names.foldr insert []

end NameSet

end StateScript

/-!
# Ascending lists of text

Sets and tables of texts are kept as lists in strictly ascending order. Texts are ordered by their
code points, which is also the order of their UTF-8 forms.
-/

namespace CodeAtlas.Ascending

/-- Adds a text to an ascending list. -/
def insert (x : String) : List String → List String
  | [] => [x]
  | y :: rest =>
    if x < y then x :: y :: rest
    else if x = y then y :: rest
    else y :: insert x rest

/-- The distinct members of a list in ascending order. -/
def ofList (xs : List String) : List String := xs.foldl (fun s x => insert x s) []

/-- Sets the value of a key in an ascending table. -/
def put {α : Type} (key : String) (value : α) : List (String × α) → List (String × α)
  | [] => [(key, value)]
  | (k, v) :: rest =>
    if key < k then (key, value) :: (k, v) :: rest
    else if key = k then (key, value) :: rest
    else (k, v) :: put key value rest

end CodeAtlas.Ascending

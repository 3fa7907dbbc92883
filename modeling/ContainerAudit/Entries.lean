/-!
# Entries and distinct elements

Lists of keys with values, in the order in which the keys came first, and the elements of a list
that differ.
-/

namespace ContainerAudit

/-- Put an entry into a list: a key that is there stays in its place and spelling and takes the new
value, any other goes to the end. -/
def putBy {κ α : Type} (same : κ → κ → Bool) (key : κ) (a : α) : List (κ × α) → List (κ × α)
  | [] => [(key, a)]
  | (k, b) :: rest => if same k key then (k, a) :: rest else (k, b) :: putBy same key a rest

def put {α : Type} (name : String) (a : α) : List (String × α) → List (String × α) :=
  putBy (· == ·) name a

/-- The elements whose key has not come before and is not among those seen. -/
def distinctFrom {α κ : Type} [BEq κ] (key : α → κ) (seen : List κ) : List α → List α
  | [] => []
  | a :: rest =>
    if seen.contains (key a) then distinctFrom key seen rest
    else a :: distinctFrom key (key a :: seen) rest

/-- The first element with each key, in order. -/
def distinctBy {α κ : Type} [BEq κ] (key : α → κ) (as : List α) : List α :=
  distinctFrom key [] as

/-- The first of each of the elements, in order. -/
def distinct {α : Type} [BEq α] (as : List α) : List α :=
  distinctBy id as

/-- Texts in the order of code points, each once. -/
def sortedSet (texts : List String) : List String :=
  (distinct texts).mergeSort

end ContainerAudit

/-!
# Ordered sets

The letters, tools and flagged lines of a run are sets that are listed in order. A set is
kept as the strictly increasing list of its members, so that two sets with the same members
are equal, whatever the order in which they were put together.
-/

namespace DryRun

/-- A finite set, kept as the list of its members in increasing order. -/
structure OrderedSet (α : Type) where
  toList : List α
deriving DecidableEq

namespace OrderedSet

variable {α : Type}

/-- The set without members. -/
def empty : OrderedSet α := ⟨[]⟩

variable [DecidableEq α] [LT α] [DecidableLT α]

/-- Puts an element at its place in an increasing list, unless it is there already. -/
def insertSorted (x : α) : List α → List α
  | [] => [x]
  | y :: ys => if x < y then x :: y :: ys else if x = y then y :: ys else y :: insertSorted x ys

/-- The set with one more element. -/
def insert (s : OrderedSet α) (x : α) : OrderedSet α := ⟨insertSorted x s.toList⟩

/-- The set with all elements of a list added. -/
def insertAll (s : OrderedSet α) (xs : List α) : OrderedSet α := xs.foldl insert s

end OrderedSet

end DryRun

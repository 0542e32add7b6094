import Mathlib.Data.List.Basic

namespace Ordered

variable {α : Type} [DecidableEq α] {marks : List (List α)} {mark place : List α}

/-- The nearest marked place at or above a place, written leaf first. -/
def nearest (marks : List (List α)) : List α → Option (List α)
  | [] => if [] ∈ marks then some [] else none
  | part :: above => if part :: above ∈ marks then some (part :: above) else nearest marks above

end Ordered

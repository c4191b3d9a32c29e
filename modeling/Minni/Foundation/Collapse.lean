import Mathlib.Data.List.Basic

/-!
# Runs that are collapsed

Every run of entries that are set aside is replaced by one filler.
-/

namespace Minni
namespace Foundation
namespace Collapse

variable {α : Type} (filler : α) (aside : α -> Bool)

/-- Within a run or outside of one. -/
def from_ : Bool -> List α -> List α
  | _, [] => []
  | within, a :: rest =>
      if aside a then
        if within then from_ true rest else filler :: from_ true rest
      else a :: from_ false rest

def runs (xs : List α) : List α :=
  from_ filler aside false xs

variable {filler aside}

end Collapse
end Foundation
end Minni

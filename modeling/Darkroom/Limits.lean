import Darkroom.Geometry.Amount
import Darkroom.Keyword.Topic

/-!
# Limits on resources

The limits that were set.  They are only kept and listed; nothing here enforces them.
-/

namespace Darkroom

/-- The limits that were set; what was not set is not limited. -/
structure Limits where
  /-- The limit of each resource. -/
  limitOf : Resource → Limit

namespace Limits

/-- No limits. -/
def none : Limits := ⟨fun _ => .unlimited⟩

instance : Inhabited Limits := ⟨none⟩

/-- The limits with one of them set. -/
def set (limits : Limits) (resource : Resource) (limit : Limit) : Limits :=
  ⟨fun r => if r = resource then limit else limits.limitOf r⟩

/-- Every resource with its limit, in the order of listings. -/
def toList (limits : Limits) : List (Resource × Limit) :=
  (Keyword.all : List Resource).map fun r => (r, limits.limitOf r)

end Limits
end Darkroom

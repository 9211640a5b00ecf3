import Darkroom.Fault

/-!
# Properties of plans

Operators and settings decide before anything is done.  What such a decision can be is found by
following its steps: a fault that comes out says nothing about a plan, and what was found out on the
way does not matter when the rest plans well for everything.
-/

namespace Darkroom

/-- If a plan comes out, it has a property. -/
def Plans {α : Type} (property : α → Prop) (decision : Except Fault α) : Prop :=
  ∀ plan, decision = .ok plan → property plan

namespace Plans

variable {α : Type} {property : α → Prop}

theorem ok
    {plan : α}
    (holds : property plan) :
    Plans property (.ok plan) := by
  rintro _ ⟨⟩
  exact holds

theorem error
    (fault : Fault) :
    Plans property (.error fault) :=
  nofun

/-- What was found out before does not matter when the rest plans well for everything. -/
theorem bind
    {β : Type}
    {found : Except Fault β}
    {rest : β → Except Fault α}
    (each : ∀ b, Plans property (rest b)) :
    Plans property (found >>= rest) := by
  cases found with
  | error fault => exact error fault
  | ok b => exact each b

theorem ite
    {c : Prop}
    [Decidable c]
    {yes no : Except Fault α}
    (ifSo : Plans property yes)
    (ifNot : Plans property no) :
    Plans property (if c then yes else no) := by
  split
  · exact ifSo
  · exact ifNot

end Plans
end Darkroom

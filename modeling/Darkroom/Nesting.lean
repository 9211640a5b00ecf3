/-!
# Bounded nesting

The frames that brackets open, innermost first, up to a limit.  A push beyond the limit is refused
and changes nothing.
-/

namespace Darkroom

/-- Why a bracket was refused. -/
inductive NestingError where
  /-- The limit is reached. -/
  | full (limit : Nat)
  /-- There is no frame. -/
  | empty
deriving DecidableEq, Repr

/-- The wording of a refusal. -/
def NestingError.message : NestingError → String
  | .full limit => "stack depth limit of " ++ toString limit ++ " reached"
  | .empty => "stack is empty"

/-- A stack of frames with a limit on its depth. -/
structure Nesting (α : Type) where
  /-- The frames, innermost first. -/
  frames : List α := []
  /-- The greatest depth. -/
  limit : Nat := 32
deriving DecidableEq, Repr

namespace Nesting

variable {α : Type}

/-- The limit on the depth of brackets. -/
def standardLimit : Nat := 32

/-- The number of frames. -/
def depth (n : Nesting α) : Nat :=
  n.frames.length

/-- Whether there is no frame. -/
def isEmpty (n : Nesting α) : Bool :=
  n.frames.isEmpty

/-- Whether the limit is reached. -/
def isFull (n : Nesting α) : Bool :=
  n.limit ≤ n.depth

/-- A new innermost frame. -/
def push (n : Nesting α) (frame : α) : Except NestingError (Nesting α) :=
  if n.isFull then .error (.full n.limit)
  else .ok { n with frames := frame :: n.frames }

/-- The innermost frame and the others. -/
def pop (n : Nesting α) : Except NestingError (α × Nesting α) :=
  match n.frames with
  | [] => .error .empty
  | frame :: frames => .ok (frame, { n with frames })

/-- The innermost frame. -/
def top? (n : Nesting α) : Option α :=
  n.frames.head?

/-- The innermost frame replaced. -/
def setTop? (n : Nesting α) (frame : α) : Option (Nesting α) :=
  match n.frames with
  | [] => none
  | _ :: frames => some { n with frames := frame :: frames }

/-- Every frame, innermost first, and the empty stack. -/
def drain (n : Nesting α) : List α × Nesting α :=
  (n.frames, { n with frames := [] })

end Nesting
end Darkroom

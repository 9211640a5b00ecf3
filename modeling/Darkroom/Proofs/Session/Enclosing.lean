import Darkroom.Proofs.Session.Brackets
import Mathlib.Data.List.DropRight
import Mathlib.Data.List.Infix

/-!
# What lies around a group

Calls that are no brackets read what brackets have put aside and never change it.  A bracket changes
one frame at the top of each stack.  So calls that never go below some depth leave everything below
it as it was, image for image and field for field.
-/

namespace Darkroom

namespace Nesting

variable {α : Type} {n n' : Nesting α} {k : Nat}

/-- The outermost frames, so many of them. -/
def outermost (n : Nesting α) (k : Nat) : List α :=
  n.frames.rtake k

/-- What one call can do to a stack. -/
inductive Shifts (n : Nesting α) : Nesting α → Prop where
  | stay : Shifts n n
  | push (frame : α) : Shifts n { n with frames := frame :: n.frames }
  | pop
      {frame : α}
      {frames : List α}
      (top : n.frames = frame :: frames) :
      Shifts n { n with frames }

theorem rtake_cons
    {frame : α}
    {frames : List α}
    (covered : k ≤ frames.length) :
    (frame :: frames).rtake k = frames.rtake k := by
  rw [List.rtake, List.rtake, List.length_cons, Nat.succ_sub covered, List.drop_succ_cons]

theorem Shifts.outermost_eq
    (shifts : n.Shifts n')
    (before : k ≤ n.depth)
    (after : k ≤ n'.depth) :
    n'.outermost k = n.outermost k := by
  cases shifts with
  | stay => rfl
  | push frame => exact rtake_cons before
  | pop top =>
      rw [outermost, outermost, top]
      exact (rtake_cons after).symm

end Nesting

namespace Session

variable {σ : Type} {s s' s'' : Session σ}

/-- Two sessions with the same lists and settings put aside. -/
structure SameBrackets (s s' : Session σ) : Prop where
  scopes : s'.scopes = s.scopes
  saved : s'.saved = s.saved

namespace SameBrackets

theorem refl
    (s : Session σ) :
    s.SameBrackets s :=
  ⟨rfl, rfl⟩

theorem trans
    (first : s.SameBrackets s')
    (second : s'.SameBrackets s'') :
    s.SameBrackets s'' :=
  ⟨second.scopes.trans first.scopes, second.saved.trans first.saved⟩

theorem of_sameLists
    (same : s.SameLists s') :
    s.SameBrackets s' :=
  ⟨same.scopes, same.saved⟩

end SameBrackets

/-! ## Calls that are no brackets -/

variable (engine : Engine σ)

theorem settle_sameBrackets
    (inv : Invocation)
    (acted : Acted σ Unit) :
    acted.2.SameBrackets (settle inv acted).2 :=
  .of_sameLists (settle_sameLists inv acted)

theorem place_sameBrackets
    (s : Session σ)
    (h : Handle)
    (product : Product) :
    s.SameBrackets (s.place h product) := by
  cases product <;> exact ⟨rfl, rfl⟩

theorem visit_sameBrackets
    (operator : ImageOperator)
    (inv : Invocation)
    (h : Handle)
    (image : Image)
    (s : Session σ) :
    s.SameBrackets ((s.visit engine operator inv h image).closed inv h) := by
  obtain ⟨settings, printed, world, reported⟩ :=
    visit_reported_frame engine operator inv h image s
  refine .trans ?_ (place_sameBrackets _ h _)
  rw [reported]
  exact ⟨rfl, rfl⟩

theorem passOver_sameBrackets
    (operator : ImageOperator)
    (inv : Invocation)
    (handles : List Handle)
    (s : Session σ) :
    s.SameBrackets (s.passOver engine operator inv handles).2 :=
  passOver_kept s.SameBrackets
    (fun t h image same => same.trans (visit_sameBrackets engine operator inv h image t))
    (.refl s) handles

theorem applyToImages_sameBrackets
    (option : String)
    (first? second? : Option String)
    (s : Session σ) :
    s.SameBrackets (s.applyToImages engine option first? second?).2 := by
  unfold applyToImages
  extract_lets inv
  split
  · exact .refl s
  · split
    · exact settle_sameBrackets inv (.error .noImages, s)
    · exact passOver_sameBrackets engine _ inv _ s

theorem remapOver_sameBrackets
    (reference : Image)
    (dither : Bool)
    (handles : List Handle)
    (s : Session σ) :
    s.SameBrackets (s.remapOver engine reference dither handles).2 := by
  refine remapOver_kept s.SameBrackets (fun t h image product same => ?_) (.refl s) handles
  have worked : t.SameBrackets
      (performOnImage engine image (.apply (.remap reference dither) id)
        { t with images := (t.images.take h).2 }).2 := ⟨rfl, rfl⟩
  exact (same.trans worked).trans (place_sameBrackets _ h product)

theorem assemble_sameBrackets
    (operands : List Image)
    (op : Assembly)
    (s : Session σ) :
    s.SameBrackets (s.assemble engine operands op).2 := by
  unfold assemble
  split <;> exact ⟨rfl, rfl⟩

theorem writeImages_sameBrackets
    (request : WriteRequest)
    (rename : Bool)
    (s : Session σ) :
    s.SameBrackets (s.writeImages engine request rename).2 := by
  unfold writeImages
  extract_lets path
  split
  split <;> exact ⟨rfl, rfl⟩

theorem performOnList_sameBrackets
    (plan : ListPlan)
    (s : Session σ) :
    s.SameBrackets (s.performOnList engine plan).2 := by
  cases plan with
  | assemble op =>
      have given : s.SameBrackets { s with images := .ofList s.images.intoList } := ⟨rfl, rfl⟩
      exact given.trans (assemble_sameBrackets engine _ op _)
  | assembleFrom operands op => exact assemble_sameBrackets engine operands op s
  | rearrange images => exact ⟨rfl, rfl⟩
  | refuse images fault => exact ⟨rfl, rfl⟩
  | remap path dither =>
      exact performOnList_remap_kept s.SameBrackets
        (.of_sameLists (auxiliaryImage_sameLists engine path s))
        fun reference _ same => same.trans (remapOver_sameBrackets engine reference dither _ _)
  | limit resource limit => exact ⟨rfl, rfl⟩
  | print text => exact ⟨rfl, rfl⟩
  | write request rename => exact writeImages_sameBrackets engine request rename s

theorem applyToList_sameBrackets
    (option : String)
    (first? second? : Option String)
    (s : Session σ) :
    s.SameBrackets (s.applyToList engine option first? second?).2 := by
  unfold applyToList
  extract_lets inv
  split
  · exact .refl s
  · split
    · exact settle_sameBrackets inv (.error .noImages, s)
    · have synced : s.SameBrackets s.syncAll := ⟨rfl, rfl⟩
      refine .trans ?_ (settle_sameBrackets inv _)
      split
      · exact synced.trans (performOnList_sameBrackets engine _ s.syncAll)
      · exact synced

/-- A special option that is no bracket reads, clones, lists or does nothing. -/
theorem special_extended
    {name : String}
    {special : SpecialOption σ}
    (named : SpecialOption.named? name = some special)
    (noBracket : ∀ b : Bracket, name ≠ b.option)
    (inv : Invocation)
    (s : Session σ) :
    s.Extended engine (special.act engine inv s).2 := by
  unfold SpecialOption.named? at named
  split at named
  all_goals cases named
  -- The first four names are those of the brackets.
  · exact absurd rfl (noBracket (.opening .round))
  · exact absurd rfl (noBracket (.closing .round))
  · exact absurd rfl (noBracket (.opening .curly))
  · exact absurd rfl (noBracket (.closing .curly))
  · exact read_extended engine inv s
  · exact read_extended engine inv s
  · exact clone_extended engine inv s
  · exact list_extended engine inv s
  all_goals exact .unchanged

theorem Extended.sameBrackets
    (extended : s.Extended engine s') :
    s.SameBrackets s' := by
  cases extended <;> exact ⟨rfl, rfl⟩

theorem applySpecial_sameBrackets
    {option : String}
    (noBracket : ∀ b : Bracket, (Invocation.splitSign option).1 ≠ b.option)
    (first? : Option String)
    (s : Session σ) :
    s.SameBrackets (s.applySpecial engine option first?).2 := by
  unfold applySpecial
  extract_lets inv
  split
  · exact .refl s
  · next special named =>
    have acted := (special_extended engine named noBracket inv s).sameBrackets
    exact acted.trans (settle_sameBrackets inv _)

/-! ## Single calls -/

/-- The call applies one option; a command line applies many. -/
def Call.AppliesOption : Call → Prop
  | .run _ => False
  | _ => True

/-- The call applies one option that is no bracket. -/
def Call.NoBracket : Call → Prop
  | .special option _ => ∀ b : Bracket, (Invocation.splitSign option).1 ≠ b.option
  | .run _ => False
  | _ => True

theorem clone_noBracket
    (scenes? : Option String) :
    Call.NoBracket (.special "-clone" scenes?) := by
  intro b
  match b with
  | .opening .round | .opening .curly | .closing .round | .closing .curly => decide

theorem call_sameBrackets
    {c : Call}
    (noBracket : c.NoBracket)
    (s : Session σ) :
    s.SameBrackets (s.call engine c).2 := by
  cases c with
  | setting option first? =>
      exact .of_sameLists (applySetting_sameLists engine option first? s)
  | image option first? second? => exact applyToImages_sameBrackets engine option first? second? s
  | list option first? second? => exact applyToList_sameBrackets engine option first? second? s
  | special option first? => exact applySpecial_sameBrackets engine noBracket first? s
  | run tokens => exact noBracket.elim

/-- Both stacks change by one frame at most. -/
structure ShiftsBoth (s s' : Session σ) : Prop where
  scopes : s.scopes.Shifts s'.scopes
  saved : s.saved.Shifts s'.saved

theorem SameBrackets.shiftsBoth
    (same : s.SameBrackets s') :
    s.ShiftsBoth s' :=
  ⟨same.scopes ▸ .stay, same.saved ▸ .stay⟩

theorem Passes.shiftsBoth
    {b : Bracket}
    (passes : s.Passes b s') :
    s.ShiftsBoth s' := by
  cases passes with
  | openRound _ => exact ⟨.push _, .stay⟩
  | openBoth _ => exact ⟨.push _, .push _⟩
  | closeRound frames _ => exact ⟨.pop frames, .stay⟩
  | closeBoth frames savedFrames _ => exact ⟨.pop frames, .pop savedFrames⟩
  | openCurly => exact ⟨.stay, .push _⟩
  | closeCurly savedFrames => exact ⟨.stay, .pop savedFrames⟩

theorem applySpecial_shiftsBoth
    (option : String)
    (first? : Option String)
    (s : Session σ) :
    s.ShiftsBoth (s.applySpecial engine option first?).2 := by
  by_cases bracket : ∃ b : Bracket, (Invocation.splitSign option).1 = b.option
  · obtain ⟨b, named⟩ := bracket
    rw [applySpecial_bracket engine named]
    by_cases refuses : s.Refuses b
    · rw [bracket_of_refuses refuses]
      exact ⟨.stay, .stay⟩
    · obtain ⟨s', acted, passes⟩ := bracket_passes refuses
      rw [acted]
      exact passes.shiftsBoth
  · have noBracket := not_exists.mp bracket
    exact (applySpecial_sameBrackets engine noBracket first? s).shiftsBoth

theorem call_shiftsBoth
    {c : Call}
    (one : c.AppliesOption)
    (s : Session σ) :
    s.ShiftsBoth (s.call engine c).2 := by
  cases c with
  | setting option first? =>
      have same := SameBrackets.of_sameLists (applySetting_sameLists engine option first? s)
      exact same.shiftsBoth
  | image option first? second? =>
      exact (applyToImages_sameBrackets engine option first? second? s).shiftsBoth
  | list option first? second? =>
      exact (applyToList_sameBrackets engine option first? second? s).shiftsBoth
  | special option first? => exact applySpecial_shiftsBoth engine option first? s
  | run tokens => exact one.elim

/-! ## Runs -/

/-- The calls never go below so many lists and so many settings put aside. -/
def StaysAbove (d e : Nat) (calls : List Call) (s : Session σ) : Prop :=
  ∀ before, before <+: calls →
    d ≤ (s.callAll engine before).scopes.depth ∧ e ≤ (s.callAll engine before).saved.depth

theorem StaysAbove.cons
    {d e : Nat}
    {c : Call}
    {rest : List Call}
    (stays : StaysAbove engine d e (c :: rest) s) :
    StaysAbove engine d e rest (s.call engine c).2 := by
  intro before inside
  exact stays (c :: before) (List.cons_prefix_cons.mpr ⟨rfl, inside⟩)

theorem StaysAbove.outermost_eq
    {calls : List Call}
    (single : ∀ c ∈ calls, c.AppliesOption)
    {d e : Nat}
    (stays : StaysAbove engine d e calls s) :
    (s.callAll engine calls).scopes.outermost d = s.scopes.outermost d ∧
      (s.callAll engine calls).saved.outermost e = s.saved.outermost e := by
  induction calls generalizing s with
  | nil => exact ⟨rfl, rfl⟩
  | cons c rest inductionHypothesis =>
      obtain ⟨one, others⟩ := List.forall_mem_cons.mp single
      have step := call_shiftsBoth engine one s
      have before := stays [] List.nil_prefix
      have after := stays [c] (List.cons_prefix_cons.mpr ⟨rfl, List.nil_prefix⟩)
      have later := inductionHypothesis others (StaysAbove.cons engine stays)
      exact ⟨later.1.trans (step.scopes.outermost_eq before.1 after.1),
        later.2.trans (step.saved.outermost_eq before.2 after.2)⟩

/-- Calls of single options that never go below a depth leave what was put aside below it as it
was.  A call that is no bracket leaves everything that was put aside as it was. -/
theorem group_leaves_enclosing_scopes
    {calls : List Call}
    (single : ∀ c ∈ calls, c.AppliesOption)
    {d e : Nat}
    (stays : StaysAbove engine d e calls s) :
    ((s.callAll engine calls).scopes.outermost d = s.scopes.outermost d ∧
        (s.callAll engine calls).saved.outermost e = s.saved.outermost e) ∧
      ∀ c : Call, c.NoBracket → ∀ t : Session σ, t.SameBrackets (t.call engine c).2 :=
  ⟨stays.outermost_eq engine single, fun _ noBracket t => call_sameBrackets engine noBracket t⟩

/-- A group copies an image, works on it and closes a group of its own; the list and the settings
around it stay as they were. -/
theorem group_of_clone_leaves_enclosing_scopes :
    let s : Session Nat :=
      { scopes := { frames := [.ofList [default]] }, saved := { frames := [{}] }, world := 0 }
    let calls : List Call :=
      [.special "-clone" (some "0"), .special "(" none, .special "\x7b" none,
        .setting "-respect-parenthesis" none, .special "\x7d" none, .special ")" none,
        .image "-flip" none none]
    (∀ c ∈ calls, c.AppliesOption) ∧ StaysAbove parting 1 1 calls s ∧
      (s.callAll parting calls).images.toList.length = 2 ∧
      (s.callAll parting calls).scopes.outermost 1 = s.scopes.outermost 1 ∧
      (s.callAll parting calls).saved.outermost 1 = s.saved.outermost 1 := by
  intro s calls
  have single : ∀ c ∈ calls, c.AppliesOption := by
    simp [calls, Call.AppliesOption]
  have every : ∀ before ∈ calls.inits, 1 ≤ (s.callAll parting before).scopes.depth ∧
      1 ≤ (s.callAll parting before).saved.depth := by decide
  have stays : StaysAbove parting 1 1 calls s :=
    fun before inside => every before ((List.mem_inits before calls).mpr inside)
  have kept := (group_leaves_enclosing_scopes parting single stays).1
  exact ⟨single, stays, by decide, kept.1, kept.2⟩

end Session
end Darkroom

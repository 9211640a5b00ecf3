import Darkroom.Proofs.Session.Invariant

/-!
# Brackets are exact and atomic

A bracket is refused exactly when there is no room for it or nothing to close, and then nothing
happens but its report.  An accepted bracket moves the list of images, or the settings, or both
together.  Whether both move is read off the settings in force when a round bracket opens, and off
the settings put aside last when it closes.

No bracket loses, copies or reorders images: the lists put aside, outermost first, followed by the
list that options act on, hold the same images in the same order whatever brackets come.
-/

namespace Darkroom

/-- The two pairs of brackets. -/
inductive BracketShape where
  | round
  | curly
deriving DecidableEq, Repr

/-- A bracket of a command line. -/
inductive Bracket where
  | opening (shape : BracketShape)
  | closing (shape : BracketShape)
deriving DecidableEq, Repr

namespace Bracket

/-- The option that stands for the bracket. -/
def option : Bracket → String
  | .opening .round => "("
  | .closing .round => ")"
  | .opening .curly => "\x7b"
  | .closing .curly => "\x7d"

/-- The fault of the bracket when it is refused. -/
def refusal : Bracket → Fault
  | .opening _ => .nestedTooDeeply
  | .closing _ => .unbalanced

end Bracket

namespace Session

variable {σ : Type} {s s' : Session σ}

/-- An opening bracket has no room, or a closing one has nothing to close. -/
def Refuses (s : Session σ) : Bracket → Prop
  | .opening .round => s.scopes.isFull ∨ s.settings.image.respectsBrackets ∧ s.saved.isFull
  | .opening .curly => s.saved.isFull
  | .closing .round => s.scopes.isEmpty
  | .closing .curly => s.saved.isEmpty

/-- What an accepted bracket makes of a session. -/
inductive Passes (s : Session σ) : Bracket → Session σ → Prop where
  /-- The list is put aside. -/
  | openRound
      (apart : s.settings.image.respectsBrackets = false) :
      Passes s (.opening .round)
        { s with images := {}, scopes.frames := s.images :: s.scopes.frames }
  /-- The list and a copy of the settings are put aside. -/
  | openBoth
      (coupled : s.settings.image.respectsBrackets = true) :
      Passes s (.opening .round)
        { s with
          images := {}
          scopes.frames := s.images :: s.scopes.frames
          saved.frames := s.settings.image :: s.saved.frames }
  /-- The list put aside last comes back, followed by the images made inside. -/
  | closeRound
      {outer : Reel Image}
      {scopes : List (Reel Image)}
      (frames : s.scopes.frames = outer :: scopes)
      (apart : ∀ settings ∈ s.saved.top?, settings.respectsBrackets = false) :
      Passes s (.closing .round)
        { s with images := outer.append s.images, scopes.frames := scopes }
  /-- The settings put aside last ask for it and come back with the list. -/
  | closeBoth
      {outer : Reel Image}
      {scopes : List (Reel Image)}
      {settings : ImageSettings}
      {saved : List ImageSettings}
      (frames : s.scopes.frames = outer :: scopes)
      (savedFrames : s.saved.frames = settings :: saved)
      (coupled : settings.respectsBrackets = true) :
      Passes s (.closing .round)
        { s with
          images := outer.append s.images
          scopes.frames := scopes
          saved.frames := saved
          settings := .rebuilt settings }
  /-- A copy of the settings is put aside. -/
  | openCurly :
      Passes s (.opening .curly) { s with saved.frames := s.settings.image :: s.saved.frames }
  /-- The settings put aside last come back. -/
  | closeCurly
      {settings : ImageSettings}
      {saved : List ImageSettings}
      (savedFrames : s.saved.frames = settings :: saved) :
      Passes s (.closing .curly) { s with saved.frames := saved, settings := .rebuilt settings }

/-- What a bracket does, by its own function. -/
def bracket (s : Session σ) : Bracket → Except Fault (Session σ)
  | .opening .round => s.openScope
  | .closing .round => s.closeScope
  | .opening .curly => s.saveSettings
  | .closing .curly => s.restoreSettings

/-- An accepted bracket reports nothing. -/
theorem Passes.log_eq
    {b : Bracket}
    (passes : s.Passes b s') :
    s'.log = s.log := by
  cases passes <;> rfl

/-! ## The two functions on settings -/

theorem saveSettings_of_full
    (full : s.saved.isFull) :
    s.saveSettings = .error .nestedTooDeeply := by
  simp [saveSettings, Nesting.push, full]

theorem saveSettings_of_room
    (room : ¬ s.saved.isFull) :
    s.saveSettings = .ok { s with saved.frames := s.settings.image :: s.saved.frames } := by
  simp [saveSettings, Nesting.push, room]

theorem restoreSettings_of_empty
    (empty : s.saved.isEmpty) :
    s.restoreSettings = .error .unbalanced := by
  have frames : s.saved.frames = [] := List.isEmpty_iff.mp empty
  simp [restoreSettings, Nesting.pop, frames]

theorem restoreSettings_of_frame
    {settings : ImageSettings}
    {saved : List ImageSettings}
    (frames : s.saved.frames = settings :: saved) :
    s.restoreSettings =
      .ok { s with saved.frames := saved, settings := .rebuilt settings } := by
  simp [restoreSettings, Nesting.pop, frames]

/-! ## Brackets by their own functions -/

theorem bracket_of_refuses
    {b : Bracket}
    (refuses : s.Refuses b) :
    s.bracket b = .error b.refusal := by
  match b with
  | .opening .curly => exact saveSettings_of_full refuses
  | .closing .curly => exact restoreSettings_of_empty refuses
  | .closing .round =>
      have frames : s.scopes.frames = [] := List.isEmpty_iff.mp refuses
      simp [bracket, closeScope, Nesting.pop, frames, Bracket.refusal]
  | .opening .round =>
      rcases refuses with full | ⟨coupled, full⟩
      · simp [bracket, openScope, Nesting.push, full, Bracket.refusal]
      · simp [bracket, openScope, coupled, full, Bracket.refusal]

theorem openScope_passes
    (accepts : ¬ s.Refuses (.opening .round)) :
    ∃ s', s.openScope = .ok s' ∧ s.Passes (.opening .round) s' := by
  obtain ⟨room, both⟩ := not_or.mp accepts
  cases coupled : s.settings.image.respectsBrackets with
  | false =>
      refine ⟨_, ?_, .openRound coupled⟩
      simp [openScope, Nesting.push, room, coupled]
  | true =>
      have savedRoom : ¬ s.saved.isFull := fun full => both ⟨coupled, full⟩
      refine ⟨_, ?_, .openBoth coupled⟩
      simp [openScope, saveSettings, Nesting.push, room, coupled, savedRoom]

theorem closeScope_passes
    (accepts : ¬ s.Refuses (.closing .round)) :
    ∃ s', s.closeScope = .ok s' ∧ s.Passes (.closing .round) s' := by
  have some : s.scopes.frames ≠ [] := fun none => accepts (List.isEmpty_iff.mpr none)
  obtain ⟨outer, scopes, frames⟩ := List.exists_cons_of_ne_nil some
  cases savedFrames : s.saved.frames with
  | nil =>
      refine ⟨_, ?_, .closeRound frames (by simp [Nesting.top?, savedFrames])⟩
      simp [closeScope, Nesting.pop, Nesting.top?, frames, savedFrames]
  | cons settings saved =>
      cases coupled : settings.respectsBrackets with
      | false =>
          refine ⟨_, ?_, .closeRound frames (by simp [Nesting.top?, savedFrames, coupled])⟩
          simp [closeScope, Nesting.pop, Nesting.top?, frames, savedFrames, coupled]
      | true =>
          refine ⟨_, ?_, .closeBoth frames savedFrames coupled⟩
          simp [closeScope, restoreSettings, Nesting.pop, Nesting.top?, frames, savedFrames,
            coupled]

theorem bracket_passes
    {b : Bracket}
    (accepts : ¬ s.Refuses b) :
    ∃ s', s.bracket b = .ok s' ∧ s.Passes b s' := by
  match b with
  | .opening .round => exact openScope_passes accepts
  | .closing .round => exact closeScope_passes accepts
  | .opening .curly => exact ⟨_, saveSettings_of_room accepts, .openCurly⟩
  | .closing .curly =>
      have some : s.saved.frames ≠ [] := fun none => accepts (List.isEmpty_iff.mpr none)
      obtain ⟨settings, saved, frames⟩ := List.exists_cons_of_ne_nil some
      exact ⟨_, restoreSettings_of_frame frames, .closeCurly frames⟩

/-! ## Brackets as options -/

variable (engine : Engine σ)

/-- A bracket with a sign in front is the same bracket. -/
theorem applySpecial_bracket
    {option : String}
    {b : Bracket}
    (named : (Invocation.splitSign option).1 = b.option)
    (first? : Option String)
    (s : Session σ) :
    s.applySpecial engine option first? =
      settle (Invocation.of option first? none)
        (match s.bracket b with
          | .ok s => (.ok (), s)
          | .error fault => (.error fault, s)) := by
  have name : (Invocation.of option first? none).name = b.option := named
  unfold applySpecial
  dsimp only
  rw [name]
  match b with
  | .opening .round => rfl
  | .opening .curly => rfl
  | .closing .round => rfl
  | .closing .curly => rfl

theorem splitSign_option
    (b : Bracket) :
    Invocation.splitSign b.option = (b.option, true) := by
  match b with
  | .opening .round => rfl
  | .opening .curly => rfl
  | .closing .round => rfl
  | .closing .curly => rfl

theorem applySpecial_of_refuses
    {b : Bracket}
    (refuses : s.Refuses b)
    (first? : Option String) :
    s.applySpecial engine b.option first? = (none, s.report b.refusal b.option) := by
  rw [applySpecial_bracket engine (congrArg Prod.fst (splitSign_option b)),
    bracket_of_refuses refuses]
  match b with
  | .opening _ => rfl
  | .closing _ => rfl

theorem applySpecial_passes
    {b : Bracket}
    (accepts : ¬ s.Refuses b)
    (first? : Option String) :
    ∃ s', s.Passes b s' ∧ s.applySpecial engine b.option first? = (none, s') := by
  obtain ⟨s', acted, passes⟩ := bracket_passes accepts
  refine ⟨s', passes, ?_⟩
  rw [applySpecial_bracket engine (congrArg Prod.fst (splitSign_option b)), acted]
  rfl

/-! ## The images of all lists -/

/-- The images put aside, outermost first, and then the images that options act on. -/
def gathered (s : Session σ) : List Image :=
  s.scopes.frames.reverse.flatMap Reel.toList ++ s.images.toList

/-- The list that options act on and the lists put aside are well-formed. -/
def ListsWellFormed (s : Session σ) : Prop :=
  ∀ list ∈ s.images :: s.scopes.frames, list.WellFormed

theorem append_toList
    {outer inner : Reel Image}
    (outerWellFormed : outer.WellFormed)
    (innerWellFormed : inner.WellFormed) :
    (outer.append inner).toList = outer.toList ++ inner.toList := by
  rw [(outerWellFormed.append inner).toList_eq, outerWellFormed.append_places innerWellFormed,
    List.filterMap_append, ← outerWellFormed.toList_eq, List.filterMap_map]
  exact congrArg _ List.filterMap_some

theorem ListsWellFormed.passes
    {b : Bracket}
    (lists : s.ListsWellFormed)
    (passes : s.Passes b s') :
    s'.ListsWellFormed := by
  have apart := List.forall_mem_cons.mp lists
  cases passes with
  | openRound _ => exact List.forall_mem_cons.mpr ⟨.empty, lists⟩
  | openBoth _ => exact List.forall_mem_cons.mpr ⟨.empty, lists⟩
  | closeRound frames _ =>
      have outside := List.forall_mem_cons.mp (frames ▸ apart.2)
      exact List.forall_mem_cons.mpr ⟨outside.1.append _, outside.2⟩
  | closeBoth frames _ _ =>
      have outside := List.forall_mem_cons.mp (frames ▸ apart.2)
      exact List.forall_mem_cons.mpr ⟨outside.1.append _, outside.2⟩
  | openCurly => exact lists
  | closeCurly _ => exact lists

/-- The list put aside last, followed by the images made inside, stands where both stood. -/
theorem ListsWellFormed.gathered_closed
    {outer : Reel Image}
    {scopes : List (Reel Image)}
    (lists : s.ListsWellFormed)
    (frames : s.scopes.frames = outer :: scopes) :
    scopes.reverse.flatMap Reel.toList ++ (outer.append s.images).toList = s.gathered := by
  have apart := List.forall_mem_cons.mp lists
  have outside := (List.forall_mem_cons.mp (frames ▸ apart.2)).1
  rw [append_toList outside apart.1, gathered, frames, List.reverse_cons, List.flatMap_append,
    List.flatMap_singleton, List.append_assoc]

theorem Passes.gathered_eq
    {b : Bracket}
    (lists : s.ListsWellFormed)
    (passes : s.Passes b s') :
    s'.gathered = s.gathered := by
  cases passes with
  | openRound _ => simp [gathered, Reel.toList]
  | openBoth _ => simp [gathered, Reel.toList]
  | closeRound frames _ => exact lists.gathered_closed frames
  | closeBoth frames _ _ => exact lists.gathered_closed frames
  | openCurly => rfl
  | closeCurly _ => rfl

/-- The session after some brackets, refused or not. -/
def afterBrackets (brackets : List Bracket) (s : Session σ) : Session σ :=
  brackets.foldl (fun s b => (s.applySpecial engine b.option none).2) s

/-- One bracket, refused or not, keeps the lists well-formed and their images in order. -/
theorem ListsWellFormed.bracket
    (lists : s.ListsWellFormed)
    (b : Bracket) :
    (s.applySpecial engine b.option none).2.ListsWellFormed ∧
      (s.applySpecial engine b.option none).2.gathered = s.gathered := by
  by_cases refuses : s.Refuses b
  · rw [applySpecial_of_refuses engine refuses none]
    exact ⟨lists, rfl⟩
  · obtain ⟨s', passes, applied⟩ := applySpecial_passes engine refuses none
    rw [applied]
    exact ⟨lists.passes passes, passes.gathered_eq lists⟩

theorem ListsWellFormed.afterBrackets_gathered
    (lists : s.ListsWellFormed)
    (brackets : List Bracket) :
    (s.afterBrackets engine brackets).gathered = s.gathered := by
  induction brackets generalizing s with
  | nil => rfl
  | cons b rest inductionHypothesis =>
      obtain ⟨lists', gathered⟩ := lists.bracket engine b
      exact (inductionHypothesis lists').trans gathered

/-! ## The main result -/

/-- A bracket is refused exactly when it has no room or nothing to close, and then changes nothing
but the log.  Otherwise it reports nothing and does all of what it should.  No sequence of brackets
changes the images of all lists in order. -/
theorem brackets_exact_and_atomic
    (s : Session σ) :
    (∀ b first?,
        (s.Refuses b →
          s.applySpecial engine b.option first? = (none, s.report b.refusal b.option)) ∧
        (¬ s.Refuses b →
          ∃ s', s.Passes b s' ∧ s.applySpecial engine b.option first? = (none, s'))) ∧
      (s.ListsWellFormed →
        (∀ outer ∈ s.scopes.frames,
            (outer.append s.images).toList = outer.toList ++ s.images.toList) ∧
          ∀ brackets, (s.afterBrackets engine brackets).gathered = s.gathered) := by
  constructor
  · intro b first?
    constructor
    · intro refuses
      exact applySpecial_of_refuses engine refuses first?
    · intro accepts
      exact applySpecial_passes engine accepts first?
  · intro lists
    have apart := List.forall_mem_cons.mp lists
    constructor
    · intro outer put
      exact append_toList (apart.2 outer put) apart.1
    · exact lists.afterBrackets_gathered engine

/-- A round bracket closes around settings that ask for it, and a second one is refused. -/
theorem brackets_of_coupled_lists :
    let settings : ImageSettings := ({} : ImageSettings).setOption "respect-parenthesis" "true"
    let s : Session Nat :=
      { images := .ofList [default]
        scopes := { frames := [.ofList [default, default]] }
        saved := { frames := [settings] }
        world := 0 }
    s.ListsWellFormed ∧ ¬ s.Refuses (.closing .round) ∧
      (∃ s', s.Passes (.closing .round) s' ∧ s.applySpecial parting ")" none = (none, s') ∧
        s'.Refuses (.closing .round) ∧
        s'.applySpecial parting ")" none = (none, s'.report .unbalanced ")")) ∧
      (s.afterBrackets parting [.closing .round, .closing .round]).gathered = s.gathered ∧
      s.gathered.length = 3 := by
  intro settings s
  have lists : s.ListsWellFormed := by
    refine List.forall_mem_cons.mpr ⟨.ofList _, ?_⟩
    exact List.forall_mem_singleton.mpr (.ofList _)
  have accepts : ¬ s.Refuses (.closing .round) := nofun
  obtain ⟨s', passes, closed⟩ :=
    ((brackets_exact_and_atomic parting s).1 (.closing .round) none).2 accepts
  have empty : s'.Refuses (.closing .round) := by
    cases passes with
    | closeRound frames _ => cases frames; rfl
    | closeBoth frames _ _ => cases frames; rfl
  have refused := ((brackets_exact_and_atomic parting s').1 (.closing .round) none).1 empty
  exact ⟨lists, accepts, ⟨s', passes, closed, empty, refused⟩,
    ((brackets_exact_and_atomic parting s).2 lists).2 _, by decide⟩

end Session
end Darkroom

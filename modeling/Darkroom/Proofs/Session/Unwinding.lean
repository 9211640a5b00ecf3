import Darkroom.Proofs.Session.Enclosing

/-!
# Balanced brackets unwind

Brackets that match, nested up to the limit of both stacks, give back what they put aside.  Between
them any calls may come that are no brackets.

A closing round bracket does not know whether its opening one put the settings aside: it looks at
the settings that were put aside last, whoever put them there.  So the result holds as long as no
round bracket opens on its own right inside settings that ask for round brackets to respect them.
Without this a closing round bracket takes away the settings of the bracket around it.
-/

namespace Darkroom
namespace Session

variable {σ : Type} (engine : Engine σ)

/-! ## Steps and the brackets that are open -/

/-- A bracket, or a call that is none. -/
inductive Step where
  | bracket (b : Bracket)
  | call (c : Call) (noBracket : c.NoBracket)

/-- Every closing bracket has the shape of the innermost open one, and none stays open. -/
def WellNested : List BracketShape → List Step → Prop
  | pending, [] => pending = []
  | pending, .call _ _ :: rest => WellNested pending rest
  | pending, .bracket (.opening shape) :: rest => WellNested (shape :: pending) rest
  | pending, .bracket (.closing shape) :: rest =>
      ∃ others, pending = shape :: others ∧ WellNested others rest

/-- An open bracket, with what was in force when it opened. -/
inductive Opened where
  | round (images : Reel Image) (settings : ImageSettings)
  | curly (settings : ImageSettings)

namespace Opened

def shape : Opened → BracketShape
  | .round _ _ => .round
  | .curly _ => .curly

/-- The list that the bracket puts aside. -/
def list? : Opened → Option (Reel Image)
  | .round images _ => some images
  | .curly _ => none

/-- The settings that the bracket puts aside. -/
def settings? : Opened → Option ImageSettings
  | .round _ settings => if settings.respectsBrackets then some settings else none
  | .curly settings => some settings

end Opened

/-- A session and the brackets that are open in it, innermost first. -/
structure Walk (σ : Type) where
  session : Session σ
  opened : List Opened := []

namespace Walk

/-- The lists that the open brackets put aside. -/
def lists (w : Walk σ) : List (Reel Image) :=
  w.opened.filterMap Opened.list?

/-- The settings that the open brackets put aside. -/
def frames (w : Walk σ) : List ImageSettings :=
  w.opened.filterMap Opened.settings?

/-- The open brackets put aside no more than both stacks hold. -/
def Shallow (w : Walk σ) : Prop :=
  w.lists.length ≤ 32 ∧ w.frames.length ≤ 32

instance (w : Walk σ) : Decidable w.Shallow :=
  inferInstanceAs (Decidable (_ ∧ _))

/-- The open brackets after a bracket. -/
def note (w : Walk σ) : Bracket → List Opened
  | .opening .round => .round w.session.images w.session.settings.image :: w.opened
  | .opening .curly => .curly w.session.settings.image :: w.opened
  | .closing _ => w.opened.tail

def step (w : Walk σ) : Step → Walk σ
  | .bracket b => ⟨(w.session.applySpecial engine b.option none).2, w.note b⟩
  | .call c _ => ⟨(w.session.call engine c).2, w.opened⟩

end Walk

/-- The session after the first so many steps, and the brackets open in it. -/
def walk (steps : List Step) (s : Session σ) (n : Nat) : Walk σ :=
  (steps.take n).foldl (Walk.step engine) { session := s }

/-- A round bracket that opens here without the settings does not stand right inside settings that
ask for them. -/
def OpensApart (s : Session σ) : Prop :=
  s.settings.image.respectsBrackets = false →
    ∀ settings ∈ s.saved.top?, settings.respectsBrackets = false

/-- What matching brackets promise of a run from a session. -/
structure Unwinds (steps : List Step) (s : Session σ) : Prop where
  /-- No bracket is refused. -/
  accepted : ∀ n b, steps[n]? = some (.bracket b) →
    (walk engine steps s (n + 1)).session.log = (walk engine steps s n).session.log
  /-- Nothing stays put aside. -/
  ended : (walk engine steps s steps.length).session.scopes.isEmpty ∧
    (walk engine steps s steps.length).session.saved.isEmpty
  /-- A closing round bracket puts the list of its opening one in front of the list inside. -/
  round : ∀ n, steps[n]? = some (.bracket (.closing .round)) →
    ∃ outer settings others, (walk engine steps s n).opened = .round outer settings :: others ∧
      (walk engine steps s (n + 1)).session.images.toList =
        outer.toList ++ (walk engine steps s n).session.images.toList
  /-- A closing curly bracket brings back the settings of its opening one. -/
  curly : ∀ n, steps[n]? = some (.bracket (.closing .curly)) →
    ∃ settings others, (walk engine steps s n).opened = .curly settings :: others ∧
      (walk engine steps s (n + 1)).session.settings = .rebuilt settings

/-! ## What holds between two steps -/

namespace Walk

variable {engine} {w : Walk σ}

/-- Every open round bracket that put no settings aside stands apart from those around it. -/
def Apart : List Opened → Prop
  | [] => True
  | .curly _ :: others => Apart others
  | .round _ settings :: others =>
      (settings.respectsBrackets = false →
        ∀ top ∈ (others.filterMap Opened.settings?).head?, top.respectsBrackets = false) ∧
      Apart others

/-- Both stacks hold what the open brackets put aside. -/
structure Holds (w : Walk σ) : Prop where
  sound : w.session.Sound
  scopes : w.session.scopes.frames = w.lists
  saved : w.session.saved.frames = w.frames
  apart : Apart w.opened

theorem Holds.of_opened
    (holds : w.Holds)
    {opened : List Opened}
    (same : w.opened = opened) :
    w.session.scopes.frames = opened.filterMap Opened.list? ∧
      w.session.saved.frames = opened.filterMap Opened.settings? ∧ Apart opened :=
  same ▸ ⟨holds.scopes, holds.saved, holds.apart⟩

theorem Holds.top?_eq
    (holds : w.Holds) :
    w.session.saved.top? = w.frames.head? := by
  rw [Nesting.top?, holds.saved]

/-- A stack below its limit has room. -/
theorem not_isFull_of_length_lt
    {α : Type}
    {n : Nesting α}
    (bounded : n.Bounded)
    (room : n.frames.length < 32) :
    ¬ n.isFull := by
  have limit : n.limit = 32 := bounded.limit
  simp [Nesting.isFull, Nesting.depth, limit, room]

/-- A closing bracket that matches finds its opening one innermost. -/
theorem exists_opened
    {shape : BracketShape}
    {rest : List Step}
    (nested : WellNested (w.opened.map Opened.shape) (.bracket (.closing shape) :: rest)) :
    ∃ o others, w.opened = o :: others ∧ o.shape = shape ∧
      WellNested (others.map Opened.shape) rest := by
  obtain ⟨shapes, split, nested⟩ := nested
  obtain ⟨o, others, opened, same, rfl⟩ := List.map_eq_cons_iff.mp split
  exact ⟨o, others, opened, same, nested⟩

/-- A bracket that matches, with the brackets open after it within the limit, is not refused. -/
theorem Holds.accepts
    (holds : w.Holds)
    {b : Bracket}
    {rest : List Step}
    (nested : WellNested (w.opened.map Opened.shape) (.bracket b :: rest))
    (shallow : (w.step engine (.bracket b)).Shallow) :
    ¬ w.session.Refuses b := by
  match b with
  | .opening .round =>
      rintro (full | ⟨coupled, full⟩)
      · refine not_isFull_of_length_lt holds.sound.scopes_bounded ?_ full
        rw [holds.scopes]
        exact shallow.1
      · refine not_isFull_of_length_lt holds.sound.saved_bounded ?_ full
        rw [holds.saved]
        have pushed : (w.step engine (.bracket (.opening .round))).frames =
            w.session.settings.image :: w.frames := by
          simp [Walk.frames, step, note, Opened.settings?, coupled]
        have room := shallow.2
        rw [pushed] at room
        exact room
  | .opening .curly =>
      refine not_isFull_of_length_lt holds.sound.saved_bounded ?_
      rw [holds.saved]
      exact shallow.2
  | .closing .round =>
      obtain ⟨o, others, opened, same, -⟩ := exists_opened nested
      cases o with
      | curly settings => cases same
      | round images settings =>
          have put := (holds.of_opened opened).1
          simp [Refuses, Nesting.isEmpty, put, Opened.list?]
  | .closing .curly =>
      obtain ⟨o, others, opened, same, -⟩ := exists_opened nested
      cases o with
      | round images settings => cases same
      | curly settings =>
          have put := (holds.of_opened opened).2.1
          simp [Refuses, Nesting.isEmpty, put, Opened.settings?]

/-! ## One bracket -/

section Brackets

variable {s' : Session σ} {images : Reel Image} {settings : ImageSettings} {others : List Opened}

theorem Holds.openRound
    (holds : w.Holds)
    (apart : w.session.OpensApart)
    (passes : w.session.Passes (.opening .round) s')
    (sound : s'.Sound) :
    Holds ⟨s', w.note (.opening .round)⟩ := by
  have above : ∀ top ∈ w.frames.head?, w.session.settings.image.respectsBrackets = false →
      top.respectsBrackets = false := by
    intro top mem loose
    exact apart loose top (holds.top?_eq ▸ mem)
  cases passes with
  | openRound loose =>
      refine ⟨sound, ?_, ?_, ?_⟩
      · simp [Walk.lists, note, Opened.list?, holds.scopes]
      · simp [Walk.frames, note, Opened.settings?, loose, holds.saved]
      · exact ⟨fun _ top mem => above top mem loose, holds.apart⟩
  | openBoth coupled =>
      refine ⟨sound, ?_, ?_, ?_⟩
      · simp [Walk.lists, note, Opened.list?, holds.scopes]
      · simp [Walk.frames, note, Opened.settings?, coupled, holds.saved]
      · exact ⟨fun loose top mem => above top mem loose, holds.apart⟩

theorem Holds.openCurly
    (holds : w.Holds)
    (passes : w.session.Passes (.opening .curly) s')
    (sound : s'.Sound) :
    Holds ⟨s', w.note (.opening .curly)⟩ := by
  cases passes with
  | openCurly =>
      refine ⟨sound, holds.scopes, ?_, holds.apart⟩
      simp [Walk.frames, note, Opened.settings?, holds.saved]

/-- A closing round bracket takes away settings exactly when its opening one put them aside. -/
theorem Holds.closeRound
    (holds : w.Holds)
    (opened : w.opened = .round images settings :: others)
    (passes : w.session.Passes (.closing .round) s')
    (sound : s'.Sound) :
    Holds ⟨s', others⟩ ∧ s'.images = images.append w.session.images := by
  obtain ⟨scopes, saved, apart⟩ := holds.of_opened opened
  cases coupled : settings.respectsBrackets with
  | false =>
      -- The settings on top belong to a bracket around this one, and ask for nothing.
      have rest : w.session.saved.frames = others.filterMap Opened.settings? := by
        simpa [Opened.settings?, coupled] using saved
      cases passes with
      | closeRound frames _ =>
          obtain ⟨rfl, rfl⟩ := List.cons.inj (frames.symm.trans scopes)
          exact ⟨⟨sound, rfl, rest, apart.2⟩, rfl⟩
      | closeBoth frames savedFrames asks =>
          have silent := apart.1 coupled _ (by rw [← rest, savedFrames]; rfl)
          exact absurd asks (by simp [silent])
  | true =>
      have first : w.session.saved.frames = settings :: others.filterMap Opened.settings? := by
        simpa [Opened.settings?, coupled] using saved
      cases passes with
      | closeRound frames loose =>
          have silent := loose settings (by rw [Nesting.top?, first]; rfl)
          exact absurd coupled (by simp [silent])
      | closeBoth frames savedFrames _ =>
          obtain ⟨rfl, rfl⟩ := List.cons.inj (frames.symm.trans scopes)
          obtain ⟨rfl, rfl⟩ := List.cons.inj (savedFrames.symm.trans first)
          exact ⟨⟨sound, rfl, rfl, apart.2⟩, rfl⟩

theorem Holds.append_toList
    (holds : w.Holds)
    (opened : w.opened = .round images settings :: others) :
    (images.append w.session.images).toList = images.toList ++ w.session.images.toList := by
  have put := (holds.of_opened opened).1
  have whole : images.Whole := by
    apply holds.sound.scopes
    rw [put]
    exact List.mem_cons_self
  exact Session.append_toList whole.wellFormed holds.sound.images.wellFormed

theorem Holds.closeCurly
    (holds : w.Holds)
    (opened : w.opened = .curly settings :: others)
    (passes : w.session.Passes (.closing .curly) s')
    (sound : s'.Sound) :
    Holds ⟨s', others⟩ ∧ s'.settings = .rebuilt settings := by
  obtain ⟨scopes, saved, apart⟩ := holds.of_opened opened
  cases passes with
  | closeCurly savedFrames =>
      obtain ⟨rfl, rfl⟩ := List.cons.inj (savedFrames.symm.trans saved)
      exact ⟨⟨sound, scopes, rfl, apart⟩, rfl⟩

/-- A bracket that matches is accepted, and what comes of it is sound. -/
theorem Holds.passes
    (holds : w.Holds)
    {b : Bracket}
    {rest : List Step}
    (nested : WellNested (w.opened.map Opened.shape) (.bracket b :: rest))
    (shallow : (w.step engine (.bracket b)).Shallow) :
    ∃ s', w.session.Passes b s' ∧ s'.Sound ∧ w.step engine (.bracket b) = ⟨s', w.note b⟩ := by
  have accepts := holds.accepts nested shallow
  obtain ⟨s', passes, applied⟩ := applySpecial_passes engine accepts none
  have sound := holds.sound.applySpecial engine b.option none
  rw [applied] at sound
  exact ⟨s', passes, sound, by rw [step, applied]⟩

/-- One step, as the brackets open around it expect it. -/
theorem Holds.step
    (holds : w.Holds)
    {step : Step}
    {rest : List Step}
    (nested : WellNested (w.opened.map Opened.shape) (step :: rest))
    (shallow : (w.step engine step).Shallow)
    (apart : step = .bracket (.opening .round) → w.session.OpensApart) :
    (w.step engine step).Holds ∧
      WellNested ((w.step engine step).opened.map Opened.shape) rest := by
  cases step with
  | call c noBracket =>
      have same := call_sameBrackets engine noBracket w.session
      have sound := holds.sound.call engine c
      have scopes : (w.session.call engine c).2.scopes.frames = w.lists := by
        rw [same.scopes, holds.scopes]
      have saved : (w.session.call engine c).2.saved.frames = w.frames := by
        rw [same.saved, holds.saved]
      exact ⟨⟨sound, scopes, saved, holds.apart⟩, nested⟩
  | bracket b =>
      obtain ⟨s', passes, sound, after⟩ := holds.passes nested shallow
      rw [after]
      match b with
      | .opening .round => exact ⟨holds.openRound (apart rfl) passes sound, nested⟩
      | .opening .curly => exact ⟨holds.openCurly passes sound, nested⟩
      | .closing shape =>
          obtain ⟨o, others, opened, same, matched⟩ := exists_opened nested
          have left : w.note (.closing shape) = others := by rw [note, opened, List.tail_cons]
          rw [left]
          cases o with
          | round images settings =>
              cases same
              exact ⟨(holds.closeRound opened passes sound).1, matched⟩
          | curly settings =>
              cases same
              exact ⟨(holds.closeCurly opened passes sound).1, matched⟩

end Brackets

end Walk

/-! ## Whole runs -/

section Runs

variable {engine} {steps : List Step} {s : Session σ} {n : Nat}

theorem walk_succ
    {step : Step}
    (next : steps[n]? = some step) :
    walk engine steps s (n + 1) = (walk engine steps s n).step engine step := by
  rw [walk, List.take_add_one, next, List.foldl_append]
  rfl

theorem drop_of_getElem?
    {step : Step}
    (next : steps[n]? = some step) :
    steps.drop n = step :: steps.drop (n + 1) := by
  obtain ⟨inside, rfl⟩ := List.getElem?_eq_some_iff.mp next
  exact List.drop_eq_getElem_cons inside

/-- Between any two steps both stacks hold what the open brackets put aside, and the steps to come
match them. -/
theorem walk_holds
    (sound : s.Sound)
    (scopes : s.scopes.frames = [])
    (saved : s.saved.frames = [])
    (nested : WellNested [] steps)
    (shallow : ∀ m ≤ steps.length, (walk engine steps s m).Shallow)
    (apart : ∀ m, steps[m]? = some (.bracket (.opening .round)) →
      (walk engine steps s m).session.OpensApart)
    (within : n ≤ steps.length) :
    (walk engine steps s n).Holds ∧
      WellNested ((walk engine steps s n).opened.map Opened.shape) (steps.drop n) := by
  -- What is left of the steps has to match the open brackets, or the next step could be refused.
  induction n with
  | zero =>
      exact ⟨⟨sound, scopes, saved, trivial⟩, nested⟩
  | succ n inductionHypothesis =>
      obtain ⟨holds, rest⟩ := inductionHypothesis (Nat.le_of_succ_le within)
      have next : steps[n]? = some steps[n] := List.getElem?_eq_getElem within
      rw [drop_of_getElem? next] at rest
      have bounded := shallow (n + 1) within
      rw [walk_succ next] at bounded ⊢
      refine holds.step rest bounded ?_
      intro round
      exact apart n (round ▸ next)

/-- A bracket that comes next is accepted, and leads to the walk one step on. -/
theorem walk_passes
    {b : Bracket}
    (next : steps[n]? = some (.bracket b))
    (holds : (walk engine steps s n).Holds)
    (nested : WellNested ((walk engine steps s n).opened.map Opened.shape) (steps.drop n))
    (shallow : (walk engine steps s (n + 1)).Shallow) :
    ∃ s', (walk engine steps s n).session.Passes b s' ∧ s'.Sound ∧
      walk engine steps s (n + 1) = ⟨s', (walk engine steps s n).note b⟩ := by
  rw [drop_of_getElem? next] at nested
  rw [walk_succ next] at shallow ⊢
  exact holds.passes nested shallow

/-- The bracket that closes next finds its opening one innermost. -/
theorem walk_exists_opened
    {shape : BracketShape}
    (next : steps[n]? = some (.bracket (.closing shape)))
    (nested : WellNested ((walk engine steps s n).opened.map Opened.shape) (steps.drop n)) :
    ∃ o others, (walk engine steps s n).opened = o :: others ∧ o.shape = shape := by
  rw [drop_of_getElem? next] at nested
  obtain ⟨o, others, opened, same, -⟩ := Walk.exists_opened nested
  exact ⟨o, others, opened, same⟩

end Runs

/-! ## The main result -/

/-- Brackets that match, nested within the limit of both stacks, unwind around any other calls when
every round bracket that opens without the settings stands apart from settings that ask for them.
-/
theorem matching_brackets_unwind
    {steps : List Step}
    {s : Session σ}
    (whole : s.images.Whole)
    (scopes : s.scopes = {})
    (saved : s.saved = {})
    (nested : WellNested [] steps)
    (shallow : ∀ n ≤ steps.length, (walk engine steps s n).Shallow)
    (apart : ∀ n, steps[n]? = some (.bracket (.opening .round)) →
      (walk engine steps s n).session.OpensApart) :
    Unwinds engine steps s := by
  have sound : s.Sound :=
    ⟨whole, by simp [scopes], scopes ▸ .initial, saved ▸ .initial⟩
  have between : ∀ n, n ≤ steps.length → (walk engine steps s n).Holds ∧
      WellNested ((walk engine steps s n).opened.map Opened.shape) (steps.drop n) := by
    intro n within
    exact walk_holds sound (by rw [scopes]) (by rw [saved]) nested shallow apart within
  have bracket : ∀ n b, steps[n]? = some (.bracket b) →
      ∃ s', (walk engine steps s n).session.Passes b s' ∧ s'.Sound ∧
        walk engine steps s (n + 1) = ⟨s', (walk engine steps s n).note b⟩ := by
    intro n b next
    obtain ⟨inside, -⟩ := List.getElem?_eq_some_iff.mp next
    obtain ⟨holds, rest⟩ := between n (Nat.le_of_lt inside)
    exact walk_passes next holds rest (shallow (n + 1) inside)
  constructor
  case accepted =>
    intro n b next
    obtain ⟨s', passes, -, after⟩ := bracket n b next
    rw [after]
    exact passes.log_eq
  case ended =>
    obtain ⟨holds, none⟩ := between steps.length (Nat.le_refl _)
    rw [List.drop_length] at none
    have opened : (walk engine steps s steps.length).opened = [] := List.map_eq_nil_iff.mp none
    obtain ⟨scopes, saved, -⟩ := holds.of_opened opened
    exact ⟨List.isEmpty_iff.mpr scopes, List.isEmpty_iff.mpr saved⟩
  case round =>
    intro n next
    obtain ⟨inside, -⟩ := List.getElem?_eq_some_iff.mp next
    obtain ⟨holds, rest⟩ := between n (Nat.le_of_lt inside)
    obtain ⟨s', passes, sound, after⟩ := bracket n _ next
    obtain ⟨o, others, opened, same⟩ := walk_exists_opened next rest
    cases o with
    | curly settings => cases same
    | round outer settings =>
        refine ⟨outer, settings, others, opened, ?_⟩
        rw [after, (holds.closeRound opened passes sound).2]
        exact holds.append_toList opened
  case curly =>
    intro n next
    obtain ⟨inside, -⟩ := List.getElem?_eq_some_iff.mp next
    obtain ⟨holds, rest⟩ := between n (Nat.le_of_lt inside)
    obtain ⟨s', passes, sound, after⟩ := bracket n _ next
    obtain ⟨o, others, opened, same⟩ := walk_exists_opened next rest
    cases o with
    | round images settings => cases same
    | curly settings =>
        refine ⟨settings, others, opened, ?_⟩
        rw [after]
        exact (holds.closeCurly opened passes sound).2

/-- Round brackets, first on their own and then with the settings, around a clone and a change of
the settings in curly brackets. -/
theorem brackets_unwind_around_clone :
    let s : Session Nat := { images := .ofList [default], world := 0 }
    let steps : List Step :=
      [.bracket (.opening .round), .call (.special "-clone" (some "0")) (clone_noBracket _),
        .call (.setting "-respect-parenthesis" none) trivial, .bracket (.opening .round),
        .bracket (.opening .curly), .call (.setting "+respect-parenthesis" none) trivial,
        .bracket (.closing .curly), .bracket (.closing .round), .bracket (.closing .round)]
    s.images.Whole ∧ WellNested [] steps ∧
      (∀ n ≤ steps.length, (walk parting steps s n).Shallow) ∧
      (∀ n, steps[n]? = some (.bracket (.opening .round)) →
        (walk parting steps s n).session.OpensApart) ∧
      Unwinds parting steps s ∧
      (walk parting steps s steps.length).session.images.toList.length = 2 := by
  intro s steps
  have whole : s.images.Whole := .ofList _
  have nested : WellNested [] steps := ⟨_, rfl, _, rfl, _, rfl, rfl⟩
  have shallow : ∀ n ≤ steps.length, (walk parting steps s n).Shallow := by decide
  have apart : ∀ n, steps[n]? = some (.bracket (.opening .round)) →
      (walk parting steps s n).session.OpensApart := by
    intro n opens
    match n with
    | 0 => exact fun _ settings mem => nomatch mem
    | 3 =>
      have coupled : (walk parting steps s 3).session.settings.image.respectsBrackets = true := by
        decide
      exact fun loose => absurd coupled (by simp [loose])
    | 1 | 2 | 4 | 5 | 6 | 7 | 8 => cases opens
    | n + 9 => cases opens
  exact ⟨whole, nested, shallow, apart,
    matching_brackets_unwind parting whole rfl rfl nested shallow apart, by decide⟩

/-- Without standing apart, whatever comes inside, a closing round bracket brings back the settings
of a bracket around it. -/
theorem closing_takes_settings_around
    {s opened inside closed : Session σ}
    {settings : ImageSettings}
    {saved : List ImageSettings}
    (around : s.saved.frames = settings :: saved)
    (asks : settings.respectsBrackets = true)
    (loose : s.settings.image.respectsBrackets = false)
    (opens : s.Passes (.opening .round) opened)
    (same : opened.SameBrackets inside)
    (closes : inside.Passes (.closing .round) closed) :
    closed.saved.frames = saved ∧ closed.settings = .rebuilt settings := by
  have kept : opened.saved = s.saved := by
    cases opens with
    | openRound _ => rfl
    | openBoth coupled => exact absurd coupled (by simp [loose])
  have frames : inside.saved.frames = settings :: saved := by rw [same.saved, kept, around]
  cases closes with
  | closeRound _ apart =>
      have silent := apart settings (by rw [Nesting.top?, frames]; rfl)
      exact absurd asks (by simp [silent])
  | closeBoth _ savedFrames _ =>
      obtain ⟨rfl, rfl⟩ := List.cons.inj (savedFrames.symm.trans frames)
      exact ⟨rfl, rfl⟩

/-- Round brackets that do not stand apart leave nothing to close for the curly brackets around
them. -/
theorem loose_bracket_takes_enclosing_settings :
    let s : Session Nat := { world := 0 }
    let steps : List Step :=
      [.call (.setting "-respect-parenthesis" none) trivial, .bracket (.opening .curly),
        .call (.setting "+respect-parenthesis" none) trivial, .bracket (.opening .round),
        .bracket (.closing .round), .bracket (.closing .curly)]
    s.images.Whole ∧ s.scopes = {} ∧ s.saved = {} ∧ WellNested [] steps ∧
      (∀ n ≤ steps.length, (walk parting steps s n).Shallow) ∧
      ¬ Unwinds parting steps s := by
  intro s steps
  refine ⟨.empty, rfl, rfl, ⟨_, rfl, _, rfl, rfl⟩, by decide, ?_⟩
  intro unwinds
  have accepted := unwinds.accepted 5 (.closing .curly) rfl
  have refused : (walk parting steps s 6).session.log.incidents =
      [⟨.error, .unbalanced, "\x7d"⟩] := by decide
  rw [accepted] at refused
  have silent : (walk parting steps s 5).session.log.incidents = [] := by decide
  rw [silent] at refused
  cases refused

end Session
end Darkroom

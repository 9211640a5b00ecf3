import Darkroom.Proofs.Operators.Setting
import Darkroom.Proofs.Session.Brackets
import Darkroom.Proofs.Session.Failure

/-!
# Settings are rebuilt as they were

A part of the settings is in step as long as the setting that set it last left it in step.  So after
any settings on a fresh session the settings for drawing and for reducing colors are what they would
be rebuilt as, and curly brackets around nothing change nothing, as long as no part was set last by
a setting that keeps no text of its value or a text that is read in another way.
-/

namespace Darkroom

open Settings (Part Reaches)

namespace SettingOption

variable {s : Settings} {inv : Invocation} {p : Part}

/-! ## Settings one after the other -/

/-- The settings that a setting makes, if it makes any. -/
def accepted? (s : Settings) (inv : Invocation) : Option Settings :=
  (named? inv.name).bind fun setting =>
    match setting s inv with
    | .ok (.set s') => some s'
    | _ => none

/-- The settings after a setting, accepted or not. -/
def next (s : Settings) (inv : Invocation) : Settings :=
  (accepted? s inv).getD s

/-- The settings that are accepted, of some that follow one another. -/
def accepted : Settings → List Invocation → List Invocation
  | _, [] => []
  | s, inv :: rest =>
      if (accepted? s inv).isSome then inv :: accepted (next s inv) rest
      else accepted (next s inv) rest

/-- The setting that set a part last. -/
def setter? (p : Part) (s : Settings) (invs : List Invocation) : Option Invocation :=
  (accepted s invs).reverse.find? fun inv => inv.part? = some p

theorem setter?_cons
    (p : Part)
    (s : Settings)
    (inv : Invocation)
    (rest : List Invocation) :
    setter? p s (inv :: rest) =
      (setter? p (next s inv) rest).or
        (if (accepted? s inv).isSome ∧ inv.part? = some p then some inv else none) := by
  unfold setter?
  rw [accepted]
  by_cases isAccepted : (accepted? s inv).isSome <;> by_cases own : inv.part? = some p <;>
    simp [isAccepted, own]

theorem accepted?_eq_some
    {s' : Settings}
    (accepted : accepted? s inv = some s') :
    ∃ setting, named? inv.name = some setting ∧ setting s inv = .ok (.set s') := by
  unfold accepted? at accepted
  cases named : named? inv.name with
  | none =>
      rw [named] at accepted
      cases accepted
  | some setting =>
      rw [named, Option.bind_some] at accepted
      split at accepted
      · next made decided =>
        cases accepted
        exact ⟨setting, rfl, decided⟩
      · cases accepted

/-- A setting reaches its own part at most, accepted or not. -/
theorem reaches_next
    (s : Settings)
    (inv : Invocation) :
    Reaches inv.part? s (next s inv) := by
  unfold next
  cases accepted : accepted? s inv with
  | none => exact .refl _ s
  | some s' =>
      obtain ⟨setting, named, decided⟩ := accepted?_eq_some accepted
      exact named?_touches named s _ decided

/-- A setting that is not loose leaves its own part in step when it is accepted. -/
theorem inStep_next
    (accepted : (accepted? s inv).isSome)
    (own : inv.part? = some p)
    (firm : inv.isLoose = false) :
    p.InStep (next s inv) := by
  obtain ⟨s', made⟩ := Option.isSome_iff_exists.mp accepted
  obtain ⟨setting, named, decided⟩ := accepted?_eq_some made
  rw [next, made, Option.getD_some]
  exact named?_settles named own firm s _ decided

theorem steady_foldl
    (steady : s.Steady)
    (invs : List Invocation) :
    (invs.foldl next s).Steady := by
  induction invs generalizing s with
  | nil => exact steady
  | cons inv rest inductionHypothesis =>
      exact inductionHypothesis ((reaches_next s inv).steady steady)

/-- A part is in step after settings if the one that set it last is not loose.  A part that none of
them set has to be in step before. -/
theorem inStep_foldl
    (invs : List Invocation)
    (unset : setter? p s invs = none → p.InStep s)
    (firm : ∀ inv ∈ setter? p s invs, inv.isLoose = false) :
    p.InStep (invs.foldl next s) := by
  -- A part may be out of step for a while: its last setting counts, and what follows spares it.
  induction invs generalizing s with
  | nil => exact unset rfl
  | cons inv rest inductionHypothesis =>
      refine inductionHypothesis (fun later => ?_) fun inv' set => firm inv' ?_
      · rw [setter?_cons, later, Option.none_or] at unset firm
        split at firm
        · next own => exact inStep_next own.1 own.2 (firm inv rfl)
        · next other =>
          rw [if_neg other] at unset
          by_cases accepted : (accepted? s inv).isSome
          · exact (reaches_next s inv).others p (fun own => other ⟨accepted, own⟩) (unset rfl)
          · rw [next, Option.not_isSome_iff_eq_none.mp accepted]
            exact unset rfl
      · rw [setter?_cons, Option.mem_def.mp set]
        rfl

end SettingOption

namespace Session

variable {σ : Type} (engine : Engine σ)

/-! ## Settings on a session -/

/-- A setting that names no pattern makes of the settings what it makes of them by itself. -/
theorem applySetting_settings
    {option : String}
    {first? : Option String}
    (noPattern : (Invocation.of option first? none).namesPattern = false)
    (s : Session σ) :
    (s.applySetting engine option first?).2.settings =
      SettingOption.next s.settings (Invocation.of option first? none) := by
  rw [applySetting_eq, SettingOption.next, SettingOption.accepted?]
  dsimp only
  cases named : SettingOption.named? (Invocation.of option first? none).name with
  | none => rfl
  | some setting =>
      rw [Option.bind_some]
      refine (settle_settings _ _).trans ?_
      unfold actOnSetting
      cases decided : setting s.settings (Invocation.of option first? none) with
      | error fault => rfl
      | ok plan =>
          cases plan with
          | set settings => rfl
          | limits memory map => rfl
          | pattern path install =>
              have pattern := SettingOption.named?_touches named s.settings _ decided
              cases pattern.symm.trans noPattern

theorem callAll_settings
    {options : List (String × Option String)}
    (noPattern : ∀ o ∈ options, (Invocation.of o.1 o.2 none).namesPattern = false)
    (s : Session σ) :
    (s.callAll engine (options.map fun o => .setting o.1 o.2)).settings =
      (options.map fun o => Invocation.of o.1 o.2 none).foldl SettingOption.next s.settings := by
  induction options generalizing s with
  | nil => rfl
  | cons o rest inductionHypothesis =>
      obtain ⟨first, others⟩ := List.forall_mem_cons.mp noPattern
      have applied := applySetting_settings engine first s
      refine (inductionHypothesis others (s.applySetting engine o.1 o.2).2).trans ?_
      rw [applied]
      rfl

/-- Settings put nothing aside. -/
theorem callAll_saved
    (options : List (String × Option String))
    (s : Session σ) :
    (s.callAll engine (options.map fun o => .setting o.1 o.2)).saved = s.saved := by
  induction options generalizing s with
  | nil => rfl
  | cons o rest inductionHypothesis =>
      exact (inductionHypothesis _).trans (applySetting_sameLists engine o.1 o.2 s).saved

/-! ## Curly brackets around nothing -/

/-- Curly brackets around nothing rebuild the settings and leave all else alone. -/
theorem callAll_curly
    {s : Session σ}
    (room : ¬ s.saved.isFull) :
    s.callAll engine [.special "\x7b" none, .special "\x7d" none] =
      { s with settings := .rebuilt s.settings.image } := by
  obtain ⟨inside, opened, openedBy⟩ := applySpecial_passes engine (b := .opening .curly) room none
  cases opened
  obtain ⟨after, closed, closedBy⟩ :=
    applySpecial_passes engine (b := .closing .curly)
      (s := { s with saved.frames := s.settings.image :: s.saved.frames }) nofun none
  cases closed with
  | closeCurly savedFrames =>
      cases savedFrames
      have started : (s.call engine (.special "\x7b" none)).2 = _ := congrArg Prod.snd openedBy
      rw [callAll, List.foldl_cons, started]
      exact congrArg Prod.snd closedBy

/-- After settings on a fresh session that name no pattern, the settings for drawing and for
reducing colors are what they would be rebuilt as, and curly brackets around nothing change nothing,
as long as no part was set last by a setting that is loose. -/
theorem empty_brackets_change_nothing
    {options : List (String × Option String)}
    (noPattern : ∀ o ∈ options, (Invocation.of o.1 o.2 none).namesPattern = false)
    (firm : ∀ p : Part, ∀ inv ∈ SettingOption.setter? p Settings.initial
      (options.map fun o => Invocation.of o.1 o.2 none), inv.isLoose = false)
    (world : σ) :
    let s := callAll engine (options.map fun o => .setting o.1 o.2) { world }
    s.settings.drawing = .ofImageSettings s.settings.image ∧
      s.settings.quantizing = .ofImageSettings s.settings.image ∧
      s.callAll engine [.special "\x7b" none, .special "\x7d" none] = s := by
  intro s
  let invs := options.map fun o => Invocation.of o.1 o.2 none
  have reached : s.settings = invs.foldl SettingOption.next Settings.initial :=
    callAll_settings engine noPattern { world }
  obtain ⟨steady, inStep⟩ := Settings.eq_rebuilt_iff.mp (rfl : Settings.initial = .rebuilt {})
  have again : s.settings = .rebuilt s.settings.image := by
    rw [reached]
    exact Settings.eq_rebuilt_iff.mpr ⟨SettingOption.steady_foldl steady invs,
      fun p => SettingOption.inStep_foldl invs (fun _ => inStep p) (firm p)⟩
  refine ⟨congrArg Settings.drawing again, congrArg Settings.quantizing again, ?_⟩
  have saved : s.saved = {} := callAll_saved engine options { world }
  rw [callAll_curly engine (by rw [saved]; nofun), ← again]

/-- Text is hidden and shown again, and a relative weight is followed by a fixed one. -/
theorem last_settings_survive_brackets :
    let options : List (String × Option String) :=
      [("+render", none), ("-weight", some "bolder"), ("-fill", some "red"),
        ("-weight", some "bold"), ("-render", none)]
    let invs := options.map fun o => Invocation.of o.1 o.2 none
    let s : Session Nat :=
      callAll parting (options.map fun o => .setting o.1 o.2) { world := 0 }
    (∀ o ∈ options, (Invocation.of o.1 o.2 none).namesPattern = false) ∧
      (∀ p : Part, ∀ inv ∈ SettingOption.setter? p Settings.initial invs, inv.isLoose = false) ∧
      s.callAll parting [.special "\x7b" none, .special "\x7d" none] = s ∧
      (s.settings.drawing.render, s.settings.drawing.weight) = (true, 700) := by
  intro options invs s
  have noPattern : ∀ o ∈ options, (Invocation.of o.1 o.2 none).namesPattern = false := by
    decide
  have firm : ∀ p : Part, ∀ inv ∈ SettingOption.setter? p Settings.initial invs,
      inv.isLoose = false := by
    have all : SettingOption.accepted Settings.initial invs = invs := by decide
    intro p
    rw [SettingOption.setter?, all]
    cases p <;> decide
  have rebuilt := empty_brackets_change_nothing parting noPattern firm 0
  exact ⟨noPattern, firm, rebuilt.2.2, rfl⟩

/-- Whether text is drawn is not kept as a text: after curly brackets around nothing, it is drawn
again. -/
theorem render_comes_back :
    let inv := Invocation.of "+render" none none
    let s : Session Nat := callAll parting [.setting "+render" none] { world := 0 }
    let after := s.callAll parting [.special "\x7b" none, .special "\x7d" none]
    inv.namesPattern = false ∧ s.settings.drawing.render = false ∧
      after.settings.drawing.render = true ∧
      s.settings.drawing ≠ .ofImageSettings s.settings.image := by
  intro inv s after
  have hidden : s.settings.drawing.render = false := rfl
  refine ⟨rfl, hidden, rfl, fun same => ?_⟩
  have drawn : s.settings.drawing.render = true := congrArg DrawingSettings.render same
  cases hidden.symm.trans drawn

end Session
end Darkroom

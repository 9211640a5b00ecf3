import Darkroom.Proofs.Geometry.Scenes
import Darkroom.Proofs.Reel.Rearrangement
import Darkroom.Proofs.Session.Invariant

/-!
# Clones

A clone copies images of the list put aside last to the end of the list that options act on.  Three
things can be wrong with it, and they are looked at in this order: the text is no list of scenes, no
images were put aside, or the list put aside does not have all the scenes.  Then nothing changes but
for the report.
-/

namespace Darkroom
namespace Session

variable {σ : Type} {s : Session σ} {scenes : String}

/-- The text has digits, signs, commas and spaces only, and at least one of them. -/
def NamesScenes (scenes : String) : Prop :=
  scenes.toList ≠ [] ∧ ∀ c ∈ scenes.toList, c.isDigit ∨ c = '-' ∨ c = ',' ∨ c = ' '

/-- No list was put aside, or the one put aside last is empty. -/
def EnclosesNothing (s : Session σ) : Prop :=
  ∀ outer, s.scopes.top? = some outer → outer.isEmpty = true

/-! ## What is looked at in turn -/

theorem cloneScenes_of_malformed
    (malformed : ¬ NamesScenes scenes) :
    s.cloneScenes scenes = .error (.invalidArgument scenes) := by
  rw [NamesScenes, ← Scenes.isList_iff, Bool.not_eq_true] at malformed
  rw [cloneScenes, malformed]
  rfl

theorem cloneScenes_of_nothing
    (named : NamesScenes scenes)
    (nothing : s.EnclosesNothing) :
    s.cloneScenes scenes = .error .uncloneable := by
  have noOuter : (s.scopes.top?.filter fun outer => !outer.isEmpty) = none := by
    rw [Option.filter_eq_none_iff]
    exact fun outer top => by simp [nothing outer top]
  rw [cloneScenes, Scenes.isList_iff.mpr named, noOuter]
  rfl

/-- With images put aside, the scenes decide. -/
theorem cloneScenes_of_outer
    (named : NamesScenes scenes)
    {outer : Reel Image}
    (top : s.scopes.top? = some outer)
    (nonempty : outer.isEmpty = false) :
    s.cloneScenes scenes =
      match (Scenes.parse scenes outer.length).toOption.bind outer.copies? with
      | some copies => .ok { s with images := s.images.extend copies }
      | none => .error (.noSuchImage scenes) := by
  rw [cloneScenes, Scenes.isList_iff.mpr named, top, Option.filter_some, nonempty]
  rfl

theorem cloneScenes_mild
    {fault : Fault}
    (failed : s.cloneScenes scenes = .error fault) :
    fault.isFatal = false := by
  unfold cloneScenes at failed
  split at failed
  · obtain rfl := Except.error.inj failed
    rfl
  · split at failed
    · obtain rfl := Except.error.inj failed
      rfl
    · split at failed
      · cases failed
      · obtain rfl := Except.error.inj failed
        rfl

/-! ## Clones as options -/

variable (engine : Engine σ)

/-- A clone is done, or what is wrong with it is reported. -/
theorem applySpecial_clone
    (first? : Option String)
    {option : String}
    (applied : option = "-clone" ∧ first? = some scenes ∨ option = "+clone" ∧ scenes = "-1")
    (s : Session σ) :
    s.applySpecial engine option first? =
      match s.cloneScenes scenes with
      | .ok after => (none, after)
      | .error fault => (none, s.report fault option) := by
  have settled : s.applySpecial engine option first? =
      settle (Invocation.of option first? none)
        (match s.cloneScenes scenes with
          | .ok after => (.ok (), after)
          | .error fault => (.error fault, s)) := by
    rcases applied with ⟨rfl, rfl⟩ | ⟨rfl, rfl⟩ <;> rfl
  rw [settled]
  cases cloned : s.cloneScenes scenes with
  | ok after => rfl
  | error fault =>
      refine Prod.ext (if_neg ?_) rfl
      simp [cloneScenes_mild cloned]

/-- A text that is no list of scenes is reported whatever there is to clone from, a list of scenes
is reported when there is nothing to clone from, and else one that does not parse for the list put
aside last.  Otherwise copies of its images at the positions, in the order of the positions, are put
at the end of the list, and nothing else changes.  Taken back, a clone is one of the last image. -/
theorem clone_is_exact
    (sound : s.Sound)
    (scenes : String) :
    let ended := s.applySpecial engine "-clone" (some scenes)
    (¬ NamesScenes scenes →
        ended = (none, s.report (.invalidArgument scenes) "-clone")) ∧
      (NamesScenes scenes → s.EnclosesNothing →
        ended = (none, s.report .uncloneable "-clone")) ∧
      (NamesScenes scenes → ∀ outer, s.scopes.top? = some outer → outer.isEmpty = false →
        (∀ refusal, Scenes.parse scenes outer.length = .error refusal →
          ended = (none, s.report (.noSuchImage scenes) "-clone")) ∧
        ∀ positions, Scenes.parse scenes outer.length = .ok positions →
          ∃ copies, copies.map some = positions.map (outer.toList[·]?) ∧
            ended = (none, { s with images := ended.2.images }) ∧
            ended.2.images.Whole ∧
            ended.2.images.toList = s.images.toList ++ copies) ∧
      ∀ first?,
        let last := s.applySpecial engine "-clone" (some "-1")
        let takenBack := s.applySpecial engine "+clone" first?
        (∃ after, last = (none, after) ∧ takenBack = (none, after)) ∨
          ∃ fault, last = (none, s.report fault "-clone") ∧
            takenBack = (none, s.report fault "+clone") := by
  intro ended
  have applied : ended = _ := applySpecial_clone engine (some scenes) (.inl ⟨rfl, rfl⟩) s
  refine ⟨fun malformed => ?_, fun named nothing => ?_, fun named outer top nonempty => ?_,
    fun first? => ?_⟩
  · rw [applied, cloneScenes_of_malformed malformed]
  · rw [applied, cloneScenes_of_nothing named nothing]
  · have decided := cloneScenes_of_outer named top nonempty
    constructor
    · intro refusal refused
      rw [refused] at decided
      rw [applied, decided]
      rfl
    · intro positions parsed
      have frames : outer ∈ s.scopes.frames := List.mem_of_mem_head? top
      have outerWhole := sound.scopes outer frames
      obtain ⟨copies, copied⟩ := outerWhole.exists_copies (Scenes.lt_of_mem_parse parsed)
      rw [parsed, show (Except.ok positions : Except GeometryError _).toOption.bind outer.copies? =
        some copies from copied] at decided
      rw [decided] at applied
      have images : ended.2.images = s.images.extend copies := by rw [applied]
      refine ⟨copies, outerWhole.copies?_eq_some_iff.mp copied, ?_, ?_, ?_⟩
      · rw [images, applied]
      · rw [images]
        exact sound.images.extend copies
      · rw [images, sound.images.extend_toList]
  · have last := applySpecial_clone engine (some "-1") (.inl ⟨rfl, rfl⟩) s
    have takenBack := applySpecial_clone engine first? (.inr ⟨rfl, rfl⟩) s
    dsimp only
    rw [last, takenBack]
    cases s.cloneScenes "-1" with
    | ok after => exact .inl ⟨after, rfl, rfl⟩
    | error fault => exact .inr ⟨fault, rfl, rfl⟩

/-- Scenes in both directions, from the end and twice over are cloned as they are named; a text with
a letter and a scene that is not there are reported. -/
theorem clone_of_repeated_scenes :
    let named (name : String) : Image := { (default : Image) with filename := name }
    let outer := Reel.ofList [named "a", named "b", named "c"]
    let s : Session Nat :=
      { images := .ofList [named "x"], scopes := { frames := [outer] }, world := 0 }
    let cloned (scenes : String) := s.applySpecial parting "-clone" (some scenes)
    s.Sound ∧ NamesScenes "2-0, -1" ∧ NamesScenes "0,3" ∧ ¬ NamesScenes "0x" ∧
      s.scopes.top? = some outer ∧ outer.isEmpty = false ∧
      Scenes.parse "2-0, -1" outer.length = .ok [2, 1, 0, 2] ∧
      Scenes.parse "0,3" outer.length = .error (.scenes "0,3") ∧
      (cloned "2-0, -1").2.images.toList.map Image.filename = ["x", "c", "b", "a", "c"] ∧
      cloned "0,3" = (none, s.report (.noSuchImage "0,3") "-clone") ∧
      cloned "0x" = (none, s.report (.invalidArgument "0x") "-clone") := by
  intro named outer s cloned
  have sound : s.Sound :=
    ⟨.ofList _, List.forall_mem_singleton.mpr (.ofList _), ⟨rfl, by decide⟩, .initial⟩
  have wellNamed : NamesScenes "2-0, -1" ∧ NamesScenes "0,3" ∧ ¬ NamesScenes "0x" := by
    simp only [NamesScenes, ← Scenes.isList_iff]
    decide
  have parsed : Scenes.parse "2-0, -1" outer.length = .ok [2, 1, 0, 2] := by decide
  have refused : Scenes.parse "0,3" outer.length = .error (.scenes "0,3") := by decide
  obtain ⟨copies, copied, -, -, images⟩ :=
    ((clone_is_exact parting sound "2-0, -1").2.2.1 wellNamed.1 outer rfl rfl).2 _ parsed
  have missing :=
    ((clone_is_exact parting sound "0,3").2.2.1 wellNamed.2.1 outer rfl rfl).1 _ refused
  have malformed := (clone_is_exact parting sound "0x").1 wellNamed.2.2
  obtain rfl : copies = [named "c", named "b", named "a", named "c"] :=
    List.map_injective_iff.mpr (Option.some_injective _) (copied.trans (by rfl))
  exact ⟨sound, wellNamed.1, wellNamed.2.1, wellNamed.2.2, rfl, rfl, parsed, refused,
    by rw [images]; rfl, missing, malformed⟩

end Session
end Darkroom

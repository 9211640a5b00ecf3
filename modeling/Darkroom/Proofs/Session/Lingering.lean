import Darkroom.Proofs.Session.Moments
import Darkroom.Proofs.Session.Placement

/-!
# Settings that linger on images

When an operator begins, its images take on the gravity and the compose operator that are set.  What
is not set is left as it is on the images, and nothing else writes these attributes.  So once a
gravity is taken back, an image may still have it from an operator that worked before, and copies of
the image and images made of it have it too.

The gravity that an operator sees when none is set is therefore the initial one, or one that was set
while an operator worked before; and so is the compose operator.
-/

namespace Darkroom
namespace Session

/-! ## Where attributes come from -/

/-- Where the value of an attribute can come from: it is the initial one, or that of an image there
was, or it was set under the key of the attribute when an operator saw an image. -/
def ComesFrom {κ : Type} [Keyword κ] [Inhabited κ] (field : Image → κ) (key : String)
    (held : List Image) (seen : List Sight) (value : κ) : Prop :=
  value = default ∨ (∃ image ∈ held, field image = value) ∨
    ∃ sight ∈ seen, sight.settings.keyword? κ key = some value

namespace ComesFrom

variable {κ : Type} [Keyword κ] [Inhabited κ] {field : Image → κ} {key : String}
  {held : List Image} {seen : List Sight} {value : κ}

theorem mono
    {seen' : List Sight}
    (comes : ComesFrom field key held seen value)
    (more : seen ⊆ seen') :
    ComesFrom field key held seen' value := by
  obtain initial | there | ⟨sight, mem, set⟩ := comes
  · exact .inl initial
  · exact .inr (.inl there)
  · exact .inr (.inr ⟨sight, more mem, set⟩)

/-- What an operator saw has the value that was set, or the one it had before. -/
theorem getD
    (comes : ComesFrom field key held seen value)
    {sight : Sight}
    (mem : sight ∈ seen) :
    ComesFrom field key held seen ((sight.settings.keyword? κ key).getD value) := by
  cases set : sight.settings.keyword? κ key with
  | none => exact comes
  | some new => exact .inr (.inr ⟨sight, mem, set⟩)

end ComesFrom

/-- Both attributes of a placement can be accounted for. -/
structure Accounted (held : List Image) (seen : List Sight) (placement : Placement) : Prop where
  /-- The gravity. -/
  gravity : ComesFrom Image.gravity "gravity" held seen placement.gravity
  /-- The compose operator. -/
  compose : ComesFrom Image.compose "compose" held seen placement.compose

namespace Accounted

variable {held : List Image} {seen : List Sight} {placement : Placement}

theorem initial : Accounted held seen default :=
  ⟨.inl rfl, .inl rfl⟩

theorem of_held
    {image : Image}
    (mem : image ∈ held) :
    Accounted held seen image.placement :=
  ⟨.inr (.inl ⟨image, mem, rfl⟩), .inr (.inl ⟨image, mem, rfl⟩)⟩

theorem mono
    {seen' : List Sight}
    (accounted : Accounted held seen placement)
    (more : seen ⊆ seen') :
    Accounted held seen' placement :=
  ⟨accounted.gravity.mono more, accounted.compose.mono more⟩

theorem sync
    (accounted : Accounted held seen placement)
    {sight : Sight}
    (mem : sight ∈ seen) :
    Accounted held seen (sight.settings.syncPlacement placement) :=
  ⟨accounted.gravity.getD mem, accounted.compose.getD mem⟩

end Accounted

/-! ## Runs -/

section

variable {σ : Type} {engine : Engine σ} {s s' : Session σ} {held : List Image}
  {seen : List Sight}

/-- What operators see at a moment. -/
def Moment.sights (engine : Engine σ) (m : Moment σ) : List Sight :=
  m.before.sights engine m.call

/-- One option leaves images whose placements are accounted for by what was seen before and by what
its operator sees. -/
theorem Holding.step
    (hands : engine.HandsPlacementsOn)
    (m : Moment σ)
    (holding : m.before.Holding (Accounted held seen)) :
    (m.before.call engine m.call).2.Holding (Accounted held (seen ++ m.sights engine)) := by
  have wider : m.before.Holding (Accounted held (seen ++ m.sights engine)) :=
    holding.mono fun _ accounted => accounted.mono (List.subset_append_left _ _)
  refine wider.call hands .initial m.single fun sight mem => ?_
  obtain ⟨found, there, synced⟩ := sights_found engine holding.sound mem
  rw [synced, ImageSettings.sync_placement]
  exact (wider.images found there).sync (List.mem_append_right _ mem)

/-- A run leaves images whose placements are accounted for by what was seen before it and in it. -/
theorem Holding.linked
    (hands : engine.HandsPlacementsOn)
    {moments : List (Moment σ)}
    (linked : s.Linked engine moments s')
    (holding : s.Holding (Accounted held seen)) :
    s'.Holding (Accounted held (seen ++ moments.flatMap (Moment.sights engine))) := by
  induction moments generalizing s seen with
  | nil =>
      obtain ⟨log, caught, rfl⟩ : s.SameButReports s' := linked
      rw [List.flatMap_nil, List.append_nil]
      exact holding.sameLists ⟨rfl, rfl, rfl⟩
  | cons m rest inductionHypothesis =>
      obtain ⟨⟨log, caught, before⟩, linked⟩ := linked
      have holding : m.before.Holding (Accounted held seen) :=
        before ▸ holding.sameLists ⟨rfl, rfl, rfl⟩
      rw [List.flatMap_cons, ← List.append_assoc]
      exact inductionHypothesis linked (holding.step hands m)

end

/-- When no gravity is set, an operator sees every image with the gravity that it has in the list.
That is the initial one, that of an image there was at the beginning, or one that was set when an
earlier operator saw an image.  So it is with the compose operator. -/
theorem unset_placement_comes_from_before
    {s : Session Disk}
    (sound : s.Sound)
    (calls : List Call)
    {before later : List (Moment Disk)}
    {m : Moment Disk}
    (split : s.momentsAll .standard calls = before ++ m :: later) :
    ∀ sight ∈ m.sights .standard, ∃ found ∈ m.before.images.toList,
      sight.image = sight.settings.sync found ∧
      (sight.settings.option? "gravity" = none →
        sight.image.gravity = found.gravity ∧
          ComesFrom Image.gravity "gravity" s.gathered (before.flatMap (Moment.sights .standard))
            sight.image.gravity) ∧
      (sight.settings.option? "compose" = none →
        sight.image.compose = found.compose ∧
          ComesFrom Image.compose "compose" s.gathered (before.flatMap (Moment.sights .standard))
            sight.image.compose) := by
  intro sight mem
  have linked : s.Linked .standard (before ++ m :: later) (s.callAll .standard calls) :=
    split ▸ momentsAll_linked calls s
  have start : s.Holding (Accounted s.gathered []) := ⟨sound, fun image held => .of_held held⟩
  have holding := start.linked Engine.standard_handsPlacementsOn linked.upTo
  rw [List.nil_append] at holding
  obtain ⟨found, there, synced⟩ := sights_found .standard holding.sound mem
  have accounted := holding.images found there
  have placement : sight.image.placement = sight.settings.syncPlacement found.placement := by
    rw [synced, ImageSettings.sync_placement]
  refine ⟨found, there, synced, fun unset => ?_, fun unset => ?_⟩
  · have kept : sight.image.gravity = found.gravity :=
      (congrArg Placement.gravity placement).trans (ImageSettings.syncPlacement_gravity unset _)
    exact ⟨kept, kept ▸ accounted.gravity⟩
  · have kept : sight.image.compose = found.compose :=
      (congrArg Placement.compose placement).trans (ImageSettings.syncPlacement_compose unset _)
    exact ⟨kept, kept ▸ accounted.compose⟩

/-- A gravity is set, used, and taken back. -/
def gravityTakenBack : List Call :=
  [.special "read" (some "xc:red"), .setting "-gravity" (some "East"), .image "-flip" none none,
    .setting "+gravity" none, .image "-flip" none none]

/-- The image still has the gravity that was set for the operator before. -/
theorem gravity_comes_from_before :
    let s : Session Disk := { world := {} }
    s.Sound ∧
      ∃ before m, s.momentsAll .standard gravityTakenBack = before ++ m :: [] ∧
        (m.sights .standard).map (fun sight =>
            (sight.settings.option? "gravity", sight.image.gravity)) = [(none, .east)] ∧
        ∀ sight ∈ m.sights .standard, sight.settings.option? "gravity" = none →
          ComesFrom Image.gravity "gravity" s.gathered
            (before.flatMap (Moment.sights .standard)) sight.image.gravity := by
  intro s
  have sound : s.Sound := .initial _
  let opened (n : Nat) : Session Disk := s.callAll .standard (gravityTakenBack.take n)
  have split : s.momentsAll .standard gravityTakenBack =
      [⟨s, .special "read" (some "xc:red"), trivial⟩,
        ⟨opened 1, .setting "-gravity" (some "East"), trivial⟩,
        ⟨opened 2, .image "-flip" none none, trivial⟩,
        ⟨opened 3, .setting "+gravity" none, trivial⟩] ++
      ⟨opened 4, .image "-flip" none none, trivial⟩ :: [] := rfl
  refine ⟨sound, _, _, split, by decide, fun sight mem unset => ?_⟩
  obtain ⟨found, -, -, gravity, -⟩ :=
    unset_placement_comes_from_before sound gravityTakenBack split sight mem
  exact (gravity unset).2

/-- No gravity is set, and yet the operator sees one. -/
theorem gravity_outlives_its_option :
    let s : Session Disk := { world := {} }
    ¬ ∀ m ∈ s.momentsAll .standard gravityTakenBack, ∀ sight ∈ m.sights .standard,
      (sight.settings.option? "gravity" = none → sight.image.gravity = .undefined) ∧
        (sight.settings.option? "compose" = none → sight.image.compose = default) := by
  decide

end Session
end Darkroom

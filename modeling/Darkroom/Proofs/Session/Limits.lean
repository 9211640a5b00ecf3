import Darkroom.Proofs.Geometry.Amount
import Darkroom.Proofs.Session.Redrawing

/-!
# Limits listed and set again

The listing of resources writes every limit as the option for limits takes it.  Limits without a
loss in their texts are set again by the option with the texts of the listing, one by one or all in
one command line, in any session and with or without images.
-/

namespace Darkroom

/-- The words that set all limits to those of a listing. -/
def Limits.words (limits : Limits) : List String :=
  limits.toList.flatMap fun (resource, limit) => ["-limit", Keyword.name resource, limit.text]

namespace Session

variable {σ : Type} (engine : Engine σ)

/-! ## The options -/

/-- A limit is set to what a text is read as, and the images take up the settings. -/
theorem applyToList_limit
    (resource : Resource)
    {text : String}
    {limit : Limit}
    (read : Limit.parse? text = some limit)
    (s : Session σ) :
    s.applyToList engine "-limit" (some (Keyword.name resource)) (some text) =
      (none, { s.syncAll with limits := s.limits.set resource limit }) := by
  let inv := Invocation.of "-limit" (some (Keyword.name resource)) (some text)
  have named : ListOperator.named? inv.name = some .limit := rfl
  have spelled : Keyword.parse (Keyword.name resource) = .ok resource := by
    cases resource <;> rfl
  have keyword : inv.keyword Resource = .ok resource :=
    Invocation.keyword_of_parse (show inv.first? = some (Keyword.name resource) from rfl) spelled
  have amount : inv.second = .ok text := rfl
  have decided : ListOperator.limit (s.syncAll.view engine) s.syncAll.images inv =
      .ok (.limit resource limit) := by
    simp only [ListOperator.limit, keyword, amount, bind, Except.bind, read, Invocation.orInvalid]
  have needless : (s.images.isEmpty && inv.name != "limit") = false := Bool.and_false _
  rw [applyToList_eq]
  extract_lets
  rw [named]
  dsimp only
  rw [actOnList, needless, if_neg Bool.false_ne_true, decided]
  rfl

/-- The listing of resources is printed. -/
theorem applySpecial_listResources
    (s : Session σ) :
    s.applySpecial engine "-list" (some "resource") =
      (none, s.print (Listing.lines (Listing.limitLines s.limits))) :=
  rfl

/-! ## Command lines -/

theorem catchIncidents_limits
    (s : Session σ)
    (all : Bool) :
    (s.catchIncidents all).2.limits = s.limits := by
  unfold catchIncidents
  dsimp only
  split <;> rfl

theorem finish_limits
    (s : Session σ) :
    s.finish.limits = s.limits := by
  unfold finish
  split
  · rfl
  · exact catchIncidents_limits _ false

/-- The words of some limits set these, one after the other. -/
theorem runSteps_limits
    (entries : List (Resource × Limit))
    (isWhole : ∀ entry ∈ entries, entry.2.IsWhole)
    (s : Session σ) :
    let words := entries.flatMap fun (resource, limit) =>
      ["-limit", Keyword.name resource, limit.text]
    (s.run engine words).1 = none ∧
      (s.run engine words).2.limits =
        entries.foldl (fun limits (resource, limit) => limits.set resource limit) s.limits := by
  induction entries generalizing s with
  | nil => simp [finish_limits]
  | cons entry rest inductionHypothesis =>
      obtain ⟨resource, limit⟩ := entry
      have read := Limit.parse?_text (isWhole _ List.mem_cons_self)
      let after : Session σ := { s.syncAll with limits := s.limits.set resource limit }
      have performed : s.perform engine (.apply ⟨"limit", 2, 2, .list⟩ "-limit"
          [Keyword.name resource, limit.text]) = (none, after) :=
        applyToList_limit engine resource read s
      have step (words : List String) :
          CommandStep.next "-limit" (Keyword.name resource :: limit.text :: words) =
            (.apply ⟨"limit", 2, 2, .list⟩ "-limit" [Keyword.name resource, limit.text], words) :=
        rfl
      have others : ∀ entry ∈ rest, entry.2.IsWhole := fun entry mem =>
        isWhole entry (List.mem_cons_of_mem _ mem)
      have rest' := inductionHypothesis others (after.catchIncidents false).2
      rw [catchIncidents_limits] at rest'
      intro words
      rw [show words = "-limit" :: Keyword.name resource :: limit.text :: _ from rfl,
        run_eq_runSteps, CommandStep.parse_cons, step, runSteps_cons, performed]
      exact rest'

/-- When every limit is set anew nothing is left of the old ones. -/
theorem foldl_set_toList
    (limits before : Limits) :
    limits.toList.foldl (fun limits (resource, limit) => limits.set resource limit) before =
      limits := by
  have values : ∀ resource, (limits.toList.foldl
      (fun limits (resource, limit) => limits.set resource limit) before).limitOf resource =
        limits.limitOf resource := by
    intro resource
    cases resource <;> rfl
  generalize limits.toList.foldl _ before = after at values
  obtain ⟨limitOf⟩ := after
  exact congrArg Limits.mk (funext values)

/-- A limit that is not set or a whole amount of at most `2 ^ 53` is read back from its text.  So in
a listing of such limits every line names an amount that the option for limits takes for the limit
that is listed, and all of them together set the limits of the listing in any session. -/
theorem listed_limits_read_back :
    (∀ limit : Limit, limit.IsWhole → Limit.parse? limit.text = some limit) ∧
      ∀ {σ : Type} (engine : Engine σ) (listed : Session σ),
        (∀ resource, (listed.limits.limitOf resource).IsWhole) →
          listed.applySpecial engine "-list" (some "resource") =
              (none, listed.print (Listing.lines (Listing.limitLines listed.limits))) ∧
            (∀ line ∈ Listing.limitLines listed.limits, ∃ resource amount,
              line = Listing.padLeft 10 (Keyword.name resource) ++ ": " ++ amount ∧
                ∀ s : Session σ,
                  s.applyToList engine "-limit" (some (Keyword.name resource)) (some amount) =
                    (none, { s.syncAll with
                      limits := s.limits.set resource (listed.limits.limitOf resource) })) ∧
            ∀ s : Session σ, (s.run engine listed.limits.words).1 = none ∧
              (s.run engine listed.limits.words).2.limits = listed.limits := by
  refine ⟨fun limit => Limit.parse?_text, fun {σ} engine listed isWhole => ⟨?_, ?_, ?_⟩⟩
  · exact applySpecial_listResources engine listed
  · intro line mem
    obtain ⟨⟨resource, limit⟩, entry, rfl⟩ := List.mem_map.mp mem
    obtain ⟨_, -, same⟩ := List.mem_map.mp entry
    cases same
    have read := Limit.parse?_text (isWhole resource)
    exact ⟨resource, _, rfl, applyToList_limit engine resource read⟩
  · intro s
    have entries : ∀ entry ∈ listed.limits.toList, entry.2.IsWhole := by
      intro entry mem
      obtain ⟨resource, -, rfl⟩ := List.mem_map.mp mem
      exact isWhole resource
    obtain ⟨goesOn, limits⟩ := runSteps_limits engine listed.limits.toList entries s
    exact ⟨goesOn, limits.trans (foldl_set_toList listed.limits s.limits)⟩

/-- A limit of 256 mebibytes on memory is listed with the unit, and the words of the listing set it
again in a session without limits. -/
theorem mebibytes_of_memory_read_back :
    let limit : Limit := .amount 268435456.0
    let listed : Session Disk := { limits := Limits.none.set .memory limit, world := {} }
    limit.IsWhole ∧ limit.text = "256MiB" ∧ Limit.parse? "256MiB" = some limit ∧
      "    Memory: 256MiB" ∈ Listing.limitLines listed.limits ∧
      (({ world := {} } : Session Disk).run .standard listed.limits.words).2.limits =
        listed.limits := by
  intro limit listed
  have isWhole : limit.IsWhole :=
    .amount (by decide +kernel) ((Binary.le_iff_le _ _).mpr rfl) ((Binary.le_iff_le _ _).mpr rfl)
  have text : limit.text = "256MiB" := by decide
  have all : ∀ resource, (listed.limits.limitOf resource).IsWhole := by
    intro resource
    cases resource <;> first | exact isWhole | exact .unlimited
  refine ⟨isWhole, text, text ▸ listed_limits_read_back.1 limit isWhole, ?_,
    ((listed_limits_read_back.2 .standard listed all).2.2 _).2⟩
  decide

end Session
end Darkroom

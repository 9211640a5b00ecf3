import Darkroom.Engine.Standard
import Darkroom.Proofs.Disk
import Darkroom.Proofs.Session.Enclosing
import Darkroom.Proofs.Session.Failure
import Darkroom.Proofs.Session.Moments
import Darkroom.Proofs.Table

/-!
# The cache follows the files

An image that is named by the path of a file is read once and then comes from the cache.  That is
right as long as the file is what it was when it was read.  Only writes change files, and a write
drops the path it is given from the cache.  So the cache is right if a write changes no other file
that was read: none that was read under another spelling, and none under a number.
-/

namespace Darkroom

namespace ImageCache

variable {α : Type} (cache : ImageCache α)

theorem get?_store
    (path other : String)
    (frame : α)
    (frames : List α) :
    (cache.store path (frame :: frames)).get? other =
      if other = path then some frame else cache.get? other :=
  Table.lookup_cons_eq other path frame cache.entries

theorem get?_evict
    (path other : String) :
    (cache.evict path).2.get? other = if other = path then none else cache.get? other :=
  Table.get?_erase ⟨cache.entries⟩ path other

end ImageCache

namespace Session

variable {disk : Disk} {s s' : Session Disk}

/-! ## What is right for a cache -/

/-- The image that a path gives when it is read. -/
def readDirectly (path : String) (s : Session Disk) : Except Fault Image :=
  match ImageFiles.read (s.readRequest path false) s.world with
  | .error refusal => .error (refusal.toReadFault path)
  | .ok [] => .error (.unreadable path "no images")
  | .ok (image :: _) => .ok image

/-- The cache is right in a session that began with a disk. -/
structure Fresh (disk : Disk) (s : Session Disk) : Prop where
  /-- No directory was made or removed. -/
  directories : disk.SameDirectories s.world
  /-- Every image cached under the path of a file is the first image of the file. -/
  cached : ∀ path image, s.cache.get? path = some image → ImageFiles.makesUp path = false →
    disk.isDirectory path = false →
    ∃ content rest, s.world.read path = .ok content ∧
      ImageFiles.ofContent path content = .ok (image :: rest)

theorem readDirectly_eq_ok
    {path : String}
    (isPath : ImageFiles.makesUp path = false)
    (noDirectory : s.world.isDirectory path = false)
    {content : FileContent}
    (held : s.world.read path = .ok content)
    {image : Image}
    {rest : List Image}
    (first : ImageFiles.ofContent path content = .ok (image :: rest)) :
    s.readDirectly path = .ok image := by
  unfold readDirectly
  rw [ImageFiles.read_of_path (s.readRequest path false) isPath noDirectory]
  simp [ImageFiles.readFile, readRequest, held, first]

/-- What is not in the cache is what a read gives. -/
theorem Loaded.fst_eq
    {path : String}
    {ended : Acted Disk Image}
    (loaded : Loaded .standard path s ended)
    (missed : s.cache.get? path = none) :
    ended.1 = s.readDirectly path := by
  unfold readDirectly
  cases loaded with
  | cached found => cases missed.symm.trans found
  | refused _ answer | empty _ answer | stored _ answer =>
      rw [show ImageFiles.read (s.readRequest path false) s.world = _ from answer]

/-- While the cache is right, it gives the image that a read would give. -/
theorem Fresh.auxiliaryImage_fst
    (fresh : s.Fresh disk)
    {path : String}
    (isPath : ImageFiles.makesUp path = false)
    (noDirectory : disk.isDirectory path = false) :
    (s.auxiliaryImage .standard path).1 = s.readDirectly path := by
  have loaded := auxiliaryImage_loaded .standard path s
  cases cached : s.cache.get? path with
  | none => exact loaded.fst_eq cached
  | some image =>
      obtain ⟨content, rest, held, first⟩ := fresh.cached path image cached isPath noDirectory
      have stillNone := (fresh.directories.isDirectory_eq).trans noDirectory
      rw [readDirectly_eq_ok isPath stillNone held first, auxiliaryImage, cached]

/-- Two sessions with the same cache and the same files. -/
structure SameFiles (s s' : Session Disk) : Prop where
  world : s'.world = s.world
  cache : s'.cache = s.cache

theorem Fresh.sameFiles
    (fresh : s.Fresh disk)
    (same : s.SameFiles s') :
    s'.Fresh disk := by
  constructor
  · rw [same.world]
    exact fresh.directories
  · rw [same.world, same.cache]
    exact fresh.cached

/-- A read puts the first image of the file into the cache. -/
theorem Fresh.auxiliaryImage
    (fresh : s.Fresh disk)
    (path : String) :
    (s.auxiliaryImage .standard path).2.Fresh disk := by
  have loaded := auxiliaryImage_loaded .standard path s
  generalize s.auxiliaryImage .standard path = ended at loaded ⊢
  cases loaded with
  | cached found => exact fresh
  | refused missed answer => exact fresh.sameFiles ⟨rfl, rfl⟩
  | empty missed answer => exact fresh.sameFiles ⟨rfl, rfl⟩
  | stored missed answer =>
      refine ⟨fresh.directories, fun other found cached isPath noDirectory => ?_⟩
      rw [ImageCache.get?_store] at cached
      split at cached
      · next same =>
        obtain rfl := same
        obtain rfl := Option.some.inj cached
        have stillNone := (fresh.directories.isDirectory_eq).trans noDirectory
        obtain ⟨content, held, made⟩ := ImageFiles.readFile_eq_ok_iff.mp
          ((ImageFiles.read_of_path (s.readRequest other false) isPath stillNone).symm.trans answer)
        exact ⟨content, _, held, made⟩
      · exact fresh.cached other found cached isPath noDirectory

/-! ## Options that change no file and cache nothing -/

namespace SameFiles

theorem refl
    (s : Session Disk) :
    s.SameFiles s :=
  ⟨rfl, rfl⟩

theorem trans
    {s'' : Session Disk}
    (first : s.SameFiles s')
    (second : s'.SameFiles s'') :
    s.SameFiles s'' :=
  ⟨second.world.trans first.world, second.cache.trans first.cache⟩

end SameFiles

theorem settle_sameFiles
    (inv : Invocation)
    (acted : Acted Disk Unit) :
    acted.2.SameFiles (settle inv acted).2 := by
  obtain ⟨outcome, after⟩ := acted
  cases outcome <;> exact ⟨rfl, rfl⟩

theorem place_sameFiles
    (s : Session Disk)
    (h : Handle)
    (product : Product) :
    s.SameFiles (s.place h product) := by
  cases product <;> exact ⟨rfl, rfl⟩

theorem performOnImage_sameFiles
    (image : Image)
    (plan : ImagePlan)
    (s : Session Disk) :
    s.SameFiles (s.performOnImage .standard image plan).2 := by
  cases plan <;> exact ⟨rfl, rfl⟩

theorem visit_sameFiles
    (operator : ImageOperator)
    (inv : Invocation)
    (h : Handle)
    (image : Image)
    (s : Session Disk) :
    s.SameFiles ((s.visit .standard operator inv h image).closed inv h) := by
  have acted : s.SameFiles (s.visit .standard operator inv h image).after := by
    simp only [visit, actOnImage]
    split
    · have worked := performOnImage_sameFiles (s.settings.image.sync image) ‹_›
        { s with images := (s.images.take h).2 }
      exact ⟨worked.world, worked.cache⟩
    · exact ⟨rfl, rfl⟩
  refine acted.trans (.trans ?_ (place_sameFiles _ h _))
  rw [Visit.reported]
  split <;> exact ⟨rfl, rfl⟩

theorem passOver_sameFiles
    (operator : ImageOperator)
    (inv : Invocation)
    (handles : List Handle)
    (s : Session Disk) :
    s.SameFiles (s.passOver .standard operator inv handles).2 :=
  passOver_kept s.SameFiles
    (fun t h image same => same.trans (visit_sameFiles operator inv h image t)) (.refl s) handles

theorem applyToImages_sameFiles
    (option : String)
    (first? second? : Option String)
    (s : Session Disk) :
    s.SameFiles (s.applyToImages .standard option first? second?).2 := by
  unfold applyToImages
  extract_lets inv
  split
  · exact .refl s
  · split
    · exact settle_sameFiles inv (.error .noImages, s)
    · exact passOver_sameFiles _ inv _ s

theorem remapOver_sameFiles
    (reference : Image)
    (dither : Bool)
    (handles : List Handle)
    (s : Session Disk) :
    s.SameFiles (s.remapOver .standard reference dither handles).2 := by
  refine remapOver_kept s.SameFiles (fun t h image product same => ?_) (.refl s) handles
  have opened : t.SameFiles { t with images := (t.images.take h).2 } := ⟨rfl, rfl⟩
  have worked := performOnImage_sameFiles image (.apply (.remap reference dither) id)
    { t with images := (t.images.take h).2 }
  exact (same.trans (opened.trans worked)).trans (place_sameFiles _ h product)

theorem assemble_sameFiles
    (operands : List Image)
    (op : Assembly)
    (s : Session Disk) :
    s.SameFiles (s.assemble .standard operands op).2 := by
  unfold assemble
  dsimp only [Engine.standard]
  cases PixelEngine.assemble operands op <;> exact ⟨rfl, rfl⟩

theorem Passes.sameFiles
    {b : Bracket}
    (passes : s.Passes b s') :
    s.SameFiles s' := by
  cases passes <;> exact ⟨rfl, rfl⟩

theorem bracket_sameFiles
    (b : Bracket)
    (s : Session Disk) :
    Plans s.SameFiles (s.bracket b) := by
  by_cases refuses : s.Refuses b
  · rw [bracket_of_refuses refuses]
    exact .error _
  · obtain ⟨after, passed, passes⟩ := bracket_passes refuses
    rw [passed]
    exact .ok passes.sameFiles

/-- Nothing is written by an option that reads, clones or lists. -/
theorem Extended.sameFiles
    (extended : s.Extended .standard s') :
    s.SameFiles s' := by
  cases extended <;> exact ⟨rfl, rfl⟩

theorem special_sameFiles
    {name : String}
    {special : SpecialOption Disk}
    (named : SpecialOption.named? name = some special)
    (inv : Invocation)
    (s : Session Disk) :
    s.SameFiles (special.act .standard inv s).2 := by
  unfold SpecialOption.named? at named
  split at named
  all_goals cases named
  · exact ofStep_plans _ (bracket_sameFiles (.opening .round) s) (.refl s)
  · exact ofStep_plans _ (bracket_sameFiles (.closing .round) s) (.refl s)
  · exact ofStep_plans _ (bracket_sameFiles (.opening .curly) s) (.refl s)
  · exact ofStep_plans _ (bracket_sameFiles (.closing .curly) s) (.refl s)
  · exact (read_extended _ inv s).sameFiles
  · exact (read_extended _ inv s).sameFiles
  · exact (clone_extended _ inv s).sameFiles
  · exact (list_extended _ inv s).sameFiles
  all_goals exact .refl s

/-- Brackets, reads, clones and listings change no file. -/
theorem applySpecial_sameFiles
    (option : String)
    (first? : Option String)
    (s : Session Disk) :
    s.SameFiles (s.applySpecial .standard option first?).2 := by
  unfold applySpecial
  extract_lets inv
  split
  · exact .refl s
  · next special named => exact (special_sameFiles named inv s).trans (settle_sameFiles inv _)

/-! ## Writes -/

/-- No path of a file was read under another spelling of a name that is written. -/
def SpelledAlike (s : Session Disk) (names : List String) : Prop :=
  ∀ name ∈ names, ∀ path, s.cache.contains path → ImageFiles.makesUp path = false →
    ∀ place, s.world.locate path = .ok place → s.world.locate name = .ok place → path = name

/-- A name that is written was not read, unless it is the one that the cache drops. -/
def DropsCached (s : Session Disk) (destination : String) (names : List String) : Prop :=
  ∀ name ∈ names, s.cache.contains name → name = destination

theorem writeImages_files
    (request : WriteRequest)
    (rename : Bool)
    (s : Session Disk) :
    (s.writeImages .standard request rename).2.world =
        (ImageFiles.write s.images.toList request s.world).2 ∧
      (s.writeImages .standard request rename).2.cache =
        (s.cache.evict request.destination).2 := by
  unfold Session.writeImages
  dsimp only [Engine.standard]
  split <;> exact ⟨by simp_all, rfl⟩

/-- A write keeps the cache right if it changes no file that was read but the one it drops. -/
theorem Fresh.writeImages
    (fresh : s.Fresh disk)
    {request : WriteRequest}
    (rename : Bool)
    (spelled : s.SpelledAlike (ImageFiles.namesWritten s.images.toList.length request))
    (drops : s.DropsCached request.destination
      (ImageFiles.namesWritten s.images.toList.length request)) :
    (s.writeImages .standard request rename).2.Fresh disk := by
  have written := ImageFiles.write_written s.images.toList request s.world
  have ended := writeImages_files request rename s
  rw [← ended.1] at written
  refine ⟨fresh.directories.trans written.directories,
    fun path image cached isPath noDirectory => ?_⟩
  rw [ended.2, ImageCache.get?_evict] at cached
  split at cached
  · cases cached
  · next kept =>
    obtain ⟨content, rest, held, first⟩ := fresh.cached path image cached isPath noDirectory
    refine ⟨content, rest, written.read_eq_ok held ?_, first⟩
    intro name mem place led ledToo
    have known : s.cache.contains path := by simp [ImageCache.contains, cached]
    obtain rfl := spelled name mem path known isPath place led ledToo
    exact kept (drops path mem known)

/-! ## Loads and writes -/

/-- What a setting wants done in a session, if it wants something. -/
def settingPlan? (option : String) (first? : Option String) (s : Session Disk) :
    Option SettingPlan :=
  let inv := Invocation.of option first? none
  (SettingOption.named? inv.name).bind fun setting => (setting s.settings inv).toOption

/-- What an operator on the list wants done in a session, if it wants something. -/
def listPlan? (option : String) (first? second? : Option String) (s : Session Disk) :
    Option ListPlan :=
  let inv := Invocation.of option first? second?
  (ListOperator.named? inv.name).bind fun operator =>
    if s.images.isEmpty && inv.name != "limit" then none
    else (operator (s.syncAll.view .standard) s.syncAll.images inv).toOption

namespace Moment

/-- The option names an image by a path: it is the pattern of a setting, or the reference for
colors. -/
def Loads (m : Moment Disk) (path : String) : Prop :=
  match m.call with
  | .setting option first? => ∃ install, m.before.settingPlan? option first? =
      some (.pattern path install)
  | .list option first? second? => ∃ dither, m.before.listPlan? option first? second? =
      some (.remap path dither)
  | _ => False

/-- The option writes the images of the list. -/
def Writes (m : Moment Disk) (request : WriteRequest) : Prop :=
  match m.call with
  | .list option first? second? => ∃ rename, m.before.listPlan? option first? second? =
      some (.write request rename)
  | _ => False

/-- The names that a write of the images there are writes. -/
def names (m : Moment Disk) (request : WriteRequest) : List String :=
  ImageFiles.namesWritten m.before.images.toList.length request

end Moment

theorem applySetting_of_plan
    (option : String)
    (first? : Option String)
    (s : Session Disk) :
    (∃ plan, s.settingPlan? option first? = some plan ∧
        (s.performSetting .standard plan).2.SameFiles
          (s.applySetting .standard option first?).2) ∨
      s.settingPlan? option first? = none ∧
        s.SameFiles (s.applySetting .standard option first?).2 := by
  rw [applySetting_eq, settingPlan?]
  extract_lets inv
  cases SettingOption.named? inv.name with
  | none => exact .inr ⟨rfl, .refl s⟩
  | some setting =>
      dsimp only [Option.bind_some]
      unfold actOnSetting
      cases setting s.settings inv with
      | error fault => exact .inr ⟨rfl, settle_sameFiles inv (.error fault, s)⟩
      | ok plan => exact .inl ⟨plan, rfl, settle_sameFiles inv _⟩

/-- A setting keeps the cache right. -/
theorem Fresh.applySetting
    (fresh : s.Fresh disk)
    (option : String)
    (first? : Option String) :
    (s.applySetting .standard option first?).2.Fresh disk := by
  obtain ⟨plan, -, same⟩ | ⟨-, same⟩ := applySetting_of_plan option first? s
  · refine Fresh.sameFiles ?_ same
    cases plan with
    | set settings => exact fresh.sameFiles ⟨rfl, rfl⟩
    | limits memory map => exact fresh.sameFiles ⟨rfl, rfl⟩
    | pattern path install =>
        exact performSetting_pattern_kept (Fresh disk) (fresh.auxiliaryImage path)
          fun _ _ fresh => fresh.sameFiles ⟨rfl, rfl⟩
  · exact fresh.sameFiles same

/-- Work on the list keeps the cache right, unless it writes. -/
theorem Fresh.performOnList
    (fresh : s.Fresh disk)
    {plan : ListPlan}
    (writes : ∀ request rename, plan = .write request rename →
      s.SpelledAlike (ImageFiles.namesWritten s.images.toList.length request) ∧
        s.DropsCached request.destination
          (ImageFiles.namesWritten s.images.toList.length request)) :
    (s.performOnList .standard plan).2.Fresh disk := by
  cases plan with
  | assemble op =>
      have given : s.SameFiles { s with images := .ofList s.images.intoList } := ⟨rfl, rfl⟩
      exact fresh.sameFiles (given.trans (assemble_sameFiles _ op _))
  | assembleFrom operands op => exact fresh.sameFiles (assemble_sameFiles operands op s)
  | rearrange images => exact fresh.sameFiles ⟨rfl, rfl⟩
  | refuse images fault => exact fresh.sameFiles ⟨rfl, rfl⟩
  | remap path dither =>
      exact performOnList_remap_kept (Fresh disk) (fresh.auxiliaryImage path)
        fun reference _ fresh => fresh.sameFiles (remapOver_sameFiles reference dither _ _)
  | limit resource limit => exact fresh.sameFiles ⟨rfl, rfl⟩
  | print text => exact fresh.sameFiles ⟨rfl, rfl⟩
  | write request rename =>
      obtain ⟨spelled, drops⟩ := writes request rename rfl
      exact fresh.writeImages rename spelled drops

/-- An operator on the list keeps the cache right, unless it writes. -/
theorem Fresh.applyToList
    (fresh : s.Fresh disk)
    (whole : s.images.Whole)
    (option : String)
    (first? second? : Option String)
    (writes : ∀ request rename,
      s.listPlan? option first? second? = some (.write request rename) →
      s.SpelledAlike (ImageFiles.namesWritten s.images.toList.length request) ∧
        s.DropsCached request.destination
          (ImageFiles.namesWritten s.images.toList.length request)) :
    (s.applyToList .standard option first? second?).2.Fresh disk := by
  have synced : s.syncAll.images.toList.length = s.images.toList.length := by
    rw [syncAll_toList whole, syncedImages, List.length_map]
  have sameFiles : s.SameFiles s.syncAll := ⟨rfl, rfl⟩
  rw [applyToList_eq]
  dsimp only [listPlan?] at writes
  extract_lets inv
  cases named : ListOperator.named? inv.name with
  | none => exact fresh
  | some operator =>
      rw [named] at writes
      dsimp only [Option.bind_some] at writes ⊢
      refine Fresh.sameFiles ?_ (settle_sameFiles inv _)
      unfold actOnList
      split
      · exact fresh
      · next allowed =>
        rw [if_neg allowed] at writes
        split
        · next plan decided =>
          refine (fresh.sameFiles sameFiles).performOnList fun request rename isWrite => ?_
          rw [synced]
          exact writes request rename (by rw [decided, isWrite]; rfl)
        · exact fresh.sameFiles sameFiles

/-! ## Runs -/

/-- In any run that begins with an empty cache, an image that is named by the path of a file is the
first image of that file as it is at that moment, if no write reaches a file that was read under
another spelling, and no numbered file that was read. -/
theorem loads_follow_files
    (calls : List Call)
    (disk : Disk)
    (spelled : ∀ m ∈ momentsAll .standard calls { world := disk }, ∀ request, m.Writes request →
      m.before.SpelledAlike (m.names request))
    (drops : ∀ m ∈ momentsAll .standard calls { world := disk }, ∀ request, m.Writes request →
      m.before.DropsCached request.destination (m.names request)) :
    ∀ m ∈ momentsAll .standard calls { world := disk }, ∀ path, m.Loads path →
      ImageFiles.makesUp path = false → disk.isDirectory path = false →
      (m.before.auxiliaryImage .standard path).1 = m.before.readDirectly path := by
  have kept : KeptAt .standard (fun s => s.Sound ∧ s.Fresh disk)
      (momentsAll .standard calls { world := disk }) := by
    refine ⟨fun s log caught holds => ?_, fun m mem holds => ?_⟩
    · exact ⟨holds.1.sameLists ⟨rfl, rfl, rfl⟩, holds.2.sameFiles ⟨rfl, rfl⟩⟩
    · obtain ⟨sound, fresh⟩ := holds
      refine ⟨sound.call _ _, ?_⟩
      obtain ⟨before, c, one⟩ := m
      cases c with
      | setting option first? => exact fresh.applySetting option first?
      | image option first? second? =>
          exact fresh.sameFiles (applyToImages_sameFiles option first? second? before)
      | list option first? second? =>
          refine fresh.applyToList sound.images option first? second?
            fun request rename isWrite => ?_
          exact ⟨spelled _ mem request ⟨rename, isWrite⟩, drops _ mem request ⟨rename, isWrite⟩⟩
      | special option first? =>
          exact fresh.sameFiles (applySpecial_sameFiles option first? before)
      | run tokens => exact one.elim
  have fresh : Fresh disk { world := disk } := by
    refine ⟨.refl disk, fun path image cached => ?_⟩
    simp [ImageCache.get?] at cached
  have throughout := kept.callAll ⟨.initial disk, fresh⟩
  intro m mem path _ isPath noDirectory
  exact (throughout.before m mem).2.auxiliaryImage_fst isPath noDirectory

/-! ## A write between two loads -/

theorem settingPlan?_tile
    (path : String)
    (s : Session Disk) :
    s.settingPlan? "-tile" (some path) = some (.pattern path fun image settings =>
      ({ settings with drawing.fillPattern := some image } : Settings).setOption "tile" path) :=
  rfl

theorem applySetting_tile
    (path : String)
    (s : Session Disk) :
    (s.auxiliaryImage .standard path).2.SameFiles
      (s.applySetting .standard "-tile" (some path)).2 := by
  have planned := settingPlan?_tile path s
  obtain ⟨plan, found, same⟩ | ⟨none, -⟩ := applySetting_of_plan "-tile" (some path) s
  · obtain rfl := Option.some.inj (planned.symm.trans found)
    refine SameFiles.trans ?_ same
    exact performSetting_pattern_kept (s.auxiliaryImage .standard path).2.SameFiles (.refl _)
      fun _ _ same => same.trans ⟨rfl, rfl⟩
  · rw [none] at planned
    cases planned

theorem auxiliaryImage_world
    (path : String)
    (s : Session Disk) :
    (s.auxiliaryImage .standard path).2.world = s.world := by
  have loaded := auxiliaryImage_loaded .standard path s
  generalize s.auxiliaryImage .standard path = ended at loaded ⊢
  cases loaded <;> rfl

/-- A load caches no other path. -/
theorem auxiliaryImage_contains
    {path other : String}
    (cached : (s.auxiliaryImage .standard path).2.cache.contains other) :
    other = path ∨ s.cache.contains other := by
  have loaded := auxiliaryImage_loaded .standard path s
  generalize s.auxiliaryImage .standard path = ended at loaded cached
  cases loaded with
  | stored missed answer =>
      rw [ImageCache.contains, ImageCache.get?_store] at cached
      split at cached
      · next same => exact .inl same
      · exact .inr cached
  | _ => exact .inr cached

/-- The request of a write. -/
def writeRequest (destination : String) (s : Session Disk) : WriteRequest where
  destination
  adjoin := s.settings.image.adjoin
  quality := s.settings.image.quality

theorem listPlan?_write
    {destination : String}
    {request : WriteRequest}
    {rename : Bool}
    (planned : s.listPlan? "-write" (some destination) none = some (.write request rename)) :
    request = s.writeRequest destination := by
  have named : ListOperator.named? (Invocation.of "-write" (some destination) none).name =
      some .write := rfl
  unfold listPlan? at planned
  dsimp only at planned
  rw [named, Option.bind_some] at planned
  split at planned
  · cases planned
  · cases planned
    rfl

theorem applyToList_write
    (destination : String)
    (whole : s.images.Whole)
    (filled : s.images.isEmpty = false) :
    (s.applyToList .standard "-write" (some destination) none).2.world =
        (ImageFiles.write s.syncedImages (s.writeRequest destination) s.world).2 ∧
      (s.applyToList .standard "-write" (some destination) none).2.cache =
        (s.cache.evict destination).2 := by
  have named : ListOperator.named? (Invocation.of "-write" (some destination) none).name =
      some .write := rfl
  rw [applyToList_eq]
  extract_lets inv
  rw [named]
  dsimp only
  have plan : ListOperator.write (s.syncAll.view .standard) s.syncAll.images inv =
      .ok (.write (s.writeRequest destination) true) := rfl
  rw [(settle_sameFiles inv _).world, (settle_sameFiles inv _).cache, actOnList, filled,
    Bool.false_and, if_neg Bool.false_ne_true, plan, ← syncAll_toList whole]
  exact writeImages_files _ true s.syncAll

/-- A pattern is loaded before and after the images are written. -/
def patternAround (path destination : String) : List Call :=
  [ .setting "-tile" (some path), .list "-write" (some destination) none,
    .setting "-tile" (some path) ]

/-- The write between the loads of a pattern finds nothing else cached, and the same images. -/
theorem writes_of_patternAround
    {path destination : String}
    (nothing : s.cache = {})
    {m : Moment Disk}
    (mem : m ∈ s.momentsAll .standard (patternAround path destination))
    {request : WriteRequest}
    (writes : m.Writes request) :
    m.before.world = s.world ∧ m.before.images = s.images ∧ request.destination = destination ∧
      ∀ other, m.before.cache.contains other → other = path := by
  simp only [patternAround, momentsAll, moments, List.mem_append, List.mem_singleton,
    List.not_mem_nil, or_false] at mem
  obtain rfl | rfl | rfl := mem
  · exact writes.elim
  · obtain ⟨rename, planned⟩ := writes
    obtain rfl := listPlan?_write planned
    have loaded := applySetting_tile path s
    refine ⟨loaded.world.trans (auxiliaryImage_world path s),
      (applySetting_sameLists _ _ _ s).images, rfl, fun other cached => ?_⟩
    dsimp only [call] at cached
    rw [loaded.cache] at cached
    refine (auxiliaryImage_contains cached).resolve_right ?_
    rw [nothing]
    exact Bool.false_ne_true
  · exact writes.elim

/-- A pattern is loaded from its file again after the file was written. -/
theorem pattern_read_again :
    let disk : Disk := ⟨[(["a.png"], .frames [{ bitmap := (default : Image).bitmap }])]⟩
    let calls := .special "read" (some "null:") :: patternAround "a.png" "a.png"
    let moments := momentsAll .standard calls { world := disk }
    let m : Moment Disk :=
      ⟨callAll .standard (calls.take 3) { world := disk }, .setting "-tile" (some "a.png"), trivial⟩
    (∀ m ∈ moments, ∀ request, m.Writes request → m.before.SpelledAlike (m.names request)) ∧
      (∀ m ∈ moments, ∀ request, m.Writes request →
        m.before.DropsCached request.destination (m.names request)) ∧
      m ∈ moments ∧ m.Loads "a.png" ∧ ImageFiles.makesUp "a.png" = false ∧
      disk.isDirectory "a.png" = false ∧
      (m.before.auxiliaryImage .standard "a.png").1 = m.before.readDirectly "a.png" := by
  intro disk calls moments m
  have one : (applySpecial .standard "read" (some "null:")
      { world := disk }).2.images.toList.length = 1 := by decide
  have writes : ∀ m ∈ moments, ∀ request, m.Writes request →
      m.names request = ["a.png"] ∧ request.destination = "a.png" ∧
        ∀ other, m.before.cache.contains other → other = "a.png" := by
    intro m mem request isWrite
    rcases List.mem_cons.mp mem with rfl | mem
    · exact isWrite.elim
    · have nothing := (applySpecial_sameFiles "read" (some "null:") { world := disk }).cache
      obtain ⟨-, images, destination, known⟩ := writes_of_patternAround nothing mem isWrite
      refine ⟨?_, destination, known⟩
      rw [Moment.names, images, one, ImageFiles.namesWritten, destination]
      rfl
  have spelled : ∀ m ∈ moments, ∀ request, m.Writes request →
      m.before.SpelledAlike (m.names request) := by
    intro m mem request isWrite name written path cached _ _ _ _
    obtain ⟨names, -, known⟩ := writes m mem request isWrite
    rw [names] at written
    rw [List.mem_singleton.mp written, known path cached]
  have drops : ∀ m ∈ moments, ∀ request, m.Writes request →
      m.before.DropsCached request.destination (m.names request) := by
    intro m mem request isWrite name written _
    obtain ⟨names, destination, -⟩ := writes m mem request isWrite
    rw [names] at written
    rw [List.mem_singleton.mp written, destination]
  have mem : m ∈ moments := by
    simp [moments, calls, patternAround, momentsAll, Session.moments, m, callAll]
  have loads : m.Loads "a.png" := ⟨_, settingPlan?_tile "a.png" m.before⟩
  have isPath : ImageFiles.makesUp "a.png" = false := by decide
  have noDirectory : disk.isDirectory "a.png" = false := by
    rw [Disk.isDirectory, Disk.locate_of_plain _ (by decide)]
    rfl
  exact ⟨spelled, drops, mem, loads, isPath, noDirectory,
    loads_follow_files calls disk spelled drops m mem "a.png" loads isPath noDirectory⟩

/-- What was read directly is cached. -/
theorem auxiliaryImage_missed
    {path : String}
    (missed : s.cache.get? path = none)
    {image : Image}
    (direct : s.readDirectly path = .ok image) :
    s.auxiliaryImage .standard path =
      (.ok image, { s with cache := s.cache.store path [image] }) := by
  have loaded := auxiliaryImage_loaded .standard path s
  have given := loaded.fst_eq missed
  generalize s.auxiliaryImage .standard path = ended at loaded given ⊢
  rw [direct] at given
  cases loaded with
  | cached found => cases missed.symm.trans found
  | refused _ answer | empty _ answer => cases given
  | stored _ answer =>
      cases given
      rfl

/-- An image that was loaded from the first of the numbered files that the images are written to is
loaded as it was, and the file holds another one. -/
theorem numbered_file_rewritten
    (destination : String)
    (whole : s.images.Whole)
    {first second : Image}
    {rest : List Image}
    (several : s.images.toList = first :: second :: rest)
    (isPath : ImageFiles.makesUp (ImageFiles.numbered destination 0) = false)
    (noDirectory : s.world.isDirectory (ImageFiles.numbered destination 0) = false)
    (missed : s.cache.get? (ImageFiles.numbered destination 0) = none)
    {image : Image}
    (direct : s.readDirectly (ImageFiles.numbered destination 0) = .ok image)
    (other : ImageFiles.numbered destination 0 ≠ destination)
    (taken : sameWord destination "null:" = false)
    {format : FileFormat}
    (known : ImageFiles.formatTo destination = .ok format)
    (still : format ≠ .gif)
    (alike : ImageFiles.formatTo (ImageFiles.numbered destination 0) = .ok format)
    (written : ∀ content, ∃ disk',
      s.world.write (ImageFiles.numbered destination 0) content = .ok disk')
    (elsewhere : ∀ disk' : Disk,
      ∀ name ∈ ImageFiles.numberedNames destination 1 (rest.length + 1), ∀ place,
      disk'.locate (ImageFiles.numbered destination 0) = .ok place →
        disk'.locate name ≠ .ok place) :
    let path := ImageFiles.numbered destination 0
    let loaded := (s.applySetting .standard "-tile" (some path)).2
    let after := (loaded.applyToList .standard "-write" (some destination) none).2
    (after.auxiliaryImage .standard path).1 = .ok image ∧
      after.readDirectly path = .ok (ImageFiles.ofFrame path 0
        (ImageFiles.frameOf format (loaded.settings.image.sync first))) := by
  intro path loaded after
  have filled : s.images.isEmpty = false := by
    cases order : s.images.order with
    | nil => simp [Reel.toList, order] at several
    | cons h handles => simp [Reel.isEmpty, order]
  have tiled := applySetting_tile path s
  rw [auxiliaryImage_missed missed direct] at tiled
  have images : loaded.images = s.images := (applySetting_sameLists _ _ _ s).images
  obtain ⟨world, cache⟩ :=
    applyToList_write destination (images ▸ whole : loaded.images.Whole) (images ▸ filled)
  constructor
  · have cached : after.cache.get? path = some image := by
      rw [cache, tiled.cache, ImageCache.get?_evict, if_neg other, ImageCache.get?_store,
        if_pos rfl]
    rw [auxiliaryImage, cached]
  · have synced : loaded.syncedImages = loaded.settings.image.sync first ::
        loaded.settings.image.sync second :: rest.map loaded.settings.image.sync := by
      rw [syncedImages, images, several, List.map_cons, List.map_cons]
    rw [tiled.world] at world
    have directories := (ImageFiles.write_written loaded.syncedImages
      (loaded.writeRequest destination) s.world).directories
    rw [← world] at directories
    obtain ⟨disk', done⟩ := written
      (.frames [ImageFiles.frameOf format (loaded.settings.image.sync first)])
    have held : after.world.read path =
        .ok (.frames [ImageFiles.frameOf format (loaded.settings.image.sync first)]) := by
      rw [world, synced,
        ImageFiles.write_several (loaded.writeRequest destination) taken known still]
      refine ImageFiles.read_of_writeNumbered alike done _ ?_
      rw [List.length_cons, List.length_map]
      exact elsewhere disk'
    exact readDirectly_eq_ok isPath (directories.isDirectory_eq.trans noDirectory) held rfl

/-- Two images are written to numbered files, and the pattern that was loaded from the first of
these files before is loaded as it was. -/
theorem numbered_file_stays_cached :
    let old : Frame := { bitmap := .of .l8 (Raster.fill ⟨1, 1⟩ Color.black) }
    let disk : Disk := ⟨[(["a-0.png"], .frames [old])]⟩
    let calls := .special "read" (some "null:") :: .special "read" (some "null:") ::
      patternAround "a-0.png" "a.png"
    let moments := momentsAll .standard calls { world := disk }
    let m : Moment Disk :=
      ⟨callAll .standard (calls.take 4) { world := disk }, .setting "-tile" (some "a-0.png"),
        trivial⟩
    (∀ m ∈ moments, ∀ request, m.Writes request → m.before.SpelledAlike (m.names request)) ∧
      m ∈ moments ∧ m.Loads "a-0.png" ∧ ImageFiles.makesUp "a-0.png" = false ∧
      disk.isDirectory "a-0.png" = false ∧
      (m.before.auxiliaryImage .standard "a-0.png").1 ≠ m.before.readDirectly "a-0.png" := by
  intro old disk calls moments m
  have isPath : ImageFiles.makesUp "a-0.png" = false := by decide
  have number : ImageFiles.numbered "a.png" 0 = "a-0.png" := by decide
  have numbers : ImageFiles.numberedNames "a.png" 1 1 = ["a-1.png"] := by decide
  have taken : sameWord "a.png" "null:" = false := by decide
  have firstPlace (other : Disk) : other.locate "a-0.png" = .ok ["a-0.png"] := by
    rw [Disk.locate_of_plain _ (by decide)]
    rfl
  have secondPlace (other : Disk) : other.locate "a-1.png" = .ok ["a-1.png"] := by
    rw [Disk.locate_of_plain _ (by decide)]
    rfl
  have apart : ∀ disk' : Disk, ∀ name ∈ ImageFiles.numberedNames "a.png" 1 1, ∀ place,
      disk'.locate "a-0.png" = .ok place → disk'.locate name ≠ .ok place := by
    intro disk' name mem place led
    rw [firstPlace] at led
    cases led
    rw [numbers, List.mem_singleton] at mem
    rw [mem, secondPlace]
    simp
  have noDirectory : disk.isDirectory "a-0.png" = false := by
    rw [Disk.isDirectory, firstPlace]
    rfl
  have held : disk.read "a-0.png" = .ok (.frames [old]) := by
    rw [Disk.read, firstPlace]
    rfl
  -- The session in which the two images were read has the same files, and has loaded nothing.
  obtain ⟨s, equation⟩ : ∃ s, s = callAll .standard
    [.special "read" (some "null:"), .special "read" (some "null:")] { world := disk } := ⟨_, rfl⟩
  obtain ⟨world, cache⟩ : SameFiles { world := disk } s :=
    equation ▸ (applySpecial_sameFiles "read" (some "null:") _).trans
      (applySpecial_sameFiles "read" (some "null:") _)
  dsimp only at world cache
  have whole : s.images.Whole := equation ▸ (Sound.callAll .standard _ (.initial disk)).images
  have layouts : s.images.toList.map (fun image => image.bitmap.layout) = [.rgba8, .rgba8] := by
    rw [equation]
    decide
  obtain ⟨first, rest, several, layout, others⟩ := List.map_eq_cons_iff.mp layouts
  obtain ⟨second, rfl, -⟩ := List.map_eq_singleton_iff.mp others
  have direct : s.readDirectly "a-0.png" = .ok (ImageFiles.ofFrame "a-0.png" 0 old) :=
    readDirectly_eq_ok isPath (world ▸ noDirectory) (world ▸ held) rfl
  have written (content : FileContent) :
      ∃ disk', s.world.write (ImageFiles.numbered "a.png" 0) content = .ok disk' := by
    refine ⟨disk.insertAt ["a-0.png"] content, ?_⟩
    rw [number, world, Disk.write, Disk.placeToWrite, firstPlace]
    rfl
  have rewritten := numbered_file_rewritten "a.png" whole several
  rw [number] at rewritten written
  obtain ⟨kept, reread⟩ := rewritten isPath (world ▸ noDirectory) (cache ▸ rfl) direct
    (by decide) taken rfl (show FileFormat.png ≠ .gif by decide) rfl written apart
  have reached : m.before = (((s.applySetting .standard "-tile" (some "a-0.png")).2).applyToList
      .standard "-write" (some "a.png") none).2 := by
    rw [equation]
    rfl
  refine ⟨?_, ?_, ⟨_, settingPlan?_tile "a-0.png" m.before⟩, isPath, noDirectory, ?_⟩
  · intro m mem request isWrite name written path cached _ place ledPath ledName
    have later : m ∈ s.momentsAll .standard (patternAround "a-0.png" "a.png") := by
      rcases List.mem_cons.mp mem with rfl | mem
      · exact isWrite.elim
      · rcases List.mem_cons.mp mem with rfl | mem
        · exact isWrite.elim
        · rw [equation]
          exact mem
    obtain ⟨-, images, destination, known⟩ := writes_of_patternAround cache later isWrite
    obtain rfl := known path cached
    rw [Moment.names, images, several, List.length_cons, List.length_singleton,
      ImageFiles.namesWritten_several request (destination ▸ taken) (destination ▸ rfl)
        (show FileFormat.png ≠ .gif by decide) 0, destination,
      ImageFiles.numberedNames_succ, number, numbers] at written
    rcases List.mem_cons.mp written with rfl | mem
    · rfl
    · rw [firstPlace] at ledPath
      cases ledPath
      rw [List.mem_singleton.mp mem, secondPlace] at ledName
      exact absurd (Except.ok.inj ledName) (by decide)
  · simp [moments, calls, patternAround, momentsAll, Session.moments, m, callAll]
  · rw [reached, kept, reread]
    intro same
    have layouts : Layout.l8 = first.bitmap.layout :=
      congrArg (fun image => image.bitmap.layout) (Except.ok.inj same)
    rw [layout] at layouts
    cases layouts

end Session
end Darkroom

import Darkroom.Proofs.Disk
import Darkroom.Proofs.Path

/-!
# Numbered files

Several images go to files whose names are cut out of the destination, with a number behind the
stem.  The folder of such a name does not depend on the number, and the name itself is the name of a
file.  So the names differ, each leads to a place of its own, and every file is read as the image
that went into it.
-/

namespace Darkroom

namespace ImageFiles

open Disk (Written)

variable {destination : String} {index : Nat}

/-! ## The names -/

/-- The file name of one of several images. -/
def numberedName (destination : String) (index : Nat) : List Char :=
  let path := destination.toList
  let stem := (Path.stem? path).getD "image".toList ++ '-' :: (toString index).toList
  match Path.extension? path with
  | some extension => stem ++ '.' :: extension
  | none => stem

/-- The folder of the numbered files. -/
def numberedFolder (destination : String) : List Char :=
  Path.withFileName destination.toList []

theorem toList_numbered
    (destination : String)
    (index : Nat) :
    (numbered destination index).toList =
      numberedFolder destination ++ numberedName destination index := by
  rw [numberedFolder, ← Path.withFileName_eq_append]
  exact String.toList_ofList

/-- Every number makes a name of its own. -/
theorem numberedName_injective
    (destination : String) :
    Function.Injective (numberedName destination) := by
  intro i j same
  have digits : Nat.toDigits 10 i = Nat.toDigits 10 j := by
    unfold numberedName at same
    dsimp only at same
    split at same
    · simpa using same
    · simpa using same
  rw [← Nat.ofDigitChars_ten_toDigits (n := i), digits, Nat.ofDigitChars_ten_toDigits]

/-- Numbered files have different paths. -/
theorem numbered_injective
    (destination : String) :
    Function.Injective (numbered destination) := by
  intro i j same
  have paths := congrArg String.toList same
  rw [toList_numbered, toList_numbered] at paths
  exact numberedName_injective destination (List.append_cancel_left paths)

/-- A numbered name is the name of a file. -/
theorem isFileName_numberedName
    (destination : String)
    (index : Nat) :
    Path.IsFileName (numberedName destination index) := by
  have slash_notMem_stem : '/' ∉ (Path.stem? destination.toList).getD "image".toList := by
    rw [Path.stem?]
    cases found : Path.fileName? destination.toList with
    | none => decide
    | some name =>
        exact fun mem =>
          (Path.isFileName_of_fileName? found).slashless ((Path.cutName_subset name).1 mem)
  have slash_notMem_extension {extension : List Char}
      (cut : Path.extension? destination.toList = some extension) : '/' ∉ extension := by
    obtain ⟨name, found, cut⟩ := Option.bind_eq_some_iff.mp cut
    exact fun mem =>
      (Path.isFileName_of_fileName? found).slashless ((Path.cutName_subset name).2 _ cut mem)
  have slash_notMem_digits : '/' ∉ (toString index).toList := fun mem => by
    rw [Nat.toString_eq_ofList_toDigits, String.toList_ofList] at mem
    exact absurd (Nat.isDigit_of_mem_toDigits (by decide) (by decide) mem) (by decide)
  have dash_mem : '-' ∈ numberedName destination index := by
    unfold numberedName
    dsimp only
    split <;> simp
  refine ⟨?_, ?_, ?_⟩
  · unfold numberedName
    dsimp only
    split
    · next extension cut =>
      have := slash_notMem_extension cut
      simp_all
    · simp_all
  · rw [Path.isIdle, Bool.or_eq_false_iff]
    refine ⟨?_, ?_⟩
    · exact List.isEmpty_eq_false_iff.mpr (List.ne_nil_of_mem dash_mem)
    · exact beq_false_of_ne fun same => absurd (same ▸ dash_mem) (by decide)
  · exact fun same => absurd (same ▸ dash_mem) (by decide)

/-- Only a path with an extension has a format. -/
theorem exists_extension
    {format : FileFormat}
    (known : formatTo destination = .ok format) :
    ∃ extension, Path.extension? destination.toList = some extension ∧
      FileFormat.ofExtension? (String.ofList (Text.lower extension)) = some format := by
  have found : FileFormat.ofPath? destination = some format := by
    unfold formatTo at known
    split at known
    · next found => rw [found, Except.ok.inj known]
    · cases known
  obtain ⟨lowered, cut, isFormat⟩ := Option.bind_eq_some_iff.mp found
  obtain ⟨extension, isCut, rfl⟩ := Option.map_eq_some_iff.mp cut
  exact ⟨extension, isCut, isFormat⟩

/-- A numbered file has the extension of the destination. -/
theorem extension?_numbered
    {extension : List Char}
    (cut : Path.extension? destination.toList = some extension) :
    Path.extension? (numbered destination index).toList = some extension := by
  obtain ⟨name, found, last⟩ := Option.bind_eq_some_iff.mp cut
  obtain ⟨-, dotless⟩ := Path.eq_append_of_cutName last
  have isName := isFileName_numberedName destination index
  have folder : Path.IsFolder (numberedFolder destination) := Path.isFolder_withFileName _
  rw [toList_numbered, Path.extension?, Path.fileName?_append folder isName, Option.bind_some]
  have shape : numberedName destination index =
      ((Path.stem? destination.toList).getD "image".toList ++ '-' :: (toString index).toList) ++
        '.' :: extension := by
    rw [numberedName, cut]
  rw [shape, Path.cutName_append (by simp) dotless (shape ▸ isName.down)]

/-- A numbered file is of the format of the destination. -/
theorem formatTo_numbered
    {format : FileFormat}
    (known : formatTo destination = .ok format) :
    formatTo (numbered destination index) = .ok format := by
  obtain ⟨extension, cut, isFormat⟩ := exists_extension known
  have same : FileFormat.ofPath? (numbered destination index) = some format := by
    rw [FileFormat.ofPath?, Path.loweredExtension?, extension?_numbered cut]
    exact isFormat
  rw [formatTo, same]

end ImageFiles

namespace Disk

variable {disk disk' : Disk} {place : List String} {path : String}

/-! ## The places -/

/-- The last of the names followed is the last name of the place, if it is the name of a file. -/
theorem getLast?_of_follow
    {name : String}
    (isName : Path.IsFileName name.toList)
    {names start : List String}
    (led : disk.follow (names ++ [name]) start = .ok place) :
    place.getLast? = some name := by
  induction names generalizing start with
  | nil =>
      have notUp : name ≠ ".." := fun same => isName.down (by rw [same]; rfl)
      have down : disk.follow [] (start ++ [name]) = .ok place := by
        rw [List.nil_append, follow] at led
        split at led
        · cases led
        · split at led
          · cases led
          · rwa [if_neg (by simp [isName.meaningful])] at led
      cases down
      exact List.getLast?_concat
  | cons first rest inductionHypothesis =>
      rw [List.cons_append, follow] at led
      split at led
      · cases led
      · split at led
        · cases led
        · split at led
          · exact inductionHypothesis led
          · split at led
            · exact inductionHypothesis led
            · exact inductionHypothesis led

/-- A path that ends with the name of a file leads to a place of that name. -/
theorem getLast?_of_locate
    {lead name : List Char}
    (shape : path.toList = lead ++ name)
    (folder : Path.IsFolder lead)
    (isName : Path.IsFileName name)
    (led : disk.locate path = .ok place) :
    place.getLast? = some (String.ofList name) := by
  obtain ⟨above, split⟩ := folder.exists_splitOn
  unfold locate at led
  split at led
  · cases led
  · split at led
    · cases led
    · rw [shape, split name isName.slashless, List.map_append] at led
      exact getLast?_of_follow (by rwa [String.toList_ofList]) led

end Disk

namespace ImageFiles

open Disk (Written)

variable {destination : String}

/-- Numbered files are at different places. -/
theorem locate_numbered_ne
    {disk : Disk}
    {place : List String}
    {i j : Nat}
    (different : i ≠ j)
    (led : disk.locate (numbered destination i) = .ok place) :
    disk.locate (numbered destination j) ≠ .ok place := by
  intro same
  have folder : Path.IsFolder (numberedFolder destination) := Path.isFolder_withFileName _
  have last (index : Nat) (led : disk.locate (numbered destination index) = .ok place) :=
    Disk.getLast?_of_locate (toList_numbered destination index) folder
      (isFileName_numberedName destination index) led
  have names := Option.some.inj ((last i led).symm.trans (last j same))
  exact different (numberedName_injective destination (String.ofList_injective names))

/-! ## Writing and reading back -/

/-- What writing several images leaves: a file of its own for each of them. -/
structure IsNumbered (destination : String) (images : List Image) (disk disk' : Disk) : Prop where
  /-- Nothing else changes. -/
  written : Written (numberedNames destination 0 images.length) disk disk'
  /-- No two of the files are at the same place. -/
  apart : ∀ i < images.length, ∀ j < images.length, i ≠ j →
    disk'.locate (numbered destination i) ≠ disk'.locate (numbered destination j)
  /-- Each file holds its image. -/
  held : ∀ (i : Nat) (bound : i < images.length),
    disk'.read (numbered destination i) = .ok (.frames [{ bitmap := images[i].bitmap }])
  /-- Each path is read as one image, with the pixels of its image. -/
  readBack : ∀ (i : Nat) (bound : i < images.length) (request : ReadRequest),
    request.source = numbered destination i → request.ping = false →
    ∃ image, read request disk' = .ok [image] ∧ image.bitmap = images[i].bitmap

/-- Images go to numbered files if each of these can be written, and each file holds its image. -/
theorem exists_writeNumbered
    {format : FileFormat}
    (known : formatTo destination = .ok format)
    (images : List Image)
    (index : Nat)
    (disk : Disk)
    (accepted : ∀ i, index ≤ i → i < index + images.length →
      ∃ place, disk.placeToWrite (numbered destination i) = .ok place) :
    ∃ disk', writeNumbered destination index images disk = (.ok (), disk') ∧
      ∀ (i : Nat) (bound : i < images.length),
        disk'.read (numbered destination (index + i)) =
          .ok (.frames [frameOf format images[i]]) := by
  induction images generalizing index disk with
  | nil => exact ⟨disk, rfl, fun i bound => absurd bound (Nat.not_lt_zero i)⟩
  | cons image rest inductionHypothesis =>
      obtain ⟨place, found⟩ := accepted index le_rfl (by simp)
      obtain ⟨led, -⟩ := Disk.placeToWrite_eq_ok found
      have first : disk.write (numbered destination index) (.frames [frameOf format image]) =
          .ok (disk.insertAt place (.frames [frameOf format image])) := by
        rw [Disk.write, found]
        rfl
      have directories := (Disk.write_written first).directories
      obtain ⟨disk', done, held⟩ := inductionHypothesis (index + 1)
        (disk.insertAt place (.frames [frameOf format image])) fun i from_ below => by
          obtain ⟨place, found⟩ := accepted i (by omega) (by simp; omega)
          exact ⟨place, directories.placeToWrite_eq_ok_iff.mpr found⟩
      have run : writeNumbered destination index (image :: rest) disk = (.ok (), disk') := by
        have one : writeOne image (numbered destination index) disk =
            (.ok (), disk.insertAt place (.frames [frameOf format image])) := by
          simp only [writeOne, formatTo_numbered known, writeFile, first]
        rw [writeNumbered_cons, one]
        exact done
      refine ⟨disk', run, fun i bound => ?_⟩
      cases i with
      | zero =>
          have kept := read_of_writeNumbered (formatTo_numbered known) first rest
            fun name mem place led => ?_
          · rwa [run] at kept
          · obtain ⟨other, range, rfl⟩ := List.mem_map.mp mem
            have after : index + 1 ≤ other := (List.mem_range'_1.mp range).1
            exact locate_numbered_ne (by omega) led
      | succ i =>
          have later := held i (Nat.lt_of_succ_lt_succ bound)
          rwa [Nat.add_assoc, Nat.add_comm 1 i] at later

/-! ## Sources that make images up -/

/-- The scheme of a source that makes an image up. -/
def IsScheme (scheme : List Char) : Prop :=
  ["xc", "canvas", "null"].contains (String.ofList (Text.lower scheme))

theorem IsScheme.notMem
    {scheme : List Char}
    (isScheme : IsScheme scheme)
    {c : Char}
    (other : c.toLower ∉ "xcanvasnull".toList) :
    c ∉ scheme := by
  intro mem
  have lower : c.toLower ∈ Text.lower scheme := List.mem_map_of_mem mem
  have words : String.ofList (Text.lower scheme) = "xc" ∨
      String.ofList (Text.lower scheme) = "canvas" ∨
        String.ofList (Text.lower scheme) = "null" := by
    simpa [IsScheme] using isScheme
  apply other
  rcases words with word | word | word <;>
    rw [← String.toList_ofList (l := Text.lower scheme), word] at lower <;>
    revert lower <;> simp <;> grind

/-- A source makes an image up if it starts with one of the schemes. -/
theorem makesUp_iff
    {source : String} :
    makesUp source ↔ ∃ scheme, IsScheme scheme ∧ scheme ++ [':'] <+: source.toList := by
  unfold makesUp
  constructor
  · intro made
    split at made
    · next scheme rest cut =>
      obtain ⟨shape, -⟩ := Text.cut?_eq_some_iff.mp cut
      exact ⟨scheme, made, rest, by rw [shape]; simp⟩
    · cases made
  · rintro ⟨scheme, isScheme, rest, shape⟩
    have cut : Text.cut? ':' source.toList = some (scheme, rest) :=
      Text.cut?_eq_some_iff.mpr ⟨by rw [← shape]; simp, isScheme.notMem (by decide)⟩
    rw [cut]
    exact isScheme

/-- The destination that takes everything is no path. -/
theorem notNull_of_isPath
    (isPath : makesUp destination = false) :
    sameWord destination "null:" = false := by
  refine Bool.eq_false_iff.mpr fun same => ?_
  have lowered : destination.toList.map Char.toLower = "null".toList ++ [':'] := by
    simpa [sameWord, Text.sameIgnoringCase, Text.lower] using same
  obtain ⟨scheme, last, shape, word, mark⟩ := List.map_eq_append_iff.mp lowered
  obtain ⟨c, rfl, colon⟩ := List.map_eq_singleton_iff.mp mark
  obtain rfl := Text.eq_of_toLower_eq (by decide) colon
  have made : makesUp destination :=
    makesUp_iff.mpr ⟨scheme, by simp [IsScheme, Text.lower, word], shape ▸ List.prefix_rfl⟩
  rw [made] at isPath
  cases isPath

/-- A numbered file has the path of a file if the destination has one. -/
theorem makesUp_numbered
    {extension : List Char}
    (cut : Path.extension? destination.toList = some extension)
    (isPath : makesUp destination = false)
    (index : Nat) :
    makesUp (numbered destination index) = false := by
  obtain ⟨name, found, last⟩ := Option.bind_eq_some_iff.mp cut
  obtain ⟨shape, -⟩ := Path.eq_append_of_cutName last
  refine Bool.eq_false_iff.mpr fun made => ?_
  obtain ⟨scheme, isScheme, leads⟩ := makesUp_iff.mp made
  -- A scheme with its colon holds neither a slash nor a dash, so it ends in front of them.
  have notMem {c : Char} (other : c.toLower ∉ "xcanvasnull".toList) (notColon : c ≠ ':') :
      c ∉ scheme ++ [':'] := by
    simp [isScheme.notMem other, notColon]
  rw [toList_numbered, numberedFolder] at leads
  have begins : scheme ++ [':'] <+: destination.toList := by
    rcases Path.withFileName_cases found with ⟨none, starts⟩ | ⟨front, folder, starts⟩
    · have stem : Path.stem? destination.toList = some (Path.cutName name).1 := by
        rw [Path.stem?, found, Option.map_some]
      rw [none, List.nil_append, numberedName, cut, stem, Option.getD_some] at leads
      dsimp only at leads
      rw [List.append_assoc, List.cons_append] at leads
      have inStem := Text.prefix_of_prefix_append_cons (notMem (by decide) (by decide)) leads
      exact inStem.trans (.trans ⟨_, shape.symm⟩ starts)
    · rw [folder, List.append_assoc, List.singleton_append] at leads
      have inFront := Text.prefix_of_prefix_append_cons (notMem (by decide) (by decide)) leads
      exact inFront.trans starts
  rw [makesUp_iff.mpr ⟨scheme, isScheme, begins⟩] at isPath
  cases isPath

/-- A PNG file keeps all of an image's pixels. -/
theorem frameOf_png
    (image : Image) :
    frameOf .png image = { bitmap := image.bitmap } :=
  rfl

/-- Several images for PNG files are numbered, whatever is asked about joining them. -/
theorem write_eq_writeNumbered
    {images : List Image}
    (several : 2 ≤ images.length)
    (request : WriteRequest)
    (isPath : makesUp request.destination = false)
    (known : formatTo request.destination = .ok .png)
    (disk : Disk) :
    write images request disk = writeNumbered request.destination 0 images disk := by
  match images, several with
  | first :: second :: rest, _ =>
      exact write_several request (notNull_of_isPath isPath) known nofun first second rest disk

section

-- What a write does would be unfolded to compare the two sides.
attribute [local irreducible] write writeNumbered

/-- **Numbered files.** Different numbers make different paths.  Several images that are written to
a destination for PNG files go to numbered files, one for each image, whatever is asked about
joining them, if the disk takes a file under each of these names; nothing else changes, and each
path is read as the image that was written there. -/
theorem numbered_files_read_back :
    (∀ destination, Function.Injective (numbered destination)) ∧
      ∀ (images : List Image) (request : WriteRequest) (disk : Disk),
        2 ≤ images.length →
        formatTo request.destination = .ok .png →
        makesUp request.destination = false →
        (∀ i < images.length,
          ∃ place, disk.placeToWrite (numbered request.destination i) = .ok place) →
        ∃ disk', write images request disk = (.ok (), disk') ∧
          IsNumbered request.destination images disk disk' := by
  refine ⟨numbered_injective, fun images request disk several known isPath accepted => ?_⟩
  obtain ⟨extension, cut, -⟩ := exists_extension known
  obtain ⟨disk', done, frames⟩ := exists_writeNumbered known images 0 disk
    fun i _ below => accepted i (by simpa using below)
  have whole : write images request disk = (.ok (), disk') :=
    (write_eq_writeNumbered several request isPath known disk).trans done
  have written := writeNumbered_written request.destination 0 images disk
  rw [done] at written
  have held (i : Nat) (bound : i < images.length) :
      disk'.read (numbered request.destination i) =
        .ok (.frames [{ bitmap := images[i].bitmap }]) := by
    have kept := frames i bound
    rwa [Nat.zero_add, frameOf_png] at kept
  refine ⟨disk', whole, written, ?_, held, ?_⟩
  · intro i bound j _ different
    obtain ⟨place, led, -⟩ := Disk.read_eq_ok_iff.mp (held i bound)
    exact fun same => locate_numbered_ne different led (same ▸ led)
  · intro i bound r source notPinged
    obtain ⟨place, found⟩ := accepted i bound
    have noDirectory : disk'.isDirectory r.source = false := by
      rw [source, written.directories.isDirectory_eq]
      exact Disk.isDirectory_of_placeToWrite found
    have isFile : makesUp r.source = false := source ▸ makesUp_numbered cut isPath i
    refine ⟨ofFrame r.source 0 { bitmap := images[i].bitmap }, ?_, rfl⟩
    rw [read_of_path r isFile noDirectory, notPinged]
    exact readFile_eq_ok_iff.mpr ⟨_, source ▸ held i bound, rfl⟩

end

/-- A disk without files takes a file under the name of one. -/
theorem placeToWrite_empty
    {path : String}
    (isName : Path.IsFileName path.toList)
    (plain : '\x00' ∉ path.toList)
    (short : path.utf8ByteSize ≤ 255) :
    Disk.placeToWrite {} path = .ok [path] := by
  have pieces : (path.toList.splitOn '/').map String.ofList = [path] := by
    rw [List.splitOn_eq_singleton isName.slashless, List.map_singleton, String.ofList_toList]
  have unrooted : path.toList.head? ≠ some '/' :=
    fun first => isName.slashless (List.mem_of_head? first)
  have unended : path.toList.getLast? ≠ some '/' :=
    fun last => isName.slashless (List.mem_of_getLast? last)
  have filled : path.isEmpty = false := by
    refine Bool.eq_false_iff.mpr fun none => ?_
    have meaningful := isName.meaningful
    rw [String.isEmpty_iff.mp none] at meaningful
    cases meaningful
  have notUp : path ≠ ".." := fun same => isName.down (by rw [same]; rfl)
  have led : Disk.locate {} path = .ok [path] := by
    rw [Disk.locate_of_plain _ plain, filled, pieces, Disk.startOf, if_neg unrooted]
    simp [Disk.follow, Disk.isDirectoryAt, isName.meaningful, notUp, Nat.not_lt.mpr short]
  exact Disk.placeToWrite_eq_ok_iff.mpr ⟨unended, led, rfl, rfl⟩

/-- A disk without files takes the files of a destination without a folder. -/
theorem accepted_of_bare
    (bare : numberedFolder destination = [])
    {count : Nat}
    (plain : ∀ i < count, '\x00' ∉ (numbered destination i).toList)
    (short : ∀ i < count, (numbered destination i).utf8ByteSize ≤ 255) :
    ∀ i < count, ∃ place, Disk.placeToWrite {} (numbered destination i) = .ok place := by
  intro i bound
  refine ⟨_, placeToWrite_empty ?_ (plain i bound) (short i bound)⟩
  rw [toList_numbered, bare, List.nil_append]
  exact isFileName_numberedName destination i

/-- Two images go to a disk without files. -/
theorem two_images_read_back :
    let images : List Image :=
      [Image.canvas ⟨1, 1⟩ Color.black, Image.canvas ⟨2, 1⟩ Color.transparent]
    let request : WriteRequest := { destination := "a.png", adjoin := true, quality := none }
    2 ≤ images.length ∧ formatTo request.destination = .ok .png ∧
      makesUp request.destination = false ∧
      (∀ i < images.length,
        ∃ place, Disk.placeToWrite {} (numbered request.destination i) = .ok place) ∧
      ∃ disk', write images request {} = (.ok (), disk') ∧
        IsNumbered request.destination images {} disk' := by
  intro images request
  have known : formatTo request.destination = .ok .png := by decide
  have isPath : makesUp request.destination = false := by decide
  have accepted : ∀ i < images.length,
      ∃ place, Disk.placeToWrite {} (numbered request.destination i) = .ok place :=
    accepted_of_bare (by decide) (by decide) (by decide)
  exact ⟨le_rfl, known, isPath, accepted,
    numbered_files_read_back.2 images request {} le_rfl known isPath accepted⟩

/-- Under a destination that looks like a null image two images are written, but their paths are
read as null images. -/
theorem null_destination_not_read_back :
    let images : List Image :=
      [Image.canvas ⟨1, 1⟩ Color.black, Image.canvas ⟨1, 1⟩ Color.white]
    let request : WriteRequest := { destination := "null:a.png", adjoin := true, quality := none }
    formatTo request.destination = .ok .png ∧
      (∀ i < images.length,
        ∃ place, Disk.placeToWrite {} (numbered request.destination i) = .ok place) ∧
      ∃ disk', write images request {} = (.ok (), disk') ∧
        ∀ i < images.length, ∀ r : ReadRequest, r.source = numbered request.destination i →
          ∃ image, read r disk' = .ok [image] ∧
            ∀ written ∈ images, image.bitmap ≠ written.bitmap := by
  intro images request
  have known : formatTo request.destination = .ok .png := by decide
  have accepted : ∀ i < images.length,
      ∃ place, Disk.placeToWrite {} (numbered request.destination i) = .ok place :=
    accepted_of_bare (by decide) (by decide) (by decide)
  obtain ⟨disk', done, -⟩ := exists_writeNumbered known images 0 {}
    fun i _ below => accepted i (by simpa using below)
  refine ⟨known, accepted, disk', ?_, fun i bound r source => ?_⟩
  · refine .trans ?_ done
    exact write_several request (by decide) known nofun _ _ _ {}
  · have cut : ∀ i < 2, (Text.cut? ':' (numbered "null:a.png" i).toList).map Prod.fst =
        some "null".toList := by decide
    obtain ⟨⟨scheme, rest⟩, cut, rfl⟩ := Option.map_eq_some_iff.mp (cut i bound)
    have made : madeUp? r = some (.ok
        { Image.canvas ⟨1, 1⟩ Color.transparent with
            format := "NULL", filename := r.source }) := by
      rw [madeUp?, source, cut]
      rfl
    refine ⟨_, by rw [read, made]; rfl, ?_⟩
    have opaqueOnes : ∀ written ∈ images,
        written.bitmap.raster.pixels.toList ≠ [Color.transparent] := by decide
    intro written mem same
    exact opaqueOnes written mem (congrArg (·.raster.pixels.toList) same.symm)

end ImageFiles
end Darkroom

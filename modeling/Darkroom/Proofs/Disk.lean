import Darkroom.Engine.Files

/-!
# What writing leaves on a disk

A file is written into a directory that is there, so writing makes and removes no directory.  Hence
a path leads to the same place after a write as before, and files at other places are what they
were.
-/

namespace Darkroom
namespace Disk

variable {disk disk' disk'' : Disk} {place : List String} {path : String}

/-! ## Directories -/

/-- Two disks with the same directories. -/
def SameDirectories (disk disk' : Disk) : Prop :=
  ∀ place, disk'.isDirectoryAt place = disk.isDirectoryAt place

theorem isDirectoryAt_iff :
    disk.isDirectoryAt place ↔
      place = [] ∨ ∃ file ∈ disk.files, place <+: file.1 ∧ place ≠ file.1 := by
  simp [isDirectoryAt, List.isPrefixOf_iff_prefix]

/-- Whatever leads on to a directory, or is one, is a directory. -/
theorem isDirectoryAt_of_prefix
    {above : List String}
    (leads : above <+: place)
    (directory : disk.isDirectoryAt place) :
    disk.isDirectoryAt above := by
  rw [isDirectoryAt_iff] at directory ⊢
  obtain rfl | ⟨file, mem, below, other⟩ := directory
  · exact .inl (List.prefix_nil.mp leads)
  · refine .inr ⟨file, mem, leads.trans below, ?_⟩
    rintro rfl
    exact other (below.eq_of_length_le leads.length_le)

/-- A file in a directory that is there makes no directory. -/
theorem insertAt_sameDirectories
    (content : FileContent)
    (within : disk.isDirectoryAt place.dropLast) :
    disk.SameDirectories (disk.insertAt place content) := by
  intro other
  rw [Bool.eq_iff_iff]
  constructor
  · rw [isDirectoryAt_iff]
    rintro (rfl | ⟨file, mem, below, different⟩)
    · exact isDirectoryAt_iff.mpr (.inl rfl)
    · rcases List.mem_append.mp mem with kept | added
      · exact isDirectoryAt_iff.mpr
          (.inr ⟨file, (List.mem_filter.mp kept).1, below, different⟩)
      · obtain rfl := List.mem_singleton.mp added
        have shorter : other.length < place.length :=
          Nat.lt_of_le_of_ne below.length_le fun equal => different (below.eq_of_length equal)
        refine isDirectoryAt_of_prefix ?_ within
        refine List.prefix_of_prefix_length_le below (List.dropLast_prefix place) ?_
        rw [List.length_dropLast]
        exact Nat.le_sub_one_of_lt shorter
  · rw [isDirectoryAt_iff, isDirectoryAt_iff]
    rintro (rfl | ⟨file, mem, below, different⟩)
    · exact .inl rfl
    · by_cases replaced : file.1 = place
      · exact .inr ⟨(place, content), by simp [insertAt], replaced ▸ below, replaced ▸ different⟩
      · exact .inr ⟨file, by simp [insertAt, mem, replaced], below, different⟩

/-! ## Places -/

/-- Only a path with the character zero leads nowhere at once. -/
theorem locate_of_plain
    (disk : Disk)
    (plain : '\x00' ∉ path.toList) :
    disk.locate path =
      if path.isEmpty then .error .missing
      else disk.follow ((path.toList.splitOn '/').map String.ofList) (startOf path.toList) := by
  unfold locate
  rw [String.contains_char_eq, decide_eq_false plain]
  rfl

/-- Names lead to the same place on disks with the same directories. -/
theorem SameDirectories.follow
    (same : disk.SameDirectories disk')
    {names start : List String}
    (led : disk.follow names start = .ok place) :
    disk'.follow names start = .ok place := by
  induction names generalizing start with
  | nil => exact led
  | cons name rest inductionHypothesis =>
      rw [Disk.follow] at led ⊢
      rw [same start]
      split at led
      · cases led
      · next directory =>
        rw [if_neg directory]
        split at led
        · cases led
        · next fits =>
          rw [if_neg fits]
          split at led
          · next idle => exact (if_pos idle).trans (inductionHypothesis led)
          · next named =>
            rw [if_neg named]
            split at led
            · next up => exact (if_pos up).trans (inductionHypothesis led)
            · next down => exact (if_neg down).trans (inductionHypothesis led)

namespace SameDirectories

theorem refl
    (disk : Disk) :
    disk.SameDirectories disk :=
  fun _ => rfl

theorem symm
    (same : disk.SameDirectories disk') :
    disk'.SameDirectories disk :=
  fun place => (same place).symm

theorem trans
    (first : disk.SameDirectories disk')
    (second : disk'.SameDirectories disk'') :
    disk.SameDirectories disk'' :=
  fun place => (second place).trans (first place)

theorem locate_eq_ok_iff
    (same : disk.SameDirectories disk') :
    disk'.locate path = .ok place ↔ disk.locate path = .ok place := by
  unfold Disk.locate
  split
  · simp
  · split
    · simp
    · exact ⟨same.symm.follow, same.follow⟩

/-- A path that leads to no directory leads to none on a disk with the same directories. -/
theorem isDirectory_eq
    (same : disk.SameDirectories disk') :
    disk'.isDirectory path = disk.isDirectory path := by
  unfold isDirectory
  cases led : disk.locate path with
  | ok place =>
      rw [same.locate_eq_ok_iff.mpr led]
      exact same place
  | error fault =>
      cases led' : disk'.locate path with
      | error fault' => rfl
      | ok place =>
          rw [same.locate_eq_ok_iff.mp led'] at led
          cases led

end SameDirectories

/-! ## Files -/

/-- What is read under a path is the file at its place. -/
theorem read_eq_ok_iff
    {content : FileContent} :
    disk.read path = .ok content ↔
      ∃ place, disk.locate path = .ok place ∧ disk.fileAt? place = some content := by
  unfold read
  cases disk.locate path with
  | error fault => simp [bind, Except.bind]
  | ok place =>
      dsimp only [bind, Except.bind]
      cases found : disk.fileAt? place <;> simp [found]

theorem fileAt?_insertAt_self
    (disk : Disk)
    (place : List String)
    (content : FileContent) :
    (disk.insertAt place content).fileAt? place = some content := by
  unfold fileAt? insertAt
  induction disk.files with
  | nil => simp
  | cons file rest inductionHypothesis =>
      obtain ⟨name, held⟩ := file
      by_cases replaced : name = place
      · rw [List.filter_cons_of_neg (by simp [replaced]), inductionHypothesis]
      · rw [List.filter_cons_of_pos (by simp [replaced]), List.cons_append, List.lookup_cons,
          inductionHypothesis, beq_false_of_ne (Ne.symm replaced)]

theorem fileAt?_insertAt
    (content : FileContent)
    {other : List String}
    (different : other ≠ place) :
    (disk.insertAt place content).fileAt? other = disk.fileAt? other := by
  unfold fileAt? insertAt
  have missed : (other == place) = false := beq_false_of_ne different
  induction disk.files with
  | nil => simp [List.lookup_cons, missed]
  | cons file rest inductionHypothesis =>
      obtain ⟨name, held⟩ := file
      by_cases replaced : name = place
      · rw [List.filter_cons_of_neg (by simp [replaced]), inductionHypothesis, replaced,
          List.lookup_cons, missed]
      · rw [List.filter_cons_of_pos (by simp [replaced]), List.cons_append, List.lookup_cons,
          inductionHypothesis, List.lookup_cons]

/-- Files changed at most where the names lead, and no directory was made or removed. -/
structure Written (names : List String) (disk disk' : Disk) : Prop where
  /-- The directories are the same. -/
  directories : disk.SameDirectories disk'
  /-- A file elsewhere is what it was. -/
  elsewhere : ∀ place, (∀ name ∈ names, disk.locate name ≠ .ok place) →
    disk'.fileAt? place = disk.fileAt? place

namespace Written

variable {names more : List String}

theorem nothing
    (names : List String)
    (disk : Disk) :
    Written names disk disk :=
  ⟨.refl disk, fun _ _ => rfl⟩

theorem trans
    (first : Written names disk disk')
    (second : Written more disk' disk'') :
    Written (names ++ more) disk disk'' where
  directories := first.directories.trans second.directories
  elsewhere place other := by
    rw [second.elsewhere place, first.elsewhere place]
    · exact fun name mem => other name (List.mem_append_left _ mem)
    · intro name mem led
      exact other name (List.mem_append_right _ mem) (first.directories.locate_eq_ok_iff.mp led)

theorem mono
    (written : Written names disk disk')
    (subset : names ⊆ more) :
    Written more disk disk' where
  directories := written.directories
  elsewhere place other := written.elsewhere place fun name mem => other name (subset mem)

/-- A file that no name leads to is read as before. -/
theorem read_eq_ok
    (written : Written names disk disk')
    {content : FileContent}
    (read : disk.read path = .ok content)
    (elsewhere : ∀ name ∈ names, ∀ place, disk.locate path = .ok place →
      disk.locate name ≠ .ok place) :
    disk'.read path = .ok content := by
  obtain ⟨place, led, found⟩ := read_eq_ok_iff.mp read
  refine read_eq_ok_iff.mpr ⟨place, written.directories.locate_eq_ok_iff.mpr led, ?_⟩
  rw [written.elsewhere place fun name mem => elsewhere name mem place led]
  exact found

end Written

/-- A path can be written to if it ends with no slash and leads into a directory that is there, and
to none. -/
theorem placeToWrite_eq_ok_iff :
    disk.placeToWrite path = .ok place ↔
      path.toList.getLast? ≠ some '/' ∧ disk.locate path = .ok place ∧
        disk.isDirectoryAt place = false ∧ disk.isDirectoryAt place.dropLast := by
  unfold placeToWrite
  dsimp only
  split
  · next slash =>
    cases disk.locate (String.ofList (path.toList.reverse.dropWhile (· == '/')).reverse) <;>
      simp [slash, bind, Except.bind]
  · next slash =>
    cases led : disk.locate path with
    | error fault => simp [bind, Except.bind]
    | ok reached =>
        simp only [bind, Except.bind]
        split
        · next directory =>
          simp only [reduceCtorEq, false_iff]
          rintro ⟨-, ⟨⟩, none, -⟩
          rw [directory] at none
          cases none
        · next noDirectory =>
          rw [Bool.not_eq_true] at noDirectory
          split
          · next within =>
            constructor
            · rintro ⟨⟩
              exact ⟨slash, rfl, noDirectory, within⟩
            · rintro ⟨-, ⟨⟩, -, -⟩
              rfl
          · next without =>
            simp only [reduceCtorEq, false_iff]
            rintro ⟨-, ⟨⟩, -, within⟩
            exact without within

/-- A place that can be written to is the place of the path, in a directory that is there. -/
theorem placeToWrite_eq_ok
    (found : disk.placeToWrite path = .ok place) :
    disk.locate path = .ok place ∧ disk.isDirectoryAt place.dropLast := by
  obtain ⟨-, led, -, within⟩ := placeToWrite_eq_ok_iff.mp found
  exact ⟨led, within⟩

/-- What can be written to can be on a disk with the same directories. -/
theorem SameDirectories.placeToWrite_eq_ok_iff
    (same : disk.SameDirectories disk') :
    disk'.placeToWrite path = .ok place ↔ disk.placeToWrite path = .ok place := by
  rw [Disk.placeToWrite_eq_ok_iff, Disk.placeToWrite_eq_ok_iff, same.locate_eq_ok_iff, same place,
    same place.dropLast]

/-- No directory is where a file can be written. -/
theorem isDirectory_of_placeToWrite
    (found : disk.placeToWrite path = .ok place) :
    disk.isDirectory path = false := by
  obtain ⟨-, led, none, -⟩ := placeToWrite_eq_ok_iff.mp found
  rw [isDirectory, led]
  exact none

theorem write_eq_ok_iff
    {content : FileContent} :
    disk.write path content = .ok disk' ↔
      ∃ place, disk.placeToWrite path = .ok place ∧ disk.insertAt place content = disk' := by
  unfold write
  cases disk.placeToWrite path <;> simp [Except.map]

/-- A write changes the file of its path alone. -/
theorem write_written
    {content : FileContent}
    (written : disk.write path content = .ok disk') :
    Written [path] disk disk' := by
  obtain ⟨place, found, rfl⟩ := write_eq_ok_iff.mp written
  obtain ⟨led, within⟩ := placeToWrite_eq_ok found
  refine ⟨insertAt_sameDirectories content within, fun other elsewhere => ?_⟩
  refine fileAt?_insertAt content ?_
  rintro rfl
  exact elsewhere path List.mem_cons_self led

/-- What was written is read. -/
theorem read_of_write
    {content : FileContent}
    (written : disk.write path content = .ok disk') :
    disk'.read path = .ok content := by
  have same := (write_written written).directories
  obtain ⟨place, found, rfl⟩ := write_eq_ok_iff.mp written
  obtain ⟨led, -⟩ := placeToWrite_eq_ok found
  exact read_eq_ok_iff.mpr
    ⟨place, same.locate_eq_ok_iff.mpr led, fileAt?_insertAt_self disk place content⟩

end Disk

/-! ## Image files -/

namespace ImageFiles

open Disk (Written)

/-- Whether a source makes an image up and is no path. -/
def makesUp (source : String) : Bool :=
  match Text.cut? ':' source.toList with
  | some (scheme, _) => ["xc", "canvas", "null"].contains (String.ofList (Text.lower scheme))
  | none => false

theorem madeUp?_eq_none
    {request : ReadRequest}
    (isPath : makesUp request.source = false) :
    madeUp? request = none := by
  unfold makesUp at isPath
  unfold madeUp?
  cases cut : Text.cut? ':' request.source.toList with
  | none => rfl
  | some parts =>
      obtain ⟨scheme, rest⟩ := parts
      rw [cut] at isPath
      rw [Option.bind_some]
      dsimp only at isPath ⊢
      split
      · next is => simp [is] at isPath
      · next is => simp [is] at isPath
      · next is => simp [is] at isPath
      · rfl

/-- The path of a file is read as that file. -/
theorem read_of_path
    (request : ReadRequest)
    {disk : Disk}
    (isPath : makesUp request.source = false)
    (noDirectory : disk.isDirectory request.source = false) :
    read request disk = readFile disk request.ping request.source := by
  rw [read, madeUp?_eq_none isPath]
  simp [noDirectory]

/-- The images of a file are made from what it holds. -/
theorem readFile_eq_ok_iff
    {disk : Disk}
    {path : String}
    {images : List Image} :
    readFile disk false path = .ok images ↔
      ∃ content, disk.read path = .ok content ∧ ofContent path content = .ok images := by
  rw [readFile, if_neg Bool.false_ne_true]
  cases disk.read path <;> simp

/-- The names of numbered files. -/
def numberedNames (destination : String) (index count : Nat) : List String :=
  (List.range' index count).map (numbered destination)

/-- The names of the files that a number of images is written to. -/
def namesWritten (count : Nat) (request : WriteRequest) : List String :=
  let destination := request.destination
  if sameWord destination "null:" then []
  else match count with
    | 0 => []
    | 1 => [destination]
    | count =>
        if !request.adjoin then numberedNames destination 0 count
        else match formatTo destination with
          | .error _ => []
          | .ok .gif => [destination]
          | .ok _ => numberedNames destination 0 count

theorem numberedNames_succ
    (destination : String)
    (index count : Nat) :
    numberedNames destination index (count + 1) =
      numbered destination index :: numberedNames destination (index + 1) count := by
  rw [numberedNames, List.range'_succ, List.map_cons, numberedNames]

theorem writeFile_written
    (destination : String)
    (frames : List Frame)
    (refusal : DiskFault → EngineFault)
    (disk : Disk) :
    Written [destination] disk (writeFile destination frames refusal disk).2 := by
  unfold writeFile
  split
  · next disk' done => exact Disk.write_written done
  · exact .nothing _ disk

theorem writeOne_written
    (image : Image)
    (destination : String)
    (disk : Disk) :
    Written [destination] disk (writeOne image destination disk).2 := by
  unfold writeOne
  split
  · exact .nothing _ disk
  · exact writeFile_written destination _ _ disk

section

-- What a write of one image does would be unfolded to compare the two sides.
attribute [local irreducible] writeOne

theorem writeNumbered_cons
    (destination : String)
    (index : Nat)
    (image : Image)
    (rest : List Image)
    (disk : Disk) :
    writeNumbered destination index (image :: rest) disk =
      match writeOne image (numbered destination index) disk with
      | (.ok (), disk) => writeNumbered destination (index + 1) rest disk
      | refused => refused :=
  rfl

theorem writeNumbered_written
    (destination : String)
    (index : Nat)
    (images : List Image)
    (disk : Disk) :
    Written (numberedNames destination index images.length) disk
      (writeNumbered destination index images disk).2 := by
  induction images generalizing index disk with
  | nil => exact Written.nothing [] disk
  | cons image rest inductionHypothesis =>
      have first := writeOne_written image (numbered destination index) disk
      rw [writeNumbered_cons, List.length_cons, numberedNames_succ]
      generalize writeOne image (numbered destination index) disk = written at first ⊢
      obtain ⟨refusal | ⟨⟩, disk'⟩ := written
      · exact first.mono (List.cons_subset_cons _ (List.nil_subset _))
      · exact first.trans (inductionHypothesis (index + 1) disk')

end

/-- The first numbered file holds the first image, if the others are other files. -/
theorem read_of_writeNumbered
    {destination : String}
    {index : Nat}
    {format : FileFormat}
    {image : Image}
    {disk disk' : Disk}
    (known : formatTo (numbered destination index) = .ok format)
    (written : disk.write (numbered destination index) (.frames [frameOf format image]) = .ok disk')
    (rest : List Image)
    (elsewhere : ∀ name ∈ numberedNames destination (index + 1) rest.length, ∀ place,
      disk'.locate (numbered destination index) = .ok place → disk'.locate name ≠ .ok place) :
    (writeNumbered destination index (image :: rest) disk).2.read (numbered destination index) =
      .ok (.frames [frameOf format image]) := by
  have first : writeOne image (numbered destination index) disk = (.ok (), disk') := by
    simp only [writeOne, known, writeFile, written]
  rw [writeNumbered_cons, first]
  exact (writeNumbered_written destination (index + 1) rest disk').read_eq_ok
    (Disk.read_of_write written) elsewhere

section

attribute [local irreducible] writeFile writeOne writeNumbered

/-- Several images go to numbered files if a file of the format holds one image. -/
theorem write_several
    (request : WriteRequest)
    (taken : sameWord request.destination "null:" = false)
    {format : FileFormat}
    (known : formatTo request.destination = .ok format)
    (still : format ≠ .gif)
    (first second : Image)
    (rest : List Image)
    (disk : Disk) :
    write (first :: second :: rest) request disk =
      writeNumbered request.destination 0 (first :: second :: rest) disk := by
  unfold write
  -- The case on the format ends here because the animation is ruled out.
  simp only [taken, known]
  cases request.adjoin <;> rfl

theorem namesWritten_several
    (request : WriteRequest)
    (taken : sameWord request.destination "null:" = false)
    {format : FileFormat}
    (known : formatTo request.destination = .ok format)
    (still : format ≠ .gif)
    (more : Nat) :
    namesWritten (more + 2) request = numberedNames request.destination 0 (more + 2) := by
  unfold namesWritten
  simp only [taken, known]
  cases request.adjoin <;> rfl

/-- Writing images changes at most the files of the names they are written to. -/
theorem write_written
    (images : List Image)
    (request : WriteRequest)
    (disk : Disk) :
    Written (namesWritten images.length request) disk (write images request disk).2 := by
  unfold write namesWritten
  dsimp only
  split
  · exact .nothing _ disk
  · match images with
    | [] => exact .nothing _ disk
    | [image] => exact writeOne_written image _ disk
    | first :: second :: rest =>
        have numbered := writeNumbered_written request.destination 0 (first :: second :: rest) disk
        cases request.adjoin with
        | false => exact numbered
        | true =>
            cases formatTo request.destination with
            | error refusal => exact .nothing _ disk
            | ok format =>
                cases format with
                | gif => exact writeFile_written _ _ _ disk
                | _ => exact numbered

end

end ImageFiles
end Darkroom

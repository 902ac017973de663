import AppBundle.Proofs.FileSystem.Below
import AppBundle.Proofs.FileSystem.Directories

namespace AppBundle.FileSystem

/-! The outside of a directory. Making directories beneath it changes nothing there, and so a path that
stays outside reads the same before and after.
-/

open AppBundle.Path

variable {files before after made : FileSystem} {path directory : Path}
  {here location : Location} {names : List RawText}

/-- A directory that is there, or the place where paths begin. -/
def Rooted (files : FileSystem) (directory : Path) : Prop :=
  files.isDirectory directory = true ∨ directory.moving = []

theorem Grows.rooted (grows : before.Grows after) (rooted : before.Rooted directory) :
    after.Rooted directory :=
  rooted.imp_left grows.isDirectory

theorem rooted_of_makeDirectories (done : files.makeDirectories path = (made, true)) :
    made.Rooted path := by
  by_cases empty : path.text = ""
  · refine .inr ?_
    rw [moving, empty]
    rfl
  · cases outer : path.parent? with
    | none => exact .inr (root_of_parent?_none outer empty).2
    | some parent => exact .inl (isDirectory_of_makeDirectories empty (by simp [outer]) done)

theorem moving_of_makeDirectory (done : files.makeDirectory path = .ok made) : path.moving ≠ [] := by
  obtain ⟨admitted, _, _, isDirectory⟩ := makeDirectory_makes done
  rw [makeDirectory_eq admitted (isDirectory_iff.mp isDirectory).2.1] at done
  obtain ⟨location, room, _⟩ := bind_ok.mp done
  obtain ⟨_, name, last, _, _, notStay, _, _, _⟩ := newLocation_ok room
  have moves' : ¬(name = "" ∨ name = ".") := not_or.mpr ⟨ne_empty_of_rdropWhile last, notStay⟩
  have moved : moves ((files.start path).2.rdropWhile (· = ("" : RawText))) = path.moving := by
    rw [moves_rdropWhile]
    exact (files.start_names path).1
  rw [← moved, ← List.dropLast_append_getLast? name last, moves_append, moves_move moves']
  simp

/-- A directory that is there is not made. -/
theorem Rooted.inner (rooted : files.Rooted directory) (goesOn : directory.Extends names path)
    (done : files.makeDirectory path = .ok made) : names ≠ [] := by
  rintro rfl
  rcases rooted with opened | begins
  · obtain ⟨_, free, _⟩ := makeDirectory_makes done
    have leads : files.destination path = files.destination directory ++ [] :=
      goesOn.placeFrom files.workingDirectory
    rw [leads, List.append_nil, entryAt?_of_isDirectory opened] at free
    cases free
  · refine moving_of_makeDirectory done ?_
    rw [goesOn.moving, begins]
    rfl

theorem makeDirectory_along (rooted : files.Rooted directory)
    (goesOn : directory.Extends names path)
    (off : names ≠ [] → location ≠ files.destination directory ++ names)
    (done : files.makeDirectory path = .ok made) :
    made.entryAt? location = files.entryAt? location := by
  have inner := rooted.inner goesOn done
  obtain ⟨_, _, rfl, _⟩ := makeDirectory_makes done
  have leads : files.destination path = files.destination directory ++ names :=
    goesOn.placeFrom files.workingDirectory
  rw [leads, entryAt?_put (by simp [inner]), if_neg (off inner)]

theorem makeNested_cons_along {outer : List Path} (rooted : files.Rooted directory)
    (goesOn : directory.Extends names path)
    (off : names ≠ [] → location ≠ files.destination directory ++ names)
    (around : (files.makeNested outer).1.entryAt? location = files.entryAt? location) :
    (files.makeNested (path :: outer)).1.entryAt? location = files.entryAt? location := by
  have expands : files.Expands (files.makeNested outer).1 := expands_makeNested
  rw [makeNested]
  split
  · rfl
  · split
    · next made done => exact makeDirectory_along rooted goesOn off done
    · rfl
    · rfl
    · split
      · next middle stopped =>
          rw [stopped] at around
          exact around
      · next middle complete =>
          rw [complete] at around expands
          split
          · next made done =>
              rw [← expands.grows.destination] at off
              rw [makeDirectory_along (expands.grows.rooted rooted) goesOn off done, around]
          · exact around
          · exact around

theorem admits_of_missing (missing : files.makeDirectory path = .error .missing) :
    admits path = true := by
  unfold makeDirectory at missing
  dsimp only at missing
  split at missing
  · cases missing
  · next admitted => simpa using admitted

theorem makeNested_beyond {fuel : Nat} {outer : List Path} (still : path.moving = [])
    (paths : ancestors fuel path = path :: outer) : files.makeNested outer = (files, true) := by
  cases fuel with
  | zero =>
      cases paths
      rfl
  | succ fuel =>
      rw [ancestors] at paths
      split at paths
      · next parent found =>
          obtain ⟨more, paths'⟩ := ancestors_cons fuel parent
          obtain rfl : ancestors fuel parent = outer := (List.cons.inj paths).2
          rw [paths', makeNested, if_pos (.inl (parent?_of_still still found))]
      · cases paths
        rfl

/-- Nothing is made around a directory that is there. -/
theorem Rooted.makeNested {fuel : Nat} (rooted : files.Rooted directory)
    (goesOn : directory.Extends [] path) : (files.makeNested (ancestors fuel path)).1 = files := by
  have never (made : FileSystem) : files.makeDirectory path ≠ .ok made := fun done =>
    rooted.inner goesOn done rfl
  obtain ⟨outer, paths⟩ := ancestors_cons fuel path
  rw [paths, FileSystem.makeNested]
  split
  · rfl
  · next named =>
      split
      · next made done => exact absurd done (never made)
      · rfl
      · rfl
      · next missing =>
          rcases rooted with opened | begins
          · have isDirectory := isDirectory_of_moving opened goesOn.absolute
              (goesOn.moving.trans (List.append_nil _)) (admits_of_missing missing)
              (not_or.mp named).1
            rw [makeDirectory_of_isDirectory isDirectory] at missing
            cases missing
          · have beyond : files.makeNested outer = (files, true) :=
              makeNested_beyond (goesOn.moving.trans (by rw [begins]; rfl)) paths
            rw [beyond]
            dsimp only
            split
            · next made done => exact absurd done (never made)
            · rfl
            · rfl

theorem makeNested_along {fuel : Nat} (rooted : files.Rooted directory)
    (goesOn : directory.Extends names path)
    (off : ∀ front, front ≠ [] → front <+: names → location ≠ files.destination directory ++ front) :
    (files.makeNested (ancestors fuel path)).1.entryAt? location = files.entryAt? location := by
  induction names using List.reverseRecOn generalizing path fuel with
  | nil => rw [rooted.makeNested goesOn]
  | append_singleton front last ih =>
      have name : IsName last := goesOn.plain last (by simp)
      have moved := goesOn.moving
      rw [← List.append_assoc] at moved
      obtain ⟨parent, found, _, moving, absolute, _, _⟩ := parent?_moving name moved
      have around : directory.Extends front parent :=
        ⟨absolute.trans goesOn.absolute, moving,
          fun other member => goesOn.plain other (List.mem_append_left _ member)⟩
      have whole := fun inner => off (front ++ [last]) inner (List.prefix_refl _)
      cases fuel with
      | zero => exact makeNested_cons_along rooted goesOn whole rfl
      | succ fuel =>
          rw [ancestors, found]
          refine makeNested_cons_along rooted goesOn whole (ih around fun other inner begins => ?_)
          exact off other inner (begins.trans (List.prefix_append ..))

theorem destination_of_root (outermost : path.parent? = none) (nonempty : path.text ≠ "") :
    files.destination path = [] := by
  obtain ⟨absolute, still⟩ := root_of_parent?_none outermost nonempty
  have names : moves (path.text.parts slash) = [] := still
  rw [destination, placeFrom, absolute, ← foldl_advance_moves, names]
  rfl

theorem entryAt?_of_makeDirectories (nonempty : path.text ≠ "")
    (done : files.makeDirectories path = (made, true)) :
    made.entryAt? (made.destination path) = some .directory := by
  cases outer : path.parent? with
  | none =>
      rw [destination_of_root outer nonempty]
      rfl
  | some parent =>
      exact entryAt?_of_isDirectory (isDirectory_of_makeDirectories nonempty (by simp [outer]) done)

/-- All directories on the way down to one that is there are there. -/
theorem entryAt?_on_way {front : List RawText} (isDirectory : files.isDirectory path = true)
    (goesOn : directory.Extends names path) (begins : front <+: names) :
    files.entryAt? (files.destination directory ++ front) = some .directory := by
  obtain ⟨_, _, opened⟩ := isDirectory_iff.mp isDirectory
  obtain ⟨more, rfl⟩ := begins
  rw [goesOn.moving, ← List.append_assoc] at opened
  obtain ⟨location, led, found⟩ := opened.front
  have down : ∀ name ∈ front, name ≠ "" ∧ name ≠ "." ∧ name ≠ ".." :=
    fun name member => (goesOn.plain name (List.mem_append_left _ member)).down
  have moved : moves (files.start directory).2 = directory.moving := (files.start_names directory).1
  have place : location = files.destination directory ++ front := by
    rw [follow_ok led, List.foldl_append, foldl_advance_down down, destination_eq_foldl,
      files.start_congr goesOn.absolute, ← moved, foldl_advance_moves]
  rwa [← place]

/-- Nothing lies where a path leads, nor below. The empty path leads nowhere. -/
def Vacant (files : FileSystem) (path : Path) : Prop :=
  path.text ≠ "" ∧ ∀ location, files.destination path <+: location → files.entryAt? location = none

theorem vacant_iff :
    files.Vacant path ↔ path.text ≠ "" ∧ files.destination path ≠ [] ∧
      ∀ entry ∈ files.entries, ¬files.destination path <+: entry.1 := by
  refine and_congr_right fun _ => ⟨fun vacant => ⟨fun root => ?_, ?_⟩, ?_⟩
  · have nothing := vacant [] (by simp [root])
    cases nothing
  · intro entry member below
    have nothing := vacant entry.1 below
    unfold entryAt? at nothing
    split at nothing
    · cases nothing
    · simpa using List.lookup_eq_none_iff.mp nothing entry member
  · intro vacant location below
    unfold entryAt?
    split
    · exact absurd (List.prefix_nil.mp below) vacant.1
    · refine List.lookup_eq_none_iff.mpr fun entry member => ?_
      have different : location ≠ entry.1 := by
        rintro rfl
        exact vacant.2 entry member below
      simpa using different

instance : Decidable (files.Vacant path) :=
  decidable_of_iff _ vacant_iff.symm

/-- A directory that was made where nothing lay is there. -/
theorem Vacant.isDirectory (vacant : files.Vacant path)
    (done : files.makeDirectories path = (made, true)) : made.isDirectory path = true := by
  refine isDirectory_of_makeDirectories vacant.1 ?_ done
  by_contra outer
  -- such a path is the root, which is there from the start
  have root : files.destination path = [] := destination_of_root (by simpa using outer) vacant.1
  have nothing := vacant.2 [] (by simp [root])
  cases nothing

/-- The places on the way along a path, the last one included. -/
def way (files : FileSystem) (path : Path) : List Location :=
  (files.start path).2.scanl Location.advance (files.start path).1

/-- A path that never goes below the place of a directory. -/
def StaysOutside (files : FileSystem) (directory path : Path) : Prop :=
  ∀ place ∈ files.way path, ¬(files.destination directory).Below place

instance : Decidable (files.StaysOutside directory path) :=
  inferInstanceAs (Decidable (∀ place ∈ files.way path, _))

theorem staysOutside_congr (workingDirectory : after.workingDirectory = before.workingDirectory) :
    after.StaysOutside directory path ↔ before.StaysOutside directory path := by
  simp only [StaysOutside, way, start, FileSystem.destination, workingDirectory]

theorem follow_congr
    (same : ∀ place ∈ names.scanl Location.advance here, after.entryAt? place = before.entryAt? place) :
    after.follow here names = before.follow here names := by
  induction names generalizing here with
  | nil => rfl
  | cons name rest ih =>
      rw [List.scanl_cons, List.forall_mem_cons] at same
      obtain ⟨first, later⟩ := same
      rw [follow, follow, first]
      unfold Location.advance at later
      split
      · rfl
      · rfl
      · split
        · next stays =>
            rw [if_pos stays] at later
            exact ih later
        · next moves =>
            rw [if_neg moves] at later
            split
            · next up =>
                rw [if_pos up] at later
                exact ih later
            · next down =>
                rw [if_neg down] at later
                split
                · rfl
                · exact ih later

theorem foldl_mem_scanl :
    names.foldl Location.advance here ∈ names.scanl Location.advance here := by
  induction names generalizing here with
  | nil => simp
  | cons name rest ih =>
      rw [List.scanl_cons]
      exact List.mem_cons_of_mem _ ih

theorem StaysOutside.destination (outside : files.StaysOutside directory path) :
    ¬(files.destination directory).Below (files.destination path) := by
  refine outside _ ?_
  rw [destination_eq_foldl]
  exact foldl_mem_scanl

/-- Where nothing changed outside of a directory, a path that stays outside reads what it read. -/
theorem StaysOutside.read? (outside : before.StaysOutside directory path)
    (workingDirectory : after.workingDirectory = before.workingDirectory)
    (same : ∀ location, ¬(before.destination directory).Below location →
      after.entryAt? location = before.entryAt? location) :
    after.read? path = before.read? path := by
  have start : after.start path = before.start path := by
    rw [FileSystem.start, FileSystem.start, workingDirectory]
  have follows : after.follow (before.start path).1 (before.start path).2 =
      before.follow (before.start path).1 (before.start path).2 :=
    follow_congr fun place member => same place (outside place member)
  have located : after.locate path = before.locate path := by
    simp only [locate, start, follows]
  unfold FileSystem.read? find?
  rw [located]
  cases leads : before.locate path with
  | error reason => rfl
  | ok location =>
      have place := destination_of_locate leads
      have found := same location (place ▸ outside.destination)
      simp only [found]

end AppBundle.FileSystem

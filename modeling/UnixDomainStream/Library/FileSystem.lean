import Mathlib.Data.List.Basic

/-!
# Paths and the file system

A tree of directories, symbolic links and files; how a path is resolved in it, with
and without following a link in its last place; and the canonical form of a path.

The two readings of one path are compared at the end: a path that leads, unfollowed,
to a vacant place or to a file has that place as its canonical form, unless it is a
single name, which the canonical form of an absent file leaves relative.
-/

namespace UnixDomainStream.Library

variable {Name Content : Type}

/-! ## Paths -/

/-- An element of a path; `trailing` is the empty one after a slash at the end. -/
inductive Component (Name : Type) where
  | name (name : Name)
  | current
  | parent
  | trailing
  deriving DecidableEq, Repr

structure FilePath (Name : Type) where
  absolute : Bool
  components : List (Component Name)
  deriving DecidableEq, Repr

/-- The names that lead from the root to an entry, the last one first. -/
abbrev Location (Name : Type) := List Name

namespace FilePath

def isEmpty (path : FilePath Name) : Bool :=
  !path.absolute && path.components.isEmpty

/-- The path that spells a location out from the root. -/
def ofLocation (location : Location Name) : FilePath Name :=
  ⟨true, location.reverse.map .name⟩

/-- The relative path that is one name. -/
def bare (name : Name) : FilePath Name :=
  ⟨false, [.name name]⟩

/-- One element more in a normal form: the elements kept so far, the last one first,
and whether a slash follows them. -/
def normalizeStep (absolute : Bool) :
    List (Component Name) × Bool → Component Name → List (Component Name) × Bool
  | (kept, _), .name name => (.name name :: kept, false)
  | (kept, _), .current => (kept, true)
  | (kept, _), .trailing => (kept, true)
  | (.name _ :: kept, _), .parent => (kept, true)
  | (kept, _), .parent =>
      if absolute && kept.isEmpty then (kept, true) else (.parent :: kept, false)

/-- The path without `.`, and without a name before `..`. -/
def lexicallyNormal (path : FilePath Name) : FilePath Name :=
  match path.components.foldl (normalizeStep path.absolute) ([], false) with
  | ([], _) => ⟨path.absolute, if path.absolute then [] else [.current]⟩
  | (.name name :: kept, true) => ⟨path.absolute, (.trailing :: .name name :: kept).reverse⟩
  | (kept, _) => ⟨path.absolute, kept.reverse⟩

/-- The path without the slash at its end. -/
def stem (path : FilePath Name) : FilePath Name :=
  match path.components.getLast? with
  | some .trailing => ⟨path.absolute, path.components.dropLast⟩
  | _ => path

/-- The path from the root, for a path relative to `directory`. -/
def absoluteIn (directory : Location Name) (path : FilePath Name) : FilePath Name :=
  if path.absolute then path
  else ⟨true, (ofLocation directory).components ++ path.components⟩

theorem foldl_names (absolute : Bool) (names : List Name)
    (kept : List (Component Name)) :
    (names.map Component.name).foldl (normalizeStep absolute) (kept, false) =
      ((names.map Component.name).reverse ++ kept, false) := by
  induction names generalizing kept with
  | nil => rfl
  | cons name names ih =>
      rw [List.map_cons, List.foldl_cons, normalizeStep, ih]
      simp

theorem lexicallyNormal_ofLocation (name : Name) (directory : Location Name) :
    (ofLocation (name :: directory)).lexicallyNormal = ofLocation (name :: directory) := by
  have folded := foldl_names true (name :: directory).reverse []
  simp only [List.append_nil] at folded
  simp [lexicallyNormal, ofLocation] at folded ⊢
  simp [folded]

theorem ofLocation_injective {location other : Location Name}
    (same : ofLocation location = ofLocation other) : location = other := by
  have components := congrArg FilePath.components same
  have names := List.map_injective_iff.mpr (fun _ _ => Component.name.inj) components
  exact List.reverse_injective names

theorem ofLocation_ne_bare (location : Location Name) (name : Name) :
    ofLocation location ≠ bare name := by
  intro same
  cases congrArg FilePath.absolute same

end FilePath

variable [DecidableEq Name]

/-! ## The tree -/

inductive Entry (Name Content : Type) where
  | directory
  | symlink (target : FilePath Name)
  | file (content : Content)
  deriving DecidableEq

def Entry.isDirectory : Entry Name Content → Bool
  | .directory => true
  | _ => false

def Entry.isSymlink : Entry Name Content → Bool
  | .symlink _ => true
  | _ => false

/-- What a list of entries has at a location; the root is a directory. -/
def entryAt (entries : List (Location Name × Entry Name Content)) :
    Location Name → Option (Entry Name Content)
  | [] => some .directory
  | name :: directory => (entries.find? (·.1 = name :: directory)).map (·.2)

/-- Entries whose parents are directories. -/
structure FileSystem (Name Content : Type) [DecidableEq Name] where
  entries : List (Location Name × Entry Name Content)
  rooted : ∀ entry ∈ entries, entryAt entries entry.1.tail = some .directory

namespace FileSystem

def lookup (fs : FileSystem Name Content) (location : Location Name) :
    Option (Entry Name Content) :=
  entryAt fs.entries location

def isDirectory (fs : FileSystem Name Content) (location : Location Name) : Bool :=
  (fs.lookup location).any Entry.isDirectory

/-- A place that an entry can be put in or taken from: its parent is a directory, and
nothing is below it. -/
def Leaf (fs : FileSystem Name Content) (location : Location Name) : Prop :=
  location ≠ [] ∧ fs.isDirectory location.tail ∧
    ∀ entry ∈ fs.entries, entry.1 ≠ [] → entry.1.tail ≠ location

instance (fs : FileSystem Name Content) (location : Location Name) :
    Decidable (fs.Leaf location) :=
  inferInstanceAs (Decidable (_ ∧ _ ∧ _))

theorem isDirectory_iff {fs : FileSystem Name Content} {location : Location Name} :
    fs.isDirectory location = true ↔ fs.lookup location = some .directory := by
  unfold isDirectory
  cases fs.lookup location with
  | none => simp
  | some entry => cases entry <;> simp [Entry.isDirectory]

theorem lookup_eq_directory {fs : FileSystem Name Content} {location : Location Name}
    (directory : fs.isDirectory location = true) : fs.lookup location = some .directory :=
  isDirectory_iff.mp directory

end FileSystem

/-- The entries with what is at one location replaced. -/
def replaced (entries : List (Location Name × Entry Name Content)) (location : Location Name)
    (value : Option (Entry Name Content)) : List (Location Name × Entry Name Content) :=
  value.toList.map (location, ·) ++ entries.filter (·.1 ≠ location)

/-- A replacement shows at its location and nowhere else. -/
theorem entryAt_replaced {entries : List (Location Name × Entry Name Content)}
    {location : Location Name} (value : Option (Entry Name Content))
    (proper : location ≠ []) (other : Location Name) :
    entryAt (replaced entries location value) other =
      if other = location then value else entryAt entries other := by
  cases other with
  | nil => simp [entryAt, proper.symm]
  | cons name directory =>
      have rest : (entries.filter (·.1 ≠ location)).find? (·.1 = name :: directory) =
          entries.find? (fun entry => entry.1 ≠ location ∧ entry.1 = name :: directory) := by
        simp [List.find?_filter]
      by_cases same : name :: directory = location
      · subst same
        cases value with
        | none =>
            have absent : entries.find? (fun entry => entry.1 ≠ name :: directory ∧
                entry.1 = name :: directory) = none := by
              simp
            simp only [entryAt, replaced, Option.toList_none, List.map_nil, List.nil_append, rest,
              absent, Option.map_none, if_true]
        | some entry => simp [entryAt, replaced]
      · have unchanged : (fun entry : Location Name × Entry Name Content =>
            decide (entry.1 ≠ location ∧ entry.1 = name :: directory)) =
            fun entry => decide (entry.1 = name :: directory) := by
          funext entry
          have apart : entry.1 = name :: directory → entry.1 ≠ location := by
            rintro found rfl
            exact same found.symm
          simpa using apart
        rw [unchanged] at rest
        cases value with
        | none => simp only [entryAt, replaced, Option.toList_none, List.map_nil, List.nil_append,
            rest, same, if_false]
        | some entry =>
            have other : ¬ location = name :: directory := fun found => same found.symm
            simp only [entryAt, replaced, Option.toList_some, List.map_cons, List.map_nil,
              List.singleton_append, List.find?_cons, other, decide_false, rest, same, if_false]

namespace FileSystem

/-- Put an entry in a place that can hold one, or take it away. -/
def write (fs : FileSystem Name Content) (location : Location Name)
    (value : Option (Entry Name Content)) (leaf : fs.Leaf location) :
    FileSystem Name Content where
  entries := replaced fs.entries location value
  rooted := by
    intro entry member
    have proper : entry.1.tail ≠ location := by
      rcases List.mem_append.mp member with new | old
      · obtain ⟨_, _, rfl⟩ := List.mem_map.mp new
        intro same
        have shorter := congrArg List.length same
        rw [List.length_tail] at shorter
        have positive := List.length_pos_iff.mpr leaf.1
        simp only at shorter
        omega
      · by_cases root : entry.1 = []
        · simpa [root] using leaf.1.symm
        · exact leaf.2.2 entry (List.mem_of_mem_filter old) root
    rw [entryAt_replaced value leaf.1, if_neg proper]
    rcases List.mem_append.mp member with new | old
    · obtain ⟨_, _, rfl⟩ := List.mem_map.mp new
      exact lookup_eq_directory leaf.2.1
    · exact fs.rooted entry (List.mem_of_mem_filter old)

@[simp] theorem lookup_write (fs : FileSystem Name Content) (location : Location Name)
    (value : Option (Entry Name Content)) (leaf : fs.Leaf location) (other : Location Name) :
    (fs.write location value leaf).lookup other =
      if other = location then value else fs.lookup other :=
  entryAt_replaced value leaf.1 other

/-- What is there has a directory above it. -/
theorem directory_above {fs : FileSystem Name Content} {name : Name}
    {directory : Location Name} {entry : Entry Name Content}
    (there : fs.lookup (name :: directory) = some entry) :
    fs.lookup directory = some .directory := by
  obtain ⟨found, search, rfl⟩ := Option.map_eq_some_iff.mp there
  have named : found.1 = name :: directory := by simpa using List.find?_some search
  have rooted := fs.rooted found (List.mem_of_find?_eq_some search)
  rw [named] at rooted
  exact rooted

/-- A place is a leaf when its parent is a directory and it is not one. -/
theorem leaf_of_not_directory {fs : FileSystem Name Content} {name : Name}
    {directory : Location Name} (above : fs.lookup directory = some .directory)
    (other : fs.lookup (name :: directory) ≠ some .directory) :
    fs.Leaf (name :: directory) := by
  refine ⟨by simp, isDirectory_iff.mpr above, ?_⟩
  intro entry member _ same
  have rooted := fs.rooted entry member
  rw [same] at rooted
  exact other rooted

/-- Put a new file in a vacant place. -/
def create? (fs : FileSystem Name Content) (location : Location Name) (content : Content) :
    Option (FileSystem Name Content) :=
  if leaf : fs.Leaf location ∧ (fs.lookup location).isNone then
    some (fs.write location (some (.file content)) leaf.1)
  else none

/-- Make, retarget or take away a symbolic link. -/
def relink (fs : FileSystem Name Content) (location : Location Name)
    (target : Option (FilePath Name)) : FileSystem Name Content :=
  if leaf : fs.Leaf location ∧ (fs.lookup location).all Entry.isSymlink then
    fs.write location (target.map .symlink) leaf.1
  else fs

/-- Links are no files. -/
theorem lookup_relink {fs : FileSystem Name Content} {location place : Location Name}
    {target : Option (FilePath Name)} {content : Content} :
    (fs.relink location target).lookup place = some (.file content) ↔
      fs.lookup place = some (.file content) := by
  unfold relink
  split
  case isTrue leaf =>
    rw [lookup_write]
    split
    case isTrue same =>
      subst same
      have noFile : fs.lookup place ≠ some (.file content) := by
        intro there
        simp [there, Entry.isSymlink] at leaf
      cases target <;> simp [noFile]
    case isFalse => rfl
  case isFalse => rfl

theorem lookup_create {fs fs' : FileSystem Name Content} {location : Location Name}
    {content : Content} (created : fs.create? location content = some fs')
    (place : Location Name) :
    fs'.lookup place = if place = location then some (.file content) else fs.lookup place := by
  unfold create? at created
  split at created
  · cases created
    exact lookup_write ..
  · cases created

theorem vacant_of_create {fs fs' : FileSystem Name Content} {location : Location Name}
    {content : Content} (created : fs.create? location content = some fs') :
    fs.lookup location = none := by
  unfold create? at created
  split at created
  case isTrue leaf => exact Option.isNone_iff_eq_none.mp leaf.2
  case isFalse => cases created

end FileSystem

/-! ## Resolution -/

/-- Where a path leads. -/
inductive Resolved (Name : Type) where
  | found (location : Location Name)
  | vacant (location : Location Name)
  | missing
  | loop
  deriving DecidableEq, Repr

namespace FileSystem

variable (fs : FileSystem Name Content)

/-- Walk along a path; `next` goes on where a symbolic link leads. -/
def walkWith (follow : Bool) (next : Location Name → List (Component Name) → Resolved Name) :
    Location Name → List (Component Name) → Resolved Name
  | here, [] => .found here
  | here, component :: rest =>
      if fs.isDirectory here then
        match component with
        | .current => walkWith follow next here rest
        | .trailing => walkWith follow next here rest
        | .parent => walkWith follow next here.tail rest
        | .name name =>
            match fs.lookup (name :: here) with
            | none => if rest.isEmpty then .vacant (name :: here) else .missing
            | some (.symlink target) =>
                if rest.isEmpty && !follow then .found (name :: here)
                else if target.isEmpty then .missing
                else next (if target.absolute then [] else here) (target.components ++ rest)
            | some _ => walkWith follow next (name :: here) rest
      else .missing

/-- A walk through at most `links` symbolic links. -/
def walk (follow : Bool) : Nat → Location Name → List (Component Name) → Resolved Name
  | 0 => fs.walkWith follow fun _ _ => .loop
  | links + 1 => fs.walkWith follow (walk follow links)

end FileSystem

/-- What resolves the paths of a process: the links that it follows at most, and its
current directory. -/
structure Resolver (Name : Type) where
  links : Nat
  currentDirectory : Location Name

namespace Resolver

variable (resolver : Resolver Name) (fs : FileSystem Name Content)

def start (path : FilePath Name) : Location Name :=
  if path.absolute then [] else resolver.currentDirectory

/-- Where a path leads; a link in its last place is followed if `follow` says so. -/
def resolve (follow : Bool) (path : FilePath Name) : Resolved Name :=
  if path.isEmpty then .missing
  else fs.walk follow resolver.links (resolver.start path) path.components

/-- The longest leading part that exists, as its location, and the rest in normal form.
The elements of the leading part are in reverse. -/
def existingPart (absolute : Bool) :
    List (Component Name) → List (Component Name) → FilePath Name
  | [], rest => (FilePath.mk absolute rest).lexicallyNormal
  | component :: front, rest =>
      match resolver.resolve fs true ⟨absolute, (component :: front).reverse⟩ with
      | .found location =>
          (FilePath.mk true ((FilePath.ofLocation location).components ++ rest)).lexicallyNormal
      | _ => existingPart absolute front (component :: rest)

/-- The canonical form of a path that need not exist. -/
def weaklyCanonical (path : FilePath Name) : Option (FilePath Name) :=
  match resolver.resolve fs true path with
  | .found location => some (.ofLocation location)
  | .loop => none
  | _ => some (resolver.existingPart fs path.absolute path.components.reverse [])

/-- The path from the root; a relative path has none when the current directory is gone. -/
def absolutePath (path : FilePath Name) : Option (FilePath Name) :=
  if path.absolute || fs.isDirectory resolver.currentDirectory then
    some (path.absoluteIn resolver.currentDirectory)
  else none

/-- The location that removing a path takes away: a link itself, not what it leads to. -/
def removed? (path : FilePath Name) : Option (Location Name) :=
  match path.stem.components.getLast?, resolver.resolve fs false path.stem with
  | some (.name _), .found location =>
      if fs.isDirectory location || path.stem = path then some location else none
  | _, _ => none

/-- Remove a file, a link or an empty directory. -/
def remove (path : FilePath Name) : FileSystem Name Content :=
  match resolver.removed? fs path with
  | some location => if leaf : fs.Leaf location then fs.write location none leaf else fs
  | none => fs

end Resolver

/-! ## Names that are spelled out -/

namespace FileSystem

variable {fs : FileSystem Name Content}

/-- A walk reaches every directory that is spelled out. -/
theorem walkWith_names {follow : Bool}
    {next : Location Name → List (Component Name) → Resolved Name}
    {location : Location Name} (directory : fs.lookup location = some .directory)
    (rest : List (Component Name)) :
    fs.walkWith follow next [] (location.reverse.map .name ++ rest) =
      fs.walkWith follow next location rest := by
  induction location generalizing rest with
  | nil => rfl
  | cons name above ih =>
      have reached := directory_above directory
      have split : (name :: above).reverse.map Component.name ++ rest =
          above.reverse.map Component.name ++ (.name name :: rest) := by
        simp
      rw [split, ih reached, walkWith]
      simp [isDirectory_iff.mpr reached, directory]

theorem walkWith_last {next : Location Name → List (Component Name) → Resolved Name}
    {name : Name} {above : Location Name} {entry : Entry Name Content}
    (there : fs.lookup (name :: above) = some entry) :
    fs.walkWith false next above [.name name] = .found (name :: above) := by
  have reached := isDirectory_iff.mpr (directory_above there)
  cases entry <;> simp [walkWith, reached, there]

end FileSystem

namespace Resolver

variable {resolver : Resolver Name} {fs : FileSystem Name Content}

theorem walk_eq_walkWith (fs : FileSystem Name Content) (follow : Bool) (links : Nat) :
    ∃ next, fs.walk follow links = fs.walkWith follow next := by
  cases links with
  | zero => exact ⟨_, rfl⟩
  | succ links => exact ⟨_, rfl⟩

/-- A location spelled out leads to what is there. -/
theorem resolve_ofLocation {name : Name} {above : Location Name} {entry : Entry Name Content}
    (there : fs.lookup (name :: above) = some entry) :
    resolver.resolve fs false (.ofLocation (name :: above)) = .found (name :: above) := by
  obtain ⟨next, walked⟩ := walk_eq_walkWith fs false resolver.links
  have split : (name :: above).reverse.map Component.name =
      above.reverse.map Component.name ++ [.name name] := by
    simp
  have reached : fs.walkWith false next [] (above.reverse.map .name ++ [.name name]) =
      .found (name :: above) :=
    (FileSystem.walkWith_names (FileSystem.directory_above there) _).trans
      (FileSystem.walkWith_last there)
  simpa [resolve, FilePath.isEmpty, FilePath.ofLocation, start, walked, split] using reached

/-- A single name leads to the entry of the current directory, if anywhere. -/
theorem resolve_bare {name : Name} {entry : Entry Name Content}
    (there : fs.lookup (name :: resolver.currentDirectory) = some entry) :
    resolver.resolve fs false (.bare name) = .found (name :: resolver.currentDirectory) := by
  obtain ⟨next, walked⟩ := walk_eq_walkWith fs false resolver.links
  simp only [resolve, FilePath.isEmpty, FilePath.bare, start, walked]
  exact FileSystem.walkWith_last there

theorem found_of_resolve_bare {name : Name} {location : Location Name}
    (found : resolver.resolve fs false (.bare name) = .found location) :
    location = name :: resolver.currentDirectory := by
  obtain ⟨next, walked⟩ := walk_eq_walkWith fs false resolver.links
  simp only [resolve, FilePath.isEmpty, FilePath.bare, start, walked, FileSystem.walkWith] at found
  cases directory : fs.isDirectory resolver.currentDirectory with
  | false => simp [directory] at found
  | true =>
      cases present : fs.lookup (name :: resolver.currentDirectory) with
      | none => simp [directory, present] at found
      | some entry => cases entry <;> simpa [directory, present, eq_comm] using found

end Resolver

/-! ## The two readings of a path -/

namespace FileSystem

variable {fs : FileSystem Name Content}
variable {next next' : Location Name → List (Component Name) → Resolved Name}

/-- Unless an unfollowed walk ends at a link, following changes nothing. -/
theorem walkWith_followed {result : Resolved Name}
    (solid : ∀ location, result = .found location →
      ∀ target, fs.lookup location ≠ some (.symlink target))
    (onward : ∀ here components, next here components = result → next' here components = result)
    {here : Location Name} {components : List (Component Name)}
    (walked : fs.walkWith false next here components = result) :
    fs.walkWith true next' here components = result := by
  fun_induction walkWith fs false next here components with
  | case1 here => simpa [walkWith] using walked
  | case2 here rest directory ih => simpa [walkWith, directory] using ih walked
  | case3 here rest directory ih => simpa [walkWith, directory] using ih walked
  | case4 here rest directory ih => simpa [walkWith, directory] using ih walked
  | case5 here rest directory name present last =>
      simpa [walkWith, directory, present, last] using walked
  | case6 here rest directory name present more =>
      simpa [walkWith, directory, present, more] using walked
  | case7 here rest directory name target present last =>
      exact absurd present (solid _ walked.symm target)
  | case8 here rest directory name target present more empty =>
      simpa [walkWith, directory, present, empty] using walked
  | case9 here rest directory name target present more proper =>
      simpa [walkWith, directory, present, proper] using onward _ _ walked
  | case10 here rest directory name entry other present ih =>
      cases entry with
      | symlink target => exact absurd rfl (other target)
      | directory => simpa [walkWith, directory, present] using ih walked
      | file content => simpa [walkWith, directory, present] using ih walked
  | case11 here component rest directory => simpa [walkWith, directory] using walked

theorem walk_followed {result : Resolved Name}
    (solid : ∀ location, result = .found location →
      ∀ target, fs.lookup location ≠ some (.symlink target))
    {links : Nat} {here : Location Name} {components : List (Component Name)}
    (walked : fs.walk false links here components = result) :
    fs.walk true links here components = result := by
  induction links generalizing here components with
  | zero => exact walkWith_followed solid (fun _ _ same => same) walked
  | succ links ih => exact walkWith_followed solid (fun _ _ walked => ih walked) walked

/-- A walk that ends at a vacant place has come to the directory of the place, and one
name is left. -/
theorem walkWith_vacant {name : Name} {above : Location Name}
    (onward : ∀ here components, next here components = .vacant (name :: above) →
      ∃ front, components = front ++ [.name name] ∧ next' here front = .found above)
    {here : Location Name} {components : List (Component Name)}
    (walked : fs.walkWith false next here components = .vacant (name :: above)) :
    ∃ front, components = front ++ [.name name] ∧
      fs.walkWith true next' here front = .found above := by
  fun_induction walkWith fs false next here components with
  | case1 here => cases walked
  | case2 here rest directory ih =>
      obtain ⟨front, rfl, reached⟩ := ih walked
      exact ⟨.current :: front, rfl, by simpa [walkWith, directory] using reached⟩
  | case3 here rest directory ih =>
      obtain ⟨front, rfl, reached⟩ := ih walked
      exact ⟨.trailing :: front, rfl, by simpa [walkWith, directory] using reached⟩
  | case4 here rest directory ih =>
      obtain ⟨front, rfl, reached⟩ := ih walked
      exact ⟨.parent :: front, rfl, by simpa [walkWith, directory] using reached⟩
  | case5 here rest directory last present none =>
      cases walked
      rw [List.isEmpty_iff.mp none]
      exact ⟨[], rfl, rfl⟩
  | case6 here rest directory last present more => cases walked
  | case7 here rest directory last target present none => cases walked
  | case8 here rest directory last target present more empty => cases walked
  | case9 here rest directory link target present more proper =>
      -- The last name is not the link's, so it belongs to the rest of the path.
      obtain ⟨front, split, reached⟩ := onward _ _ walked
      rcases List.eq_nil_or_concat rest with none | ⟨rest', last, rfl⟩
      · simp [none] at more
      · rw [List.concat_eq_append] at more split ⊢
        rw [← List.append_assoc] at split
        obtain ⟨rfl, same⟩ := List.append_inj' split rfl
        cases same
        refine ⟨.name link :: rest', rfl, ?_⟩
        simpa [walkWith, directory, present, proper] using reached
  | case10 here rest directory link entry other present ih =>
      obtain ⟨front, rfl, reached⟩ := ih walked
      refine ⟨.name link :: front, rfl, ?_⟩
      cases entry with
      | symlink target => exact absurd rfl (other target)
      | directory => simpa [walkWith, directory, present] using reached
      | file content => simpa [walkWith, directory, present] using reached
  | case11 here component rest directory => cases walked

theorem walk_vacant {name : Name} {above : Location Name} {links : Nat} {here : Location Name}
    {components : List (Component Name)}
    (walked : fs.walk false links here components = .vacant (name :: above)) :
    ∃ front, components = front ++ [.name name] ∧ fs.walk true links here front = .found above := by
  induction links generalizing here components with
  | zero => exact walkWith_vacant (by simp) walked
  | succ links ih => exact walkWith_vacant (fun _ _ walked => ih walked) walked

/-- A vacant place is one name below a directory. -/
theorem walkWith_leaves {follow : Bool} {location : Location Name}
    (onward : ∀ here components, next here components = .vacant location →
      fs.lookup location = none ∧ fs.isDirectory location.tail = true ∧ location ≠ [])
    {here : Location Name} {components : List (Component Name)}
    (walked : fs.walkWith follow next here components = .vacant location) :
    fs.lookup location = none ∧ fs.isDirectory location.tail = true ∧ location ≠ [] := by
  fun_induction walkWith fs follow next here components with
  | case5 here rest directory last present none =>
      cases walked
      exact ⟨present, directory, by simp⟩
  | case9 here rest directory link target present more proper => exact onward _ _ walked
  | case2 here rest directory ih => exact ih walked
  | case3 here rest directory ih => exact ih walked
  | case4 here rest directory ih => exact ih walked
  | case10 here rest directory link entry other present ih => exact ih walked
  | _ => cases walked

theorem walk_leaves {follow : Bool} {location : Location Name} {links : Nat}
    {here : Location Name} {components : List (Component Name)}
    (walked : fs.walk follow links here components = .vacant location) :
    fs.lookup location = none ∧ fs.isDirectory location.tail = true ∧ location ≠ [] := by
  induction links generalizing here components with
  | zero => exact walkWith_leaves (by simp) walked
  | succ links ih => exact walkWith_leaves (fun _ _ walked => ih walked) walked

/-- Taking an entry away opens no other way to a vacant place. -/
theorem walkWith_write_none {gone location : Location Name} {leaf : fs.Leaf gone}
    (onward : ∀ here components, next here components = .vacant location →
      next' here components = .found location ∨ next' here components = .vacant location)
    {here : Location Name} {components : List (Component Name)}
    (walked : (fs.write gone none leaf).walkWith false next here components = .vacant location) :
    fs.walkWith false next' here components = .found location ∨
      fs.walkWith false next' here components = .vacant location := by
  have remaining {place : Location Name} {entry : Entry Name Content}
      (present : (fs.write gone none leaf).lookup place = some entry) :
      fs.lookup place = some entry := by
    rw [lookup_write] at present
    split at present
    · cases present
    · exact present
  have above {place : Location Name}
      (directory : (fs.write gone none leaf).isDirectory place = true) :
      fs.isDirectory place = true :=
    isDirectory_iff.mpr (remaining (isDirectory_iff.mp directory))
  fun_induction walkWith (fs.write gone none leaf) false next here components with
  | case2 here rest directory ih => simpa [walkWith, above directory] using ih walked
  | case3 here rest directory ih => simpa [walkWith, above directory] using ih walked
  | case4 here rest directory ih => simpa [walkWith, above directory] using ih walked
  | case5 here rest directory last absent none =>
      cases walked
      rw [List.isEmpty_iff.mp none]
      cases present : fs.lookup (last :: here) with
      | none => simp [walkWith, above directory, present]
      | some entry => exact .inl (by cases entry <;> simp [walkWith, above directory, present])
  | case9 here rest directory link target present more proper =>
      have continued : rest ≠ [] := by simpa using more
      simpa [walkWith, above directory, remaining present, continued, proper] using
        onward _ _ walked
  | case10 here rest directory link entry other present ih =>
      cases entry with
      | symlink target => exact absurd rfl (other target)
      | directory => simpa [walkWith, above directory, remaining present] using ih walked
      | file content => simpa [walkWith, above directory, remaining present] using ih walked
  | _ => cases walked

theorem walk_write_none {gone location : Location Name} {leaf : fs.Leaf gone} {links : Nat}
    {here : Location Name} {components : List (Component Name)}
    (walked : (fs.write gone none leaf).walk false links here components = .vacant location) :
    fs.walk false links here components = .found location ∨
      fs.walk false links here components = .vacant location := by
  induction links generalizing here components with
  | zero => exact walkWith_write_none (by simp) walked
  | succ links ih => exact walkWith_write_none (fun _ _ walked => ih walked) walked

end FileSystem

namespace Resolver

variable {resolver : Resolver Name} {fs : FileSystem Name Content} {path : FilePath Name}

theorem resolve_followed {result : Resolved Name}
    (solid : ∀ location, result = .found location →
      ∀ target, fs.lookup location ≠ some (.symlink target))
    (resolved : resolver.resolve fs false path = result) :
    resolver.resolve fs true path = result := by
  unfold resolve at resolved ⊢
  split
  case isTrue empty => simpa [empty] using resolved
  case isFalse proper =>
    simp only [proper] at resolved
    exact FileSystem.walk_followed solid resolved

/-- A vacant place has a name below a directory. -/
theorem leaf_of_vacant {follow : Bool} {location : Location Name}
    (resolved : resolver.resolve fs follow path = .vacant location) :
    location ≠ [] ∧ fs.isDirectory location.tail = true ∧ fs.lookup location = none := by
  unfold resolve at resolved
  split at resolved
  · cases resolved
  · obtain ⟨absent, above, proper⟩ := FileSystem.walk_leaves resolved
    exact ⟨proper, above, absent⟩

/-- The canonical form of a path to a file is where the file is. -/
theorem weaklyCanonical_of_file {location : Location Name} {content : Content}
    (resolved : resolver.resolve fs false path = .found location)
    (there : fs.lookup location = some (.file content)) :
    resolver.weaklyCanonical fs path = some (.ofLocation location) := by
  have solid : ∀ place, Resolved.found location = .found place →
      ∀ target, fs.lookup place ≠ some (.symlink target) := by
    intro place same target
    cases same
    simp [there]
  rw [weaklyCanonical, resolve_followed solid resolved]

/-- The two spellings of a place that canonical forms use: from the root, and a single
name in the current directory. -/
def Spells (resolver : Resolver Name) (location : Location Name) (key : FilePath Name) : Prop :=
  key = .ofLocation location ∨
    ∃ name, location = name :: resolver.currentDirectory ∧ key = .bare name

theorem Spells.resolve {key : FilePath Name} {name : Name} {above : Location Name}
    {entry : Entry Name Content} (spells : resolver.Spells (name :: above) key)
    (there : fs.lookup (name :: above) = some entry) :
    resolver.resolve fs false key = .found (name :: above) := by
  rcases spells with rfl | ⟨bare, same, rfl⟩
  · exact resolve_ofLocation there
  · cases same
    exact resolve_bare there

omit [DecidableEq Name] in
theorem Spells.unique {location other : Location Name} {key : FilePath Name}
    (spells : resolver.Spells location key) (also : resolver.Spells other key) :
    location = other := by
  rcases spells with rfl | ⟨name, rfl, rfl⟩ <;> rcases also with same | ⟨other, rfl, same⟩
  · exact FilePath.ofLocation_injective same
  · exact absurd same (FilePath.ofLocation_ne_bare _ _)
  · exact absurd same.symm (FilePath.ofLocation_ne_bare _ _)
  · cases same
    rfl

/-- The canonical form of a path to a vacant place spells the place from the root, unless
the path is a single name. -/
theorem weaklyCanonical_of_vacant {name : Name} {above : Location Name}
    (resolved : resolver.resolve fs false path = .vacant (name :: above)) :
    resolver.weaklyCanonical fs path = some (.ofLocation (name :: above)) ∧
        (∀ other, path ≠ .bare other) ∨
      above = resolver.currentDirectory ∧ path = .bare name ∧
        resolver.weaklyCanonical fs path = some (.bare name) := by
  have followed : resolver.resolve fs true path = .vacant (name :: above) :=
    resolve_followed (by simp) resolved
  obtain ⟨absolute, components⟩ := path
  have walked : fs.walk false resolver.links (resolver.start ⟨absolute, components⟩) components =
      .vacant (name :: above) := by
    unfold resolve at resolved
    split at resolved
    · cases resolved
    · exact resolved
  obtain ⟨front, rfl, reached⟩ := FileSystem.walk_vacant walked
  have canonical : resolver.weaklyCanonical fs ⟨absolute, front ++ [.name name]⟩ =
      some (resolver.existingPart fs absolute front.reverse [.name name]) := by
    simp [weaklyCanonical, followed, existingPart]
  rw [canonical]
  rcases List.eq_nil_or_concat front with rfl | ⟨front, last, rfl⟩
  · obtain ⟨next, walking⟩ := walk_eq_walkWith fs true resolver.links
    rw [walking] at reached
    cases absolute with
    | false =>
        cases reached
        exact .inr ⟨rfl, rfl, rfl⟩
    | true =>
        cases reached
        exact .inl ⟨rfl, fun _ same => by cases congrArg FilePath.absolute same⟩
  · rw [List.concat_eq_append] at reached ⊢
    have exists_front : resolver.resolve fs true ⟨absolute, front ++ [last]⟩ = .found above := by
      simpa [resolve, FilePath.isEmpty, start] using reached
    left
    constructor
    · have spelled := FilePath.lexicallyNormal_ofLocation name above
      simpa [existingPart, exists_front, FilePath.ofLocation] using spelled
    · intro other same
      have length := congrArg (fun path => path.components.length) same
      simp [FilePath.bare] at length

/-- Removal takes away what the path leads to, and nothing else. -/
theorem lookup_remove {place : Location Name} {content : Content} :
    (resolver.remove fs path).lookup place = some (.file content) ↔
      fs.lookup place = some (.file content) ∧ resolver.removed? fs path ≠ some place := by
  unfold remove
  cases gone : resolver.removed? fs path with
  | none => simp
  | some location =>
      simp only
      split
      case isTrue leaf =>
        rw [FileSystem.lookup_write]
        split
        case isTrue same => simp [same]
        case isFalse different =>
          have other : location ≠ place := fun same => different same.symm
          simp [other]
      case isFalse fixed =>
        have other : fs.lookup place = some (.file content) → location ≠ place := by
          rintro there rfl
          cases location with
          | nil => cases there
          | cons name above =>
              exact fixed (FileSystem.leaf_of_not_directory (FileSystem.directory_above there)
                (by simp [there]))
        simpa using other

/-- What is removed is where the path leads, unfollowed. -/
theorem resolve_of_removed {location : Location Name} {content : Content}
    (gone : resolver.removed? fs path = some location)
    (there : fs.lookup location = some (.file content)) :
    resolver.resolve fs false path = .found location := by
  have file : fs.isDirectory location = false := by
    simp [FileSystem.isDirectory, there, Entry.isDirectory]
  unfold removed? at gone
  split at gone
  · next found =>
      split at gone
      case isTrue whole =>
        cases gone
        have same : path.stem = path := by simpa [file] using whole
        rwa [same] at found
      case isFalse => cases gone
  · cases gone

/-- A path that is the name of a file removes the file. -/
theorem removed_of_spells {location : Location Name} {key : FilePath Name} {content : Content}
    (spells : resolver.Spells location key) (there : fs.lookup location = some (.file content)) :
    resolver.removed? fs key = some location := by
  cases location with
  | nil => cases there
  | cons name above =>
      have found := spells.resolve there
      have last : key.components.getLast? = some (.name name) := by
        rcases spells with rfl | ⟨bare, same, rfl⟩
        · simp [FilePath.ofLocation]
        · cases same
          rfl
      have whole : key.stem = key := by simp [FilePath.stem, last]
      simp [removed?, whole, last, found]

/-- A removal makes a path lead to a vacant place only where the path led before. -/
theorem resolve_remove {gone : FilePath Name} {location : Location Name}
    (resolved : resolver.resolve (resolver.remove fs gone) false path = .vacant location) :
    resolver.resolve fs false path = .found location ∨
      resolver.resolve fs false path = .vacant location := by
  unfold remove at resolved
  split at resolved
  · split at resolved
    · unfold resolve at resolved ⊢
      split at resolved
      · cases resolved
      case isFalse proper =>
        rw [if_neg proper]
        exact FileSystem.walk_write_none resolved
    · exact .inr resolved
  · exact .inr resolved

end Resolver

end UnixDomainStream.Library

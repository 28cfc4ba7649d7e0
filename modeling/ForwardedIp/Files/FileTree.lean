import ForwardedIp.Files.FileSystem
import ForwardedIp.Files.Path
import ForwardedIp.Keyed
/-!
# File trees

A file system in memory: what stands at each place. A path is followed piece by piece, and what it
has reached must be a directory before the next piece is looked at, so `a/../b` leads nowhere while
there is no `a`. The roots, absolute and relative, are directories that are always there.
-/
namespace ForwardedIp

inductive FileEntry where
  | directory
  | file (content : ByteArray)

def FileEntry.isDirectory : FileEntry → Bool
  | .directory => true
  | .file _ => false

/-- The places of a tree, by the names on the way from a root. -/
structure FileTree where
  entries : List (List String × FileEntry) := []

namespace FileTree

def get? (t : FileTree) (place : List String) : Option FileEntry :=
  if place = [] ∨ place = ["/"] then some .directory else t.entries.lookup place

def put (t : FileTree) (place : List String) (entry : FileEntry) : FileTree :=
  ⟨Keyed.put place entry t.entries⟩

def erase (t : FileTree) (place : List String) : FileTree := ⟨Keyed.drop place t.entries⟩

theorem get?_put_self (t : FileTree) {place : List String} (entry : FileEntry)
    (h : ¬(place = [] ∨ place = ["/"])) : (t.put place entry).get? place = some entry := by
  rw [get?, if_neg h]
  exact Keyed.lookup_put_self place entry t.entries

theorem get?_put_of_ne (t : FileTree) {place other : List String} (h : other ≠ place)
    (entry : FileEntry) : (t.put place entry).get? other = t.get? other := by
  unfold get?
  split
  · rfl
  · exact Keyed.lookup_put_of_ne h entry t.entries

theorem get?_erase_of_ne (t : FileTree) {place other : List String} (h : other ≠ place) :
    (t.erase place).get? other = t.get? other := by
  unfold get?
  split
  · rfl
  · exact Keyed.lookup_drop_of_ne h t.entries

/-- Whether something stands in a directory. -/
def isOccupied (t : FileTree) (place : List String) : Bool :=
  t.entries.any fun e => e.1.dropLast = place

/-! ## Following a path -/

/-- Goes from a place along one piece of a path. -/
def step (t : FileTree) (place : List String) (piece : String) : Except IoFault (List String) :=
  match t.get? place with
  | none => .error .notFound
  | some (.file _) => .error .notADirectory
  | some .directory =>
      if piece = "" ∨ piece = "." then .ok place
      else if piece = ".." then .ok (Path.above place)
      else if Path.longestName < piece.utf8ByteSize then .error .nameTooLong
      else .ok (place ++ [piece])

/-- Goes along pieces from the root of a path. No step is taken if the path as a whole is bad. -/
def follow (t : FileTree) (path : String) (pieces : List String) :
    Except IoFault (List String) :=
  if path.toList.contains '\x00' then .error .zeroInPath
  else if path = "" then .error .notFound
  else if Path.longestPath < path.utf8ByteSize then .error .nameTooLong
  else pieces.foldlM t.step (Path.root path)

/-- The place that a path leads to. It lies in a directory, and need not be taken. A path with a
slash at its end leads to a directory only. -/
def locate (t : FileTree) (path : String) : Except IoFault (List String) :=
  t.follow path (Path.pieces path)

/-- The place that the path of a directory leads to, which need not be taken. -/
def locateDirectory (t : FileTree) (path : String) : Except IoFault (List String) :=
  t.follow path (Path.directoryPieces path)

def contains (t : FileTree) (path : String) : Bool :=
  match t.locate path with
  | .ok place => (t.get? place).isSome
  | .error _ => false

def isDirectory (t : FileTree) (path : String) : Bool :=
  match t.locate path with
  | .ok place => (t.get? place).any FileEntry.isDirectory
  | .error _ => false

/-- The content of a file. -/
def contentAt (t : FileTree) (place : List String) : Except IoFault ByteArray :=
  match t.get? place with
  | some (.file content) => .ok content
  | some .directory => .error .isADirectory
  | none => .error .notFound

def content (t : FileTree) (path : String) : Except IoFault ByteArray := do
  t.contentAt (← t.locate path)

/-! ## Changing what stands at a path -/

/-- Opens a file for writing: creates it in its directory, or empties it. -/
def createFile (t : FileTree) (path : String) : Except IoFault FileTree := do
  let place ← t.locate path
  match t.get? place with
  | some .directory => .error .isADirectory
  | _ => .ok (t.put place (.file .empty))

/-- Gives an existing file its content. -/
def writeFile (t : FileTree) (path : String) (content : ByteArray) : Except IoFault FileTree := do
  let place ← t.locate path
  let _ ← t.contentAt place
  return t.put place (.file content)

/-- Copies a file. A source that is the target itself is empty by the time it is read. -/
def copyFile (t : FileTree) (source target : String) : Except IoFault FileTree := do
  let place ← t.locate source
  match t.get? place with
  | some (.file _) =>
      let t ← t.createFile target
      t.writeFile target (← t.contentAt place)
  | some .directory => .error .invalidArgument
  | none => .error .notFound

/-- Moves a file over another one, or to a free place in a directory. -/
def renameFile (t : FileTree) (source target : String) : Except IoFault FileTree := do
  let place ← t.locate source
  let content ← t.contentAt place
  let goal ← t.locate target
  if place = goal then return t
  match t.get? goal with
  | some .directory => .error .isADirectory
  | _ => return (t.erase place).put goal (.file content)

def removeFile (t : FileTree) (path : String) : Except IoFault FileTree := do
  let place ← t.locate path
  let _ ← t.contentAt place
  return t.erase place

def createDirectory (t : FileTree) (path : String) : Except IoFault FileTree := do
  let place ← t.locateDirectory path
  match t.get? place with
  | some _ => .error .exists
  | none => return t.put place .directory

/-- Removes a directory that holds nothing. It cannot be named by a dot inside itself. -/
def removeDirectory (t : FileTree) (path : String) : Except IoFault FileTree := do
  let place ← t.locateDirectory path
  if (Path.directoryPieces path).getLast? = some "." then .error .invalidArgument
  else match t.get? place with
    | some .directory => if t.isOccupied place then .error .notEmpty else return t.erase place
    | some (.file _) => .error .notADirectory
    | none => .error .notFound

/-- Creates one directory unless it is there already. -/
def ensureDirectory (t : FileTree) (path : String) : Except IoFault FileTree :=
  match t.createDirectory path with
  | .ok t => .ok t
  | .error fault => if t.isDirectory path then .ok t else .error fault

/-- The tree after a change, or as it was if the change is refused. -/
def settle (t : FileTree) : Except IoFault FileTree → Except IoFault Unit × FileTree
  | .ok t => (.ok (), t)
  | .error fault => (.error fault, t)

/-- Creates the first of some directories, each of which holds the one before it, and before that
those of the others that are missing. What has been created stays if a later one is refused. -/
def ensureLineage (t : FileTree) : List String → Except IoFault Unit × FileTree
  | [] => (.ok (), t)
  | path :: holders =>
      match t.ensureDirectory path with
      | .error .notFound =>
          match t.ensureLineage holders with
          | (.ok (), t) => t.settle (t.ensureDirectory path)
          | refused => refused
      | result => t.settle result

/-- Creates a directory with those that are missing above it. -/
def createDirectories (t : FileTree) (path : String) : Except IoFault Unit × FileTree :=
  t.ensureLineage (Path.lineage (path.length + 1) path)

/-- A refused effect changes nothing, but for directories created above a refused one. -/
instance : FileSystem FileTree where
  contains := contains
  read := content
  perform effect t := match effect with
    | .createDirectories path => t.createDirectories path
    | .create path => t.settle (t.createFile path)
    | .write path content => t.settle (t.writeFile path content)
    | .sync path => ((t.content path).map fun _ => (), t)
    | .copy source target => t.settle (t.copyFile source target)
    | .rename source target => t.settle (t.renameFile source target)

end FileTree

end ForwardedIp

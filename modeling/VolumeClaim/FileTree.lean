import VolumeClaim.Path.Location

/-!
# File trees

A file tree has directories and files, each at a location.  `find?` follows a path through it and
`makeDirectories` makes the directories that a path names.  Both take a path one component at a
time and only ever go on from a directory, so different paths can name one place (`r//s`,
`./r/s/` and `r/s/../s`), but `x/../r` names nothing while there is no directory `x`, and making
the directories of `x/../r` makes `x` too.  A path ends before its first zero byte.  `publish`
puts a whole file into a directory at once, or leaves everything as it was.
-/

namespace VolumeClaim

/-- directories, and files with their contents -/
structure FileTree where
  directories : List Location
  files : List (Location × Text)

namespace FileTree

/-- no directories but those that are always there, and no files -/
def empty : FileTree := ⟨[], []⟩

def contents? (t : FileTree) (l : Location) : Option Text := t.files.lookup l

def isFile (t : FileTree) (l : Location) : Bool := (t.contents? l).isSome

/-- whether there is a directory; the top, the working directory and those around it are always
there -/
def isDirectory (t : FileTree) (l : Location) : Bool :=
  l.names.isEmpty || t.directories.contains l

def isOccupied (t : FileTree) (l : Location) : Bool := t.isDirectory l || t.isFile l

def addDirectory (t : FileTree) (l : Location) : FileTree :=
  { t with directories := t.directories ++ [l] }

def addFile (t : FileTree) (l : Location) (contents : Text) : FileTree :=
  { t with files := t.files ++ [(l, contents)] }

/-! ## Finding what a path names -/

/-- the place that components lead to, each from a directory -/
def follow? (t : FileTree) : Location → List Text → Option Location
  | l, [] => some l
  | l, component :: rest =>
    if t.isDirectory l then t.follow? (l.follow component) rest else none

/-- the place that a path names, if something is there; an empty path names nothing -/
def find? (t : FileTree) (path : Text) : Option Location :=
  let path := path.untilZero
  if path = [] then none
  else (t.follow? (.start path) (Text.split Path.separator path)).filter t.isOccupied

def hasFile (t : FileTree) (path : Text) : Bool := (t.find? path).any t.isFile

/-! ## Making directories -/

/-- why directories cannot be made: a file is in the way, met before any directory was made
(`notADirectory`) or after (`fileExists`), or the path is empty (`noSuchFile`) -/
inductive Obstacle where
  | notADirectory
  | fileExists
  | noSuchFile
  deriving DecidableEq

def Obstacle.text : Obstacle → Text
  | .notADirectory => ascii "Not a directory"
  | .fileExists => ascii "File exists"
  | .noSuchFile => ascii "No such file or directory"

/-- follows components from a directory and makes the directories that are missing; `made` tells
whether one was made on the way here -/
def makeAlong (t : FileTree) (l : Location) (made : Bool) :
    List Text → Except Obstacle Location × FileTree
  | [] => (.ok l, t)
  | component :: rest =>
    let next := l.follow component
    if t.isDirectory next then t.makeAlong next made rest
    else if t.isFile next then (.error (if made then .fileExists else .notADirectory), t)
    else (t.addDirectory next).makeAlong next true rest

/-- makes the directory that a path names, with all on the way: where it is or what is in the
way, and the tree afterwards.  What was made before an obstacle stays. -/
def makeDirectories (t : FileTree) (path : Text) : Except Obstacle Location × FileTree :=
  let path := path.untilZero
  if path = [] then (.error .noSuchFile, t)
  else t.makeAlong (.start path) false (Text.split Path.separator path)

theorem files_makeAlong (t : FileTree) (l : Location) (made : Bool) (components : List Text) :
    (t.makeAlong l made components).2.files = t.files := by
  fun_induction makeAlong t l made components with
  | case1 => rfl
  | case2 _ _ _ _ _ _ _ ih => exact ih
  | case3 => rfl
  | case4 _ _ _ _ _ _ _ _ ih => exact ih

theorem files_makeDirectories (t : FileTree) (path : Text) :
    (t.makeDirectories path).2.files = t.files := by
  rw [makeDirectories]
  split
  · rfl
  · exact files_makeAlong ..

/-- whether a path ends in a dot, and so names a directory but no entry of one -/
def endsInDot (path : Text) : Bool :=
  ((Text.split Path.separator path.untilZero).filter (· ≠ [])).getLast? = some (ascii ".")

def hasEntries (t : FileTree) (l : Location) : Bool :=
  t.directories.any (·.parent = l) || t.files.any (·.1.parent = l)

/-- takes away the directory that a path names, if nothing is in it -/
def removeDirectory (t : FileTree) (path : Text) : FileTree :=
  match t.find? path with
  | some l =>
    if t.hasEntries l || endsInDot path then t
    else { t with directories := t.directories.filter (· ≠ l) }
  | none => t

theorem files_removeDirectory (t : FileTree) (path : Text) :
    (t.removeDirectory path).files = t.files := by
  fun_cases removeDirectory t path <;> rfl

/-! ## Publishing files -/

def removeFile (t : FileTree) (l : Location) : FileTree :=
  { t with files := t.files.filter (·.1 ≠ l) }

/-- gives a file one more place, unless something is there; whether it has that place now -/
def link (t : FileTree) (source target : Location) : Bool × FileTree :=
  match t.contents? source with
  | none => (false, t)
  | some contents =>
    if t.isOccupied target then (false, t) else (true, t.addFile target contents)

def longestName (t : FileTree) : Nat :=
  (t.directories ++ t.files.map Prod.fst).foldr (fun l n => max (l.names.headD []).length n) 0

/-- a stamp that makes any name one that nothing has -/
def unusedStamp (t : FileTree) : Text := List.replicate (t.longestName + 1) (byte '0')

/-- puts a file into a directory: its contents go into a temporary file first, which then gets the
name as well, and the temporary file is taken away, whether there was a place for the name or not.
The stamp keeps temporary files apart. -/
def publish (t : FileTree) (directory : Location) (name stamp contents : Text) :
    Bool × FileTree :=
  let temporary := directory.child (Path.temporaryName name stamp)
  let (published, t) := (t.addFile temporary contents).link temporary (directory.child name)
  (published, t.removeFile temporary)

/-! ## Trees of given files -/

/-- one more file, at a path, with the directories on the way -/
def place (t : FileTree) (path contents : Text) : FileTree :=
  let components := Text.split Path.separator path
  match t.makeAlong (.start path) false components.dropLast with
  | (.ok l, t) => t.addFile (l.follow (components.getLastD [])) contents
  | (.error _, t) => t

def ofPaths (paths : List Text) : FileTree := paths.foldl (fun t path => t.place path []) empty

end FileTree
end VolumeClaim

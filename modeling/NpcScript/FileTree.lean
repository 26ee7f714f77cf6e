import NpcScript.Path

/-!
# File trees

A file tree holds files and directories in memory, and answers to paths like a working directory.
Paths are followed segment by segment, and every place on the way has to be a directory.

The working directory has directories above it, up to the root. What they are called is not known,
so a path that has left the working directory does not come back into it by a name.
-/

namespace NpcScript

/-- What a name in a file tree stands for. -/
inductive FileNode where
  | directory
  | file (bytes : List UInt8)
  deriving DecidableEq, Inhabited

/-- A place in a file tree, by the way to it from the working directory. -/
structure Place where
  /-- How many directories the way goes up. -/
  above : Nat := 0
  /-- The names on the way down from there, the last name first. -/
  names : List String := []
  deriving DecidableEq, Inhabited

/-- Files and directories by their places. -/
structure FileTree where
  nodes : List (Place × FileNode)
  /-- How many directories lie above the working directory. The last of them is the root. -/
  depth : Nat := 2
  deriving Inhabited

namespace FileTree

/-- A working directory with nothing in it. -/
def empty : FileTree := { nodes := [] }

/-- The root. -/
def root (tree : FileTree) : Place := { above := tree.depth }

/-- What stands at a place. -/
def node? (tree : FileTree) (place : Place) : Option FileNode :=
  match place.names with
  | [] => some .directory
  | _ => tree.nodes.lookup place

/-- The tree without what stood at a place. -/
def remove (tree : FileTree) (place : Place) : FileTree :=
  { tree with nodes := tree.nodes.filter (·.1 ≠ place) }

/-- The tree with something at a place, instead of what stood there. -/
def put (tree : FileTree) (place : Place) (node : FileNode) : FileTree :=
  { tree with nodes := (place, node) :: (tree.remove place).nodes }

/-- The directory that holds a place. The root is its own parent. -/
def parent (tree : FileTree) (place : Place) : Place :=
  match place.names with
  | [] => { above := min (place.above + 1) tree.depth }
  | _ :: names => { place with names := names }

/-- Where a segment leads from a place. -/
def enter (tree : FileTree) (place : Place) (segment : String) : Place :=
  if segment = ".." then tree.parent place
  else if Path.isStep segment then { place with names := segment :: place.names }
  else place

/-- The place where a path begins, and the segments to follow from there. The empty path does not
begin anywhere. -/
def start? (tree : FileTree) (path : Path) : Option (Place × List String) :=
  match path.segments with
  | [""] => none
  | "" :: segments => some (tree.root, segments)
  | segments => some ({}, segments)

/-- Follows segments from a place on. -/
def follow (tree : FileTree) (place : Place) : List String → Except ReadError Place
  | [] => .ok place
  | segment :: rest =>
      match tree.node? place with
      | none => .error .notFound
      | some (.file _) => .error .notDirectory
      | some .directory => tree.follow (tree.enter place segment) rest

/-- The place that a path leads to, whether or not something stands there. -/
def locate (tree : FileTree) (path : Path) : Except ReadError Place :=
  match tree.start? path with
  | none => .error .notFound
  | some (place, segments) => tree.follow place segments

/-- Reads a file. -/
def read (tree : FileTree) (path : Path) : Content :=
  match tree.locate path with
  | .error cause => .error cause
  | .ok place =>
      match tree.node? place with
      | none => .error .notFound
      | some .directory => .error .isDirectory
      | some (.file bytes) => .ok bytes

/-- Whether a path may name a new file: it must not end like the path of a directory. -/
def namesFile (path : Path) : Bool :=
  match path.segments.getLast? with
  | some segment => Path.isStep segment
  | none => false

/-- Writes a file into a directory that is already there. -/
def write? (tree : FileTree) (path : Path) (bytes : List UInt8) : Option FileTree :=
  match tree.locate path with
  | .error _ => none
  | .ok place =>
      match tree.node? place with
      | some .directory => none
      | _ => if namesFile path then some (tree.put place (.file bytes)) else none

/-- Deletes a file. -/
def delete? (tree : FileTree) (path : Path) : Option FileTree :=
  match tree.locate path with
  | .error _ => none
  | .ok place =>
      match tree.node? place with
      | some (.file _) => some (tree.remove place)
      | _ => none

/-- Follows segments from a place on, and makes a directory wherever nothing stands yet. A file ends
the way. -/
def makeWay (tree : FileTree) (place : Place) : List String → FileTree
  | [] => tree
  | segment :: rest =>
      let next := tree.enter place segment
      match tree.node? next with
      | none => (tree.put next .directory).makeWay next rest
      | some .directory => tree.makeWay next rest
      | some (.file _) => tree

/-- Writes a file and makes the directories on the way to it. -/
def create (tree : FileTree) (path : Path) (bytes : List UInt8) : FileTree :=
  match tree.start? path with
  | none => tree
  | some (place, segments) =>
      let tree := tree.makeWay place segments.dropLast
      (tree.write? path bytes).getD tree

end FileTree
end NpcScript

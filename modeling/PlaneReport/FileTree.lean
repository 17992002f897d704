import PlaneReport.Entries
import PlaneReport.IoError
import PlaneReport.Path

/-!
# File trees

A tree of directories, files and symbolic links, and the directory in which a program stands.  A
path is walked piece by piece, and links on the way are followed, so it leads to a location: the
names from the root down to an entry, or to where an entry could be created.

Such a tree knows no permissions and is never full, so what fails does so for the sake of names, links
and kinds of entries.  A file is written as a whole or not at all.
-/

namespace PlaneReport

inductive Node where
  | file (content : ByteArray)
  /-- A symbolic link to a path. -/
  | link (target : String)
  | directory (entries : List (String × Node))

/-- Names from the root down; no link is followed on the way. -/
abbrev Location := List String

namespace Node

/-- The node at a location. -/
def get? : Location → Node → Option Node
  | [], node => some node
  | name :: rest, .directory entries =>
    match entries.lookup name with
    | some node => get? rest node
    | none => none
  | _ :: _, _ => none

/-- Puts a node at a location.  Where there is no directory to hold it, nothing changes. -/
def put (new : Node) : Location → Node → Node
  | [], _ => new
  | name :: rest, .directory entries =>
    match entries.lookup name with
    | some node => .directory (Entries.assign name (put new rest node) entries)
    | none => if rest = [] then .directory (Entries.assign name new entries) else .directory entries
  | _ :: _, node => node

def isDirectory : Node → Bool
  | .directory _ => true
  | _ => false

end Node

/-- What a path leads to. -/
inductive Spot where
  /-- A location in a directory that is there.  `slash` tells whether the path ends in a slash, and
  so asks for a directory. -/
  | entry (location : Location) (slash : Bool)
  /-- A directory that has been removed while the program stood in it.  `depth` counts it and the
  removed ones above it. -/
  | removed (depth : Nat)
deriving DecidableEq

/-- The most bytes that a name may have. -/
def longestName : Nat := 255

/-- The most bytes that a path may have. -/
def longestPath : Nat := 4095

/-- How many links may be followed on the way. -/
def mostLinks : Nat := 40

/-- Walks pieces from a directory on.  `enter` takes over where a link is followed; a link at the
end is followed only if `last` is set. -/
def Node.walkWith (root : Node) (last : Bool)
    (enter : Location → List String → Except IoError Spot) :
    Location → List String → Except IoError Spot
  | here, [] => .ok (.entry here false)
  | here, piece :: rest =>
    if piece = "" ∨ piece = "." then walkWith root last enter here rest
    else if piece = ".." then walkWith root last enter here.dropLast rest
    else if longestName < piece.utf8ByteSize then .error .nameTooLong
    else
      let location := here ++ [piece]
      let atEnd := rest = [] ∨ rest = [""]
      match root.get? location with
      | some (.directory _) => walkWith root last enter location rest
      | some (.link target) =>
        if atEnd ∧ !last then .ok (.entry location (!rest.isEmpty))
        else enter (if Path.isAbsolute target then [] else here) (Path.pieces target ++ rest)
      | some (.file _) =>
        if atEnd then .ok (.entry location (!rest.isEmpty)) else .error .notDirectory
      | none => if atEnd then .ok (.entry location (!rest.isEmpty)) else .error .noSuchEntry

/-- Walks pieces from a directory on; the fuel is the number of links that may be followed. -/
def Node.walk (root : Node) (last : Bool) : Nat → Location → List String → Except IoError Spot
  | 0 => root.walkWith last fun _ _ => .error .tooManyLinks
  | fuel + 1 => root.walkWith last (root.walk last fuel)

structure FileTree where
  root : Node
  /-- The directory that relative paths start from. -/
  current : Location
  /-- How many directories below `current` the program stands in that have been removed. -/
  lost : Nat := 0

namespace FileTree

/-- The path of the current directory, as long as it is there. -/
def currentPath? (tree : FileTree) : Option String :=
  if tree.lost = 0 then some ("/" ++ "/".intercalate tree.current) else none

/-- Climbs out of removed directories, in which there is nothing any more.  What is left are the
removed ones that were not left, and the pieces from there on. -/
def climb : Nat → List String → Except IoError (Nat × List String)
  | 0, pieces => .ok (0, pieces)
  | lost + 1, [] => .ok (lost + 1, [])
  | lost + 1, piece :: rest =>
    if piece = "" ∨ piece = "." then climb (lost + 1) rest
    else if piece = ".." then climb lost rest
    else .error .noSuchEntry

/-- Where a path leads. -/
def resolve (tree : FileTree) (last : Bool) (path : String) : Except IoError Spot :=
  if path = "" then .error .noSuchEntry
  else if path.toList.contains '\x00' then .error .nulInName
  else if longestPath < path.utf8ByteSize then .error .nameTooLong
  else if Path.isAbsolute path then tree.root.walk last mostLinks [] (Path.pieces path)
  else do
    let (lost, pieces) ← climb tree.lost (Path.pieces path)
    if lost = 0 then tree.root.walk last mostLinks tree.current pieces
    else return .removed lost

/-- The file or directory that a path leads to. -/
def find (tree : FileTree) (path : String) : Except IoError Node := do
  match ← tree.resolve true path with
  | .removed _ => return .directory []
  | .entry location slash =>
    match tree.root.get? location with
    | none => throw .noSuchEntry
    | some node => if slash && !node.isDirectory then throw .notDirectory else return node

def exists? (tree : FileTree) (path : String) : Bool :=
  (tree.find path).toBool

def isFile (tree : FileTree) (path : String) : Bool :=
  match tree.find path with
  | .ok (.file _) => true
  | _ => false

def isDirectory (tree : FileTree) (path : String) : Bool :=
  match tree.find path with
  | .ok (.directory _) => true
  | _ => false

/-- The content of the file that a path leads to. -/
def read? (tree : FileTree) (path : String) : Option ByteArray :=
  match tree.find path with
  | .ok (.file content) => some content
  | _ => none

/-- Writes a file, in place of what it held before or as a new one. -/
def write (tree : FileTree) (path : String) (content : ByteArray) : Except IoError FileTree := do
  match ← tree.resolve true path with
  | .removed _ => throw .isDirectory
  | .entry location slash =>
    match tree.root.get? location with
    | some (.directory _) => throw .isDirectory
    | _ =>
      if slash then throw .isDirectory
      else return { tree with root := Node.put (.file content) location tree.root }

/-- Creates a node where nothing is. -/
def create (tree : FileTree) (path : String) (node : Node) : Except IoError FileTree := do
  match ← tree.resolve false path with
  | .removed _ => throw .entryExists
  | .entry location slash =>
    match tree.root.get? location with
    | some _ => throw .entryExists
    | none =>
      if slash && !node.isDirectory then throw .noSuchEntry
      else return { tree with root := Node.put node location tree.root }

def createDirectory (tree : FileTree) (path : String) : Except IoError FileTree :=
  tree.create path (.directory [])

/-- Creates the first of some paths as a directory, and before it those of the others that are
missing; each path is the parent of the one before it.  What was created stays even if the rest
fails. -/
def createFirst (tree : FileTree) : List String → Except IoError Unit × FileTree
  | [] => (.error .wholeTree, tree)
  | path :: above =>
    if path = "" then (.ok (), tree)
    else
      match tree.createDirectory path with
      | .ok tree => (.ok (), tree)
      | .error e =>
        if e.kind = .notFound then
          match tree.createFirst above with
          | (.error e, tree) => (.error e, tree)
          | (.ok (), tree) =>
            match tree.createDirectory path with
            | .ok tree => (.ok (), tree)
            | .error e => (if tree.isDirectory path then .ok () else .error e, tree)
        else (if tree.isDirectory path then .ok () else .error e, tree)

/-- Creates a directory with all that are missing above it. -/
def createDirectories (tree : FileTree) (path : String) : Except IoError Unit × FileTree :=
  tree.createFirst (Path.ancestors path)

end FileTree
end PlaneReport

import SwiftLens.Collection.OrderedMap
import SwiftLens.FileTree.Path
import SwiftLens.Text.Utf8

namespace SwiftLens

inductive FileNode
  | file (contents : ByteArray)
  | directory (entries : List (String × FileNode))

def FileNode.text? : FileNode → Option String
  | file contents => some (Utf8.decode contents)
  | directory _ => none

abbrev FileEntries : Type := List (String × FileNode)

abbrev FileLocation : Type := List String

def FileNode.find : FileNode → FileLocation → Except FileError FileNode
  | node, [] => .ok node
  | file _, _ :: _ => .error .notDirectory
  | directory entries, name :: rest =>
    match Entries.find? name entries with
    | none => .error .notFound
    | some node => node.find rest

namespace FileEntries

def makeDirectories : FileEntries → FileLocation → FileEntries × Except FileError Unit
  | entries, [] => (entries, .ok ())
  | entries, name :: rest =>
    match Entries.find? name entries with
    | some (.file _) =>
      (entries, .error (if rest.isEmpty then .alreadyExists else .notDirectory))
    | some (.directory below) =>
      let (made, result) := makeDirectories below rest
      (Entries.insert name (.directory made) entries, result)
    | none =>
      if maxNameBytes < name.utf8ByteSize then (entries, .error .nameTooLong)
      else
        let (made, result) := makeDirectories [] rest
        (Entries.insert name (.directory made) entries, result)

def write (contents : ByteArray) : FileEntries → FileLocation → Except FileError FileEntries
  | _, [] => .error .isDirectory
  | entries, [name] =>
    match Entries.find? name entries with
    | some (.directory _) => .error .isDirectory
    | some (.file _) => .ok (Entries.insert name (.file contents) entries)
    | none =>
      if maxNameBytes < name.utf8ByteSize then .error .nameTooLong
      else .ok (Entries.insert name (.file contents) entries)
  | entries, name :: rest =>
    match Entries.find? name entries with
    | none => .error .notFound
    | some (.file _) => .error .notDirectory
    | some (.directory below) =>
      (write contents below rest).map fun written =>
        Entries.insert name (.directory written) entries

/-- Directories that could all be made are there. -/
theorem find_makeDirectories {entries made : FileEntries} {location : FileLocation}
    (all : entries.makeDirectories location = (made, .ok ())) :
    ∃ below, (FileNode.directory made).find location = .ok (.directory below) := by
  fun_induction makeDirectories entries location generalizing made with
  | case1 entries =>
    cases all
    exact ⟨entries, rfl⟩
  | case2 => cases all
  | case3 entries name rest below _ inner result makes ih =>
    cases all
    obtain ⟨deepest, found⟩ := ih makes
    exact ⟨deepest, by simp [FileNode.find, Entries.find?_insert, found]⟩
  | case4 => cases all
  | case5 entries name rest _ _ inner result makes ih =>
    cases all
    obtain ⟨deepest, found⟩ := ih makes
    exact ⟨deepest, by simp [FileNode.find, Entries.find?_insert, found]⟩

/-- A file that could be written is there with its contents. -/
theorem find_write {contents : ByteArray} {entries written : FileEntries} {location : FileLocation}
    (wrote : entries.write contents location = .ok written) :
    (FileNode.directory written).find location = .ok (.file contents) := by
  fun_induction write contents entries location generalizing written with
  | case1 => cases wrote
  | case2 => cases wrote
  | case3 entries name =>
    cases wrote
    simp [FileNode.find, Entries.find?_insert]
  | case4 => cases wrote
  | case5 entries name =>
    cases wrote
    simp [FileNode.find, Entries.find?_insert]
  | case6 => cases wrote
  | case7 => cases wrote
  | case8 entries name rest _ below _ ih =>
    cases inner : write contents below rest with
    | error error => simp [inner, Except.map] at wrote
    | ok made =>
      simp only [inner, Except.map, Except.ok.injEq] at wrote
      subst wrote
      simp [FileNode.find, Entries.find?_insert, ih inner]

end FileEntries

mutual

def FileNode.listing : FileNode → List (FileLocation × FileNode)
  | .file _ => []
  | .directory entries =>
    ((FileNode.listings entries).mergeSort fun left right => !decide (right.1 < left.1)).flatMap
      Prod.snd

def FileNode.listings : List (String × FileNode) → List (String × List (FileLocation × FileNode))
  | [] => []
  | (name, node) :: rest =>
    (name, ([name], node) :: node.listing.map fun below => (name :: below.1, below.2)) ::
      FileNode.listings rest

end

structure FileTree where
  entries : FileEntries := []

namespace FileTree

def empty : FileTree := {}

def find (tree : FileTree) (location : FileLocation) : Except FileError FileNode :=
  (FileNode.directory tree.entries).find location

def requireDirectory (tree : FileTree) (location : FileLocation) : Except FileError Unit :=
  match tree.find location with
  | .ok (.directory _) => .ok ()
  | .ok (.file _) => .error .notDirectory
  | .error error => .error error

/-- Goes on from a location, of which the names are told from the last to the first. Only a
directory has a directory above it, and the one above the root is the root. -/
def follow (tree : FileTree) : List String → List PathStep → Except FileError FileLocation
  | names, [] => .ok names.reverse
  | names, .into name :: rest => tree.follow (name :: names) rest
  | names, .up :: rest =>
    match tree.requireDirectory names.reverse with
    | .ok () => tree.follow names.tail rest
    | .error error => .error error

def makeDirectoriesAt (tree : FileTree) (path : TreePath) : FileTree × Except FileError Unit :=
  match tree.follow [] path.steps with
  | .error error => (tree, .error error)
  | .ok location =>
    match path.ending with
    | .dots =>
      let (made, result) := tree.entries.makeDirectories location.dropLast
      match result with
      | .error error => (⟨made⟩, .error error)
      | .ok () => (⟨made⟩, requireDirectory ⟨made⟩ location)
    | _ =>
      let (made, result) := tree.entries.makeDirectories location
      (⟨made⟩, result)

def writeAt (tree : FileTree) (path : TreePath) (contents : ByteArray) : Except FileError FileTree :=
  match path.ending with
  | .name =>
    match tree.follow [] path.steps with
    | .error error => .error error
    | .ok location => (tree.entries.write contents location).map (⟨·⟩)
  | _ => .error .isDirectory

def readAt (tree : FileTree) (path : TreePath) : Except FileError ByteArray :=
  match (tree.follow [] path.steps).bind tree.find with
  | .error error => .error error
  | .ok (.directory _) => .error .isDirectory
  | .ok (.file contents) =>
    match path.ending with
    | .name => .ok contents
    | _ => .error .notDirectory

def makeDirectories (tree : FileTree) (path : String) : FileTree × Except FileError Unit :=
  match TreePath.ofText path with
  | .ok path => tree.makeDirectoriesAt path
  | .error error => (tree, .error error)

def write (tree : FileTree) (path : String) (contents : ByteArray) : Except FileError FileTree :=
  match TreePath.ofText path with
  | .ok path => tree.writeAt path contents
  | .error error => .error error

def place (tree : FileTree) (path : String) (contents : ByteArray) : Except FileError FileTree :=
  match TreePath.ofText path with
  | .error error => .error error
  | .ok path =>
    let (made, result) := tree.makeDirectoriesAt path.parent
    match result with
    | .error error => .error error
    | .ok () => made.writeAt path contents

def read (tree : FileTree) (path : String) : Except FileError ByteArray :=
  match TreePath.ofText path with
  | .ok path => tree.readAt path
  | .error error => .error error

def isFile (tree : FileTree) (path : String) : Bool :=
  match tree.read path with
  | .ok _ => true
  | .error _ => false

def readText (tree : FileTree) (path : String) : Except FileError String :=
  match tree.read path with
  | .error error => .error error
  | .ok contents =>
    match String.fromUTF8? contents with
    | some text => .ok text
    | none => .error .notText

def listing (tree : FileTree) : List (FileLocation × FileNode) :=
  (FileNode.directory tree.entries).listing

end FileTree
end SwiftLens

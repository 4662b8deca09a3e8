import PageTemplate.Settings.Document

/-!
# Settings in files

A file tree is what a program sees of a file system: directories by name, files by
their bytes.

**Algorithm.**  A path is followed from the root, or from the working directory if it
does not start with a slash.  Every part but the last must lead to a directory; an
empty part and a dot stay where they are, and two dots lead one step back.  The empty path
leads nowhere.
-/

namespace PageTemplate

/-- A file, or a directory with its entries. -/
inductive FileTree
  | file (bytes : List UInt8)
  | directory (entries : List (Text × FileTree))
  deriving Inhabited

namespace FileTree

/-- What stands in the tree under the given names, one inside the other. -/
def lookup? (tree : FileTree) : List Text → Option FileTree
  | [] => some tree
  | name :: names =>
      match tree with
      | file _ => none
      | directory entries =>
          match entries.lookup name with
          | some inner => inner.lookup? names
          | none => none

/-- The parts of a path between its slashes, with the part already `read`, the latest
character of which comes first. -/
def splitPath (read : Text) : Text → List Text
  | [] => [read.reverse]
  | c :: rest => if c = '/' then read.reverse :: splitPath [] rest else splitPath (c :: read) rest

/-- The place that the parts of a path lead to from another, as the names from the
root, the last of them first. -/
def follow? (root : FileTree) : List Text → List Text → Option (List Text)
  | place, [] => some place
  | place, part :: parts =>
      match root.lookup? place.reverse with
      | some (directory entries) =>
          if part = [] ∨ part = ['.'] then follow? root place parts
          else if part = ['.', '.'] then follow? root place.tail parts
          else if (entries.lookup part).isSome then follow? root (part :: place) parts
          else none
      | _ => none

/-- What a path leads to. -/
def find? (root : FileTree) (working : List Text) (path : Text) : Option FileTree :=
  match path with
  | [] => none
  | '/' :: rest => (follow? root [] (splitPath [] rest)).bind (fun p => root.lookup? p.reverse)
  | _ =>
      (follow? root working.reverse (splitPath [] path)).bind (fun p => root.lookup? p.reverse)

end FileTree

namespace Settings

/-- The settings in a file of the given bytes, which must be UTF-8. -/
def ofBytes (bytes : List UInt8) : Except SettingsError Settings :=
  match String.fromUTF8? (ByteArray.mk bytes.toArray) with
  | some source => ofToml source.toList
  | none => .error .unreadable

/-- The settings in the file that a path leads to. -/
def load (root : FileTree) (working : List Text) (path : Text) :
    Except SettingsError Settings :=
  match root.find? working path with
  | none => .error (.notFound path)
  | some (.directory _) => .error .unreadable
  | some (.file bytes) => ofBytes bytes

end Settings

end PageTemplate

import SdkClients.Keyed
import SdkClients.Text.Pieces

set_option autoImplicit false

/-!
Files and directories.

A tree of directories is looked at from one of them, the working directory. A path is
followed step by step, so each part before the last has to be a directory that is there.
A path without zero bytes and of fewer than 4096 bytes is looked at; of its parts, none
that is reached may have more than 255 bytes. The operations are those of a program that
reads text files and writes one file.
-/

namespace SdkClients

/-- What can go wrong with a path. -/
inductive FileError where
  | notFound
  | alreadyThere
  | notDirectory
  | isDirectory
  | nameTooLong
  | zeroInName
  | notText
  /-- Anything else, in the words of the system. -/
  | other (description : String)
deriving DecidableEq, Repr

/-- The wording of the system for an error. -/
def FileError.message : FileError → String
  | .notFound => "No such file or directory (os error 2)"
  | .alreadyThere => "File exists (os error 17)"
  | .notDirectory => "Not a directory (os error 20)"
  | .isDirectory => "Is a directory (os error 21)"
  | .nameTooLong => "File name too long (os error 36)"
  | .zeroInName => "file name contained an unexpected NUL byte"
  | .notText => "stream did not contain valid UTF-8"
  | .other description => description

/-- A file with its text, which is missing if the bytes are no text, or a directory. -/
inductive FileEntry where
  | file (text : Option String)
  | directory (entries : List (String × FileEntry))
deriving Repr, Inhabited

namespace FileEntry

/-- The entry of a given name in a directory. -/
def child? : FileEntry → String → Option FileEntry
  | .file _, _ => none
  | .directory entries, name => Keyed.get? entries name

/-- The entry at the end of a list of names. -/
def find? (entry : FileEntry) : List String → Option FileEntry
  | [] => some entry
  | name :: others => (entry.child? name).bind (find? · others)

/-- Puts an entry at the end of a list of names; directories on the way are made if they
are missing, and nothing is put below a file. -/
def put (added : FileEntry) : List String → FileEntry → FileEntry
  | [], _ => added
  | _ :: _, .file text => .file text
  | name :: others, .directory entries =>
      .directory (Keyed.put name
        (put added others ((Keyed.get? entries name).getD (.directory []))) entries)

mutual

/-- All files with the names that lead to them. -/
def files : FileEntry → List (List String × Option String)
  | .file text => [([], text)]
  | .directory entries => filesOfEntries entries

def filesOfEntries : List (String × FileEntry) → List (List String × Option String)
  | [] => []
  | (name, entry) :: others =>
      (entry.files.map fun found => (name :: found.1, found.2)) ++ filesOfEntries others

end

mutual

/-- How many directories stand inside one another at most. -/
def depth : FileEntry → Nat
  | .file _ => 0
  | .directory entries => depthOfEntries entries + 1

def depthOfEntries : List (String × FileEntry) → Nat
  | [] => 0
  | (_, entry) :: others => max entry.depth (depthOfEntries others)

end

end FileEntry

/-- All files, and the names that lead to the working directory. -/
structure FileTree where
  root : FileEntry
  here : List String
deriving Repr

namespace FileTree

/-- Whether a path can be looked at. -/
def checkPath (path : String) : Except FileError Unit :=
  if path.toList.contains '\x00' then .error .zeroInName
  else if 4096 ≤ path.utf8ByteSize then .error .nameTooLong
  else .ok ()

/-- Whether a directory can hold a name. -/
def checkName (name : String) : Except FileError Unit :=
  if 255 < name.utf8ByteSize then .error .nameTooLong else .ok ()

/-- Follows the parts of a path from an entry. Empty parts and single dots stay there. The
names that lead to the entry stand in reverse. -/
def walkFrom (root : FileEntry) :
    List String → FileEntry → List String → Except FileError (List String)
  | back, _, [] => .ok back.reverse
  | _, .file _, _ :: _ => .error .notDirectory
  | back, .directory entries, part :: others =>
      if part = "" ∨ part = "." then walkFrom root back (.directory entries) others
      else if part = ".." then
        let around := back.drop 1
        walkFrom root around ((root.find? around.reverse).getD (.directory entries)) others
      else do
        checkName part
        match Keyed.get? entries part with
        | some entry => walkFrom root (part :: back) entry others
        | none => throw .notFound

/-- Follows the parts of a path from a place. -/
def walk (tree : FileTree) (place parts : List String) : Except FileError (List String) :=
  match tree.root.find? place with
  | some entry => walkFrom tree.root place.reverse entry parts
  | none => .error .notFound

/-- The parts of a path. -/
def parts (path : String) : List String := Text.split '/' path

/-- Where a path starts. -/
def origin (tree : FileTree) (path : String) : List String :=
  if Text.startsWith path '/' then [] else tree.here

/-- The names that lead to the end of a path. -/
def resolve (tree : FileTree) (path : String) : Except FileError (List String) := do
  checkPath path
  if path.isEmpty then throw .notFound else tree.walk (tree.origin path) (parts path)

/-- The entry at the end of a path. -/
def entry? (tree : FileTree) (path : String) : Option FileEntry :=
  match tree.resolve path with
  | .ok place => tree.root.find? place
  | .error _ => none

def isDirectory (tree : FileTree) (path : String) : Bool :=
  match tree.entry? path with
  | some (.directory _) => true
  | _ => false

/-- The text of a file. -/
def read (tree : FileTree) (path : String) : Except FileError String := do
  let place ← tree.resolve path
  match tree.root.find? place with
  | some (.file (some text)) => return text
  | some (.file none) => throw .notText
  | some (.directory _) => throw .isDirectory
  | none => throw .notFound

/-- The names in a directory, in ascending order. -/
def names (tree : FileTree) (path : String) : List String :=
  match tree.entry? path with
  | some (.directory entries) =>
      (entries.map (·.1)).mergeSort fun left right => left ≤ right
  | _ => []

/-! ### Writing -/

/-- Makes one directory in a directory that is there. -/
def makeDirectory (tree : FileTree) (start : List String) (path : List String) :
    Except FileError FileTree := do
  match path.getLast? with
  | none => throw .alreadyThere
  | some ".." => do
      let _ ← tree.walk start path
      throw .alreadyThere
  | some name =>
      let parent ← tree.walk start path.dropLast
      match tree.root.find? parent with
      | some (.directory entries) => do
          checkName name
          if (Keyed.get? entries name).isSome then throw .alreadyThere
          return { tree with root := FileEntry.put (.directory []) (parent ++ [name]) tree.root }
      | _ => throw .notDirectory

/-- Whether parts lead to a directory. -/
def leadsToDirectory (tree : FileTree) (start path : List String) : Bool :=
  match tree.walk start path with
  | .ok place =>
      match tree.root.find? place with
      | some (.directory _) => true
      | _ => false
  | .error _ => false

/-- Makes a directory and those around it that are missing; the fuel bounds how many are
tried. A directory that is already there is as good as a new one. -/
def makeDirectoriesWithin : Nat → FileTree → List String → List String → Except FileError FileTree
  | 0, tree, _, _ => .ok tree
  | fuel + 1, tree, start, path =>
      if path.isEmpty then .ok tree
      else
        match tree.makeDirectory start path with
        | .ok tree => .ok tree
        | .error .notFound => do
            let tree ← makeDirectoriesWithin fuel tree start path.dropLast
            match tree.makeDirectory start path with
            | .ok tree => return tree
            | .error error => if tree.leadsToDirectory start path then return tree else throw error
        | .error error => if tree.leadsToDirectory start path then .ok tree else .error error

/-- Whether a part of a path matters for its name. -/
def isPlain (part : String) : Bool := part != "" && part != "."

/-- The parts of a path that matter for its name: no empty ones and no single dots. -/
def plainParts (path : String) : List String :=
  (parts path).filter isPlain

/-- The path of the directory around the end of a path. -/
def around (path : String) : String :=
  (if Text.startsWith path '/' then "/" else "") ++
    String.intercalate "/" (plainParts path).dropLast

/-- The path in front of its last part that matters, without slashes and dots at its end. -/
def beforeEnd (path : String) : String :=
  String.intercalate "/"
    ((((parts path).reverse.dropWhile (!isPlain ·)).drop 1).dropWhile (!isPlain ·)).reverse

/-- Makes the directories around the end of a path. -/
def makeParents (tree : FileTree) (path : String) : Except FileError FileTree := do
  checkPath (beforeEnd path)
  let around := (plainParts path).dropLast
  makeDirectoriesWithin (around.length + 1) tree (tree.origin path) around

/-- Writes a file into a directory that is there. A path that ends with a slash or a dot
names no file, whatever is there. -/
def write (tree : FileTree) (path text : String) : Except FileError FileTree := do
  checkPath path
  let start := tree.origin path
  let steps := ((parts path).reverse.dropWhile (· == "")).reverse
  match steps.getLast? with
  | none => throw (if path.isEmpty then .notFound else .isDirectory)
  | some name =>
      if name = "." ∨ name = ".." then do
        let _ ← tree.walk start steps
        throw .isDirectory
      else do
        let parent ← tree.walk start steps.dropLast
        match tree.root.find? parent with
        | some (.directory entries) =>
            if Text.endsWith path '/' then throw .isDirectory
            checkName name
            match Keyed.get? entries name with
            | some (.directory _) => throw .isDirectory
            | _ =>
                let file := FileEntry.file (some text)
                return { tree with root := file.put (parent ++ [name]) tree.root }
        | _ => throw .notDirectory

end FileTree

end SdkClients

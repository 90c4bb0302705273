import SdkClients.FileTree
import SdkClients.Glob.Pattern

set_option autoImplicit false

/-!
The paths that fit a pattern.

A pattern is cut at its slashes. A component without special characters names one entry;
any other component is tried on the names of a directory in ascending order. Two stars
match directories at any depth, each in front of what is inside it. A pattern that ends
with a slash fits directories only. Paths start with what the pattern starts with.
-/

namespace SdkClients.Glob

/-- A path with one more name. -/
def join (path name : String) : String :=
  if Text.endsWith path '/' then path ++ name else path ++ "/" ++ name

/-- Whether a path stays at the starting directory. -/
def isHere (path : String) : Bool :=
  !Text.startsWith path '/' && (Text.split '/' path).all fun part => part == "." || part == ""

/-- A path with one more name; the starting directory is left out. -/
def below (path name : String) : String := if isHere path then name else join path name

/-- Whether a name stands for a directory itself or the one around it. -/
def isDots (name : String) : Bool := name == "." || name == ".."

mutual

/-- The paths below a path that fit the components. -/
def fill (tree : FileTree) (directoriesOnly : Bool) :
    Nat → List (List Token) → String → List String
  | 0, _, _ => []
  | _, [], _ => []
  | fuel + 1, component :: components, path =>
      match literal? component with
      | some letters =>
          let name := String.ofList letters
          let next := below path name
          if isDots name then
            if tree.isDirectory path then finish tree directoriesOnly fuel components next else []
          else if (tree.entry? next).isSome then finish tree directoriesOnly fuel components next
          else []
      | none =>
          if tree.isDirectory path then
            let dots := if component.head? = some (.character '.') then
                ["..", "."].filter fun name => fits component name.toList
              else []
            dots.flatMap (fun name => finish tree directoriesOnly fuel components (join path name)) ++
              (tree.names path).flatMap fun name =>
                enter tree directoriesOnly fuel (component :: components) name (below path name)
          else []

/-- A path that fits so far: it is a result when no component is left. -/
def finish (tree : FileTree) (directoriesOnly : Bool) :
    Nat → List (List Token) → String → List String
  | 0, _, _ => []
  | fuel + 1, components, path =>
      if components.isEmpty then
        if directoriesOnly && !tree.isDirectory path then [] else [path]
      else fill tree directoriesOnly fuel components path

/-- Tries the first component on the last name of a path. -/
def enter (tree : FileTree) (directoriesOnly : Bool) :
    Nat → List (List Token) → String → String → List String
  | 0, _, _, _ => []
  | _, [], _, _ => []
  | fuel + 1, component :: components, name, path =>
      if isRecursive component then
        let later := components.dropWhile isRecursive
        let inside := if tree.isDirectory path then
            fill tree directoriesOnly fuel (component :: later) path
          else []
        match later with
        | [] => if tree.isDirectory path then path :: inside else []
        | next :: rest => matchName tree directoriesOnly fuel next rest name path ++ inside
      else matchName tree directoriesOnly fuel component components name path

/-- Tries a component that is not two stars. -/
def matchName (tree : FileTree) (directoriesOnly : Bool) :
    Nat → List Token → List (List Token) → String → String → List String
  | 0, _, _, _, _ => []
  | fuel + 1, component, components, name, path =>
      if fits component name.toList then finish tree directoriesOnly fuel components path else []

end

/-- The components of a pattern; a slash at the end starts none. -/
def components (pattern : String) : List String :=
  match (Text.split '/' pattern).reverse with
  | "" :: others => others.reverse
  | others => others.reverse

/-- The paths that fit a pattern. Between two components at most the depth of the tree is
gone through, which bounds the fuel. -/
def expand (tree : FileTree) (pattern : String) : Except PatternError (List String) := do
  let _ ← parse pattern
  let absolute := Text.startsWith pattern '/'
  let rest := String.ofList (pattern.toList.dropWhile (· == '/'))
  let patterns ← (components (if absolute then rest else pattern)).mapM parse
  let fuel := 4 * (patterns.length + 1) * (tree.root.depth + 2)
  return fill tree (Text.endsWith pattern '/') fuel patterns (if absolute then "/" else ".")

end SdkClients.Glob

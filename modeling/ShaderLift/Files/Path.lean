import ShaderLift.Text.Affix
import ShaderLift.Text.Lines

/-!
# Paths

A path is a text of parts divided by slashes.  Its plain form drops empty
parts and parts that are a single dot.  Its absolute form starts at the working
directory and has no part that is two dots.
-/

namespace ShaderLift
namespace Path

open Text

/-- The parts of a path between slashes. -/
def parts (path : String) : List String :=
  (fields '/' path.toList).map String.ofList

/-- Parts joined by slashes. -/
def join (names : List String) : String :=
  String.intercalate "/" names

/-- The slashes that an absolute path starts with: exactly two stay two, any
other number is one. -/
def rootOf (path : String) : String :=
  match (path.toList.takeWhile (· == '/')).length with
  | 0 => ""
  | 2 => "//"
  | _ => "/"

/-- The part names a place other than where it stands. -/
def isName (part : String) : Bool :=
  part != "" && part != "."

/-- The plain form of a path; the empty path is the working directory. -/
def plain (path : String) : String :=
  let text := rootOf path ++ join ((parts path).filter isName)
  if text = "" then "." else text

/-- A path inside another one. -/
def child (parent name : String) : String :=
  if parent = "." then name
  else if endsWith parent "/" then parent ++ name
  else parent ++ "/" ++ name

/-- Remove parts that are two dots together with the part before them.  An
absolute path has nothing above its root. -/
def collapse (isAbsolute : Bool) : List String → List String → List String
  | done, [] => done.reverse
  | done, part :: rest =>
      if part != ".." then collapse isAbsolute (part :: done) rest
      else
        match done with
        | [] =>
            if isAbsolute then collapse isAbsolute [] rest
            else collapse isAbsolute [".."] rest
        | ".." :: _ => collapse isAbsolute (".." :: done) rest
        | _ :: above => collapse isAbsolute above rest

/-- The path starts at the root of the file system or at the working
directory. -/
def isAbsolute (root path : String) : Bool :=
  startsWith path "/" || path = root || startsWith path (root ++ "/")

/-- The absolute form of a path.  `root` is the absolute form of the working
directory. -/
def absolute (root path : String) : String :=
  let whole := if isAbsolute root path then path else root ++ "/" ++ path
  let text :=
    rootOf whole ++ join (collapse true [] ((parts whole).filter isName))
  if text = "" then "." else text

/-- The directory that an absolute path lies in. -/
def directory (path : String) : String :=
  let above := join ((parts path).dropLast)
  if above = "" then rootOf path else above

end Path
end ShaderLift

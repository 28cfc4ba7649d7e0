/-!
# Paths

A path is a text with slashes. Repeated slashes, slashes at the end and pieces that are a single
dot do not matter to the name of what it leads to; two dots are a step to the directory above,
which only the walk through a file tree can take. There are no links.
-/
namespace ForwardedIp.Path

/-- The most bytes that a name between slashes may have. -/
def longestName : Nat := 255

/-- The most bytes that a whole path may have. -/
def longestPath : Nat := 4095

/-- The pieces between the slashes. Slashes at an end and repeated ones leave empty pieces. -/
def pieces (path : String) : List String := (path.toList.splitOn '/').map String.ofList

/-- The root that a path starts from. The root of the absolute paths is named by a slash. -/
def root (path : String) : List String := if path.toList.head? = some '/' then ["/"] else []

/-- The place above a place. Nothing is above a root. -/
def above (place : List String) : List String := if place = ["/"] then place else place.dropLast

/-- Drops the slashes at the end. -/
def dropSlashes (cs : List Char) : List Char := (cs.reverse.dropWhile (· == '/')).reverse

/-- The pieces of a path that leads to a directory, for which slashes at the end do not matter. -/
def directoryPieces (path : String) : List String :=
  pieces (String.ofList (dropSlashes path.toList))

/-- Drops slashes and single-dot parts at the end. The fuel bounds the number of such parts. -/
def dropIdle : Nat → List Char → List Char
  | 0, cs => cs
  | fuel + 1, cs =>
      let cs := dropSlashes cs
      match cs.reverse with
      | '.' :: '/' :: rest => dropIdle fuel rest.reverse
      | _ => cs

/-- A path without what does not matter at its end. -/
def trimmed (path : String) : List Char := dropIdle path.length path.toList

/-- The last part, unless the path names a root or ends with two dots. -/
def fileName? (path : String) : Option (List Char) :=
  let name := ((trimmed path).reverse.takeWhile (· != '/')).reverse
  if name = [] ∨ name = ['.', '.'] ∨ name = ['.'] then none else some name

/-- The path of the directory that holds a path. A root and the empty path have none, and a
single part lies in the directory with the empty path. -/
def parent? (path : String) : Option String :=
  let cs := trimmed path
  if cs.isEmpty then none
  else
    let front := cs.reverse.dropWhile (· != '/')
    if front.isEmpty then some ""
    else
      let dir := dropIdle path.length front.reverse
      some (if dir.isEmpty then "/" else String.ofList dir)

/-- A path with those of the directories above it, each before the one that holds it. The fuel
bounds their number. -/
def lineage : Nat → String → List String
  | 0, _ => []
  | fuel + 1, path =>
      if path = "" then [] else path :: ((parent? path).map (lineage fuel)).getD []

/-- The part of a file name in front of its extension. A dot in front is no mark of an extension. -/
def stem (name : List Char) : List Char :=
  let back := name.reverse.dropWhile (· != '.')
  match back with
  | '.' :: rest => if rest.isEmpty then name else rest.reverse
  | _ => name

/-- Replaces the extension of the file name, or appends one. -/
def withExtension (path extension : String) : String :=
  match fileName? path with
  | none => path
  | some name =>
      let cs := trimmed path
      String.ofList (cs.take (cs.length - name.length) ++ stem name ++ '.' :: extension.toList)

end ForwardedIp.Path

/-
# Paths

A path is a text of names between slashes.  Repeated slashes count as one, and a single dot that
is not the first name of the path counts for nothing.
-/
namespace CoverageEstimate.Path

/-- One part of a path. -/
inductive Component where
  /-- The slash that an absolute path starts with. -/
  | root
  /-- The single dot that a path starts with. -/
  | current
  /-- The double dot, which leads to the directory around. -/
  | parent
  /-- The name of a file or directory. -/
  | name (n : String)
  deriving DecidableEq, Repr, Inhabited

/-- The texts between the slashes of a path, with an empty text where slashes touch. -/
def segments (path : String) : List String := ((path.toList.splitOn '/').map String.ofList)

/-- The component for a text between slashes, if it counts for one behind the first. -/
def component? (segment : String) : Option Component :=
  if segment = "" || segment = "." then none
  else if segment = ".." then some .parent
  else some (.name segment)

/-- Whether the path starts at the root. -/
def isAbsolute (path : String) : Bool := path.toList.head? == some '/'

/-- The components of a path. -/
def components (path : String) : List Component :=
  let all := segments path
  let rest := all.filterMap component?
  if isAbsolute path then .root :: rest
  else if all.head? == some "." then .current :: rest
  else rest

/-- The last component of a path, if it is a name. -/
def fileName? (path : String) : Option String :=
  match (components path).getLast? with
  | some (.name n) => some n
  | _ => none

/-- The text behind the last dot of a file name, unless there is no dot or nothing before it. -/
def extensionOfName? (name : String) : Option String :=
  let back := name.toList.reverse
  match back.dropWhile (· != '.') with
  | _ :: _ :: _ => some (String.ofList (back.takeWhile (· != '.')).reverse)
  | _ => none

/-- The extension of a path, without its dot. -/
def extension? (path : String) : Option String := (fileName? path).bind extensionOfName?

/-- The text of a component. -/
def Component.text : Component → String
  | root => ""
  | current => "."
  | parent => ".."
  | name n => n

/-- The path of some components. -/
def ofComponents : List Component → String
  | [.root] => "/"
  | cs => "/".intercalate (cs.map Component.text)

/-- The path without its last component, unless it is the root or empty. -/
def parent? (path : String) : Option String :=
  let cs := components path
  match cs.getLast? with
  | none => none
  | some .root => none
  | some _ => some (ofComponents cs.dropLast)

/-- The path of `path` seen from the directory `base`. -/
def join (base path : String) : String :=
  if isAbsolute path || base = "" then path
  else if base.toList.getLast? == some '/' then base ++ path
  else base ++ "/" ++ path

/-- The absolute path of `path` seen from the absolute directory `base`, without the components
that count for nothing.  A slash at the end is kept. -/
def absolute (base path : String) : String :=
  let here := components path
  let all := if isAbsolute path then here else components base ++ here.filter (· != .current)
  let text := ofComponents all
  if path.toList.getLast? == some '/' && text != "/" then text ++ "/" else text

end CoverageEstimate.Path

/-
This file takes paths apart. A path is text whose parts are divided by slashes.
-/

namespace BehaviourScript.Path

/-- The parts of a path between its slashes, also the empty ones. -/
def parts (path : String) : List (List Char) := path.toList.splitOn '/'

/-- The parts of a path that lead somewhere. A dot counts only in front. -/
def components (path : String) : List String :=
  match (parts path).map String.ofList with
  | [] => []
  | first :: rest =>
    (if first = "" then [] else [first]) ++ rest.filter fun part => part != "" && part != "."

/-- Whether a path starts from the root of the file system. -/
def isAbsolute (path : String) : Bool := path.toList.head? == some '/'

/-- A path followed from another one. -/
def join (base path : String) : String :=
  if isAbsolute path then path
  else if base = "" ∨ base.toList.getLast? = some '/' then base ++ path
  else base ++ "/" ++ path

/-- The last part of a path, if it names something. -/
def fileName? (path : String) : Option String :=
  match (components path).getLast? with
  | none => none
  | some last => if last = "." ∨ last = ".." then none else some last

/-- Splits a file's name at its last dot. A dot in front does not count. -/
def splitName (name : String) : String × Option String :=
  let reversed := name.toList.reverse
  match reversed.dropWhile (· != '.') with
  | _ :: stem =>
    if stem.isEmpty then (name, none)
    else (String.ofList stem.reverse,
      some (String.ofList (reversed.takeWhile (· != '.')).reverse))
  | [] => (name, none)

/-- The name of a file up to its last dot. -/
def fileStem? (path : String) : Option String := (fileName? path).map (splitName · |>.1)

/-- The name of a file from its last dot on. -/
def extension? (path : String) : Option String := (fileName? path).bind (splitName · |>.2)

/-- A path up to the end of its file's name, without slashes and dots behind. -/
def trimEnd (path : String) : List Char :=
  let rec trim : List Char → List Char
    | '/' :: rest => trim rest
    | '.' :: '/' :: rest => trim rest
    | reversed => reversed
  (trim path.toList.reverse).reverse

/-- A path with another extension. A path that names no file stays as it is. -/
def withExtension (path extension : String) : String :=
  match fileName? path with
  | none => path
  | some name =>
    let whole := trimEnd path
    String.ofList (whole.take (whole.length - name.length)) ++ (splitName name).1 ++ "."
      ++ extension

/-- Whether a row of parts comes before another, part by part, or is equal. -/
def comesBefore : List String → List String → Bool
  | [], _ => true
  | _ :: _, [] => false
  | left :: lefts, right :: rights =>
    if left = right then comesBefore lefts rights else left < right

end BehaviourScript.Path

/-
This file holds a tree of files and directories in memory. The directory at its
root is where the tool runs, and no other is above it.
-/

import BehaviourScript.Assoc
import BehaviourScript.Host
import BehaviourScript.Path

namespace BehaviourScript

/-- What stands in a tree of files. -/
inductive DiskNode where
  | file (bytes : Bytes)
  | directory
  deriving DecidableEq

/-- A tree of files, by the names that lead to each. The root is a directory
and has no entry. -/
structure Disk where
  nodes : List (List String × DiskNode)
  deriving DecidableEq

namespace Disk

/-- A tree with its root alone. -/
def empty : Disk := ⟨[]⟩

/-- What stands at the end of a row of names. -/
def node? (disk : Disk) (names : List String) : Option DiskNode :=
  if names.isEmpty then some .directory else Assoc.get? names disk.nodes

/-- How many bytes a name may have. -/
def nameLimit : Nat := 255

/-- How many bytes a path may have. -/
def pathLimit : Nat := 4095

/-- Follows parts of a path from a place. All but the end must be
directories. -/
def follow (disk : Disk) : (place : List String) → List String → Except FileError (List String)
  | place, [] => .ok place
  | place, part :: rest =>
    match disk.node? place with
    | none => .error .notFound
    | some (.file _) => .error .notDirectory
    | some .directory =>
      if nameLimit < part.utf8ByteSize then .error .nameTooLong
      else if part = "" ∨ part = "." then follow disk place rest
      else if part = ".." then follow disk place.dropLast rest
      else follow disk (place ++ [part]) rest

/-- Checks what can be said of a path without following it. -/
def checkPath (path : String) : Except FileError Unit :=
  if path.toList.contains '\x00' then .error .zeroInPath
  else if pathLimit < path.utf8ByteSize then .error .nameTooLong
  else if path = "" ∨ Path.isAbsolute path then .error .notFound
  else .ok ()

/-- The place that a path leads to; nothing need stand there. -/
def locate (disk : Disk) (path : String) : Except FileError (List String) := do
  checkPath path
  disk.follow [] ((Path.parts path).map String.ofList)

/-- What stands at a path. -/
def find (disk : Disk) (path : String) : Except FileError DiskNode := do
  match disk.node? (← disk.locate path) with
  | some node => return node
  | none => throw .notFound

/-- The bytes of a file. -/
def read (disk : Disk) (path : String) : Except FileError Bytes := do
  match ← disk.find path with
  | .file bytes => return bytes
  | .directory => throw .isDirectory

/-- Puts a node at a place. -/
def put (disk : Disk) (names : List String) (node : DiskNode) : Disk :=
  ⟨Assoc.set names node disk.nodes⟩

/-- Makes a file or replaces its bytes. A path with a slash behind is one of a
directory. -/
def write (disk : Disk) (path : String) (bytes : Bytes) : Except FileError Disk := do
  checkPath path
  let named := path.toList.reverse.dropWhile (· == '/')
  let place ← disk.locate (String.ofList named.reverse)
  if disk.node? place = some .directory ∨ named.length < path.length then throw .isDirectory
  return disk.put place (.file bytes)

/-- Makes the directories on the way along a row of names. -/
def makeAlong (disk : Disk) : (place : List String) → List String → Except FileError Disk
  | _, [] => .ok disk
  | place, name :: rest =>
    let next := if name = ".." then place.dropLast else place ++ [name]
    if nameLimit < name.utf8ByteSize then .error .nameTooLong
    else match disk.node? next with
    | some (.file _) => if rest.isEmpty then .error .alreadyExists else .error .notDirectory
    | some .directory => makeAlong disk next rest
    | none => makeAlong (disk.put next .directory) next rest

/-- Makes a directory and those above it that are missing. -/
def makeDirectories (disk : Disk) (path : String) : Except FileError Disk :=
  if path = "" then .ok disk
  else do
    checkPath path
    disk.makeAlong [] ((Path.components path).filter (· != "."))

/-- The places of all files below a place, without the names that lead there. -/
def filesBelow (disk : Disk) (place : List String) : List (List String) :=
  disk.nodes.filterMap fun
    | (names, .file _) =>
      if place.isPrefixOf names then some (names.drop place.length) else none
    | (_, .directory) => none

/-- The paths of all files below a directory. -/
def filesUnder (disk : Disk) (path : String) : Except FileError (List String) := do
  let place ← disk.locate path
  return (disk.filesBelow place).map fun names =>
    Path.join path (String.intercalate "/" names)

end Disk

end BehaviourScript

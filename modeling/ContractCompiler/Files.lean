/-
Files and the errors of reading them.

A directory is given by the files in it.  Paths are followed from it part by
part; a file is read as text, which has to be UTF-8.
-/

import ContractCompiler.Text.Bytes

namespace ContractCompiler

inductive FileError where
  | notFound
  | permissionDenied
  | notADirectory
  | isADirectory
  | nameTooLong
  | nameHoldsNull
  | notText
  | other (text : String)
  deriving DecidableEq, Repr

def FileError.message : FileError → String
  | notFound => "No such file or directory (os error 2)"
  | permissionDenied => "Permission denied (os error 13)"
  | notADirectory => "Not a directory (os error 20)"
  | isADirectory => "Is a directory (os error 21)"
  | nameTooLong => "File name too long (os error 36)"
  | nameHoldsNull => "file name contained an unexpected NUL byte"
  | notText => "stream did not contain valid UTF-8"
  | other text => text

def textOfBytes? (bytes : List UInt8) : Option String :=
  String.fromUTF8? ⟨bytes.toArray⟩

/-- A directory: the files below it, each with the names that lead to it. -/
structure Directory where
  files : List (List String × List UInt8)

namespace Directory

def partsOf (path : List Char) : List (List Char) :=
  match path with
  | [] => [[]]
  | '/' :: rest => [] :: partsOf rest
  | character :: rest =>
      match partsOf rest with
      | [] => [[character]]
      | part :: parts => (character :: part) :: parts

def namesOf (path : String) : List String :=
  (partsOf path.toList).map String.ofList

def ofFiles (files : List (String × List UInt8)) : Directory :=
  ⟨files.map fun (path, bytes) => (namesOf path, bytes)⟩

inductive Place where
  | file (bytes : List UInt8)
  | directory
  | nothing

def find (directory : Directory) (names : List String) : Place :=
  match directory.files.find? fun file => file.1 == names with
  | some file => .file file.2
  | none =>
      if names.isEmpty ||
          directory.files.any fun file => names.isPrefixOf file.1 then
        .directory
      else
        .nothing

/-- Follows names from a directory below the given one.  Behind a file no
name can be followed, and above the given directory only the way further up
is known. -/
def follow (directory : Directory) :
    (below : Option (List String)) → List String →
      Except FileError (Option (List String) × Place)
  | none, [] => .ok (none, .directory)
  | some names, [] => .ok (some names, directory.find names)
  | below, name :: rest =>
      match (match below with
        | none => Place.directory
        | some names => directory.find names) with
      | .file _ => .error .notADirectory
      | .nothing => .error .notFound
      | .directory =>
          if name = "" ∨ name = "." then follow directory below rest
          else if name = ".." then
            match below with
            | none => follow directory none rest
            | some [] => follow directory none rest
            | some (first :: names) =>
                follow directory (some (first :: names).dropLast) rest
          else if name.utf8ByteSize > 255 then .error .nameTooLong
          else
            match below with
            | none => .error .notFound
            | some names =>
                follow directory (some (names ++ [name])) rest

def read (directory : Directory) (path : String) :
    Except FileError String :=
  if path.isEmpty then .error .notFound
  else if path.toList.contains '\x00' then .error .nameHoldsNull
  else if path.utf8ByteSize ≥ 4096 then .error .nameTooLong
  else
    let start : Option (List String) :=
      if path.toList.head? = some '/' then none else some []
    match directory.follow start (namesOf path) with
    | .error error => .error error
    | .ok (_, .nothing) => .error .notFound
    | .ok (_, .directory) => .error .isADirectory
    | .ok (_, .file bytes) =>
        match textOfBytes? bytes with
        | some text => .ok text
        | none => .error .notText

end Directory

end ContractCompiler

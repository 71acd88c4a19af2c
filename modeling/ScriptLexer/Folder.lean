import ScriptLexer.Text.Utf8

/-! The folder a program runs in, and opening a file by its path from there. The folder lies in an
otherwise empty world: above it there are only folders, whose other entries do not exist. Paths and
names have limited lengths, counted in bytes of UTF-8. -/
namespace ScriptLexer

inductive Content where
  | file (bytes : List UInt8)
  | folder
  deriving DecidableEq, Repr

/-- Entries by the names that lead to them. Folders on the way need no entry of their own. -/
structure Folder where
  entries : List (List Text × Content)
  deriving DecidableEq, Repr

inductive OpenFailure where
  | notFound
  | isFolder
  | notFolder
  | nameTooLong
  deriving DecidableEq, Repr

def OpenFailure.message : OpenFailure → Text
  | notFound => "No such file or directory".toList
  | isFolder => "Is a directory".toList
  | notFolder => "Not a directory".toList
  | nameTooLong => "File name too long".toList

/-- The parts of a text between separators; a text without one is a single part. -/
def splitOn (separator : Char) : Text → List Text
  | [] => [[]]
  | c :: rest =>
    if c = separator then [] :: splitOn separator rest
    else match splitOn separator rest with
      | [] => [[c]]
      | part :: parts => (c :: part) :: parts

/-- The names on a path. An empty name or a dot stands for the place it is met at. -/
def pathNames (path : Text) : List Text :=
  (splitOn '/' path).filter fun name => name != [] && name != ['.']

namespace Folder

/-- The longest name an entry can have. -/
def nameLimit : Nat := 255

/-- The longest path that can be asked for. -/
def pathLimit : Nat := 4095

def content? (folder : Folder) (names : List Text) : Option Content :=
  match folder.entries.lookup names with
  | some content => some content
  | none =>
    if folder.entries.any fun entry => names.isPrefixOf entry.1 then some .folder else none

/-- Follows names from a place, which is a list of names below the folder or, if absent, somewhere
outside it. An empty name stands for the place itself, as a dot does, and only a folder has one. -/
def walk (folder : Folder) : (place : Option (List Text)) → List Text →
    Except OpenFailure (List UInt8)
  | _, [] => .error .isFolder
  | place, name :: rest =>
    if name = [] ∨ name = ['.'] then walk folder place rest
    else if name = ['.', '.'] then
      match place with
      | some (inside :: names) => walk folder (some (inside :: names).dropLast) rest
      | _ => walk folder none rest
    else if nameLimit < (Utf8.encode name).length then .error .nameTooLong
    else match place with
      | none => .error .notFound
      | some names =>
        match folder.content? (names ++ [name]) with
        | none => .error .notFound
        | some .folder => walk folder (some (names ++ [name])) rest
        | some (.file bytes) => if rest = [] then .ok bytes else .error .notFolder

/-- The bytes of the file at a path. A path that begins with a slash leads outside. -/
def openFile (folder : Folder) (path : Text) : Except OpenFailure (List UInt8) :=
  if pathLimit < (Utf8.encode path).length then .error .nameTooLong
  else
    match path with
    | [] => .error .notFound
    | '/' :: _ => folder.walk none (splitOn '/' path)
    | _ => folder.walk (some []) (splitOn '/' path)

end Folder

end ScriptLexer

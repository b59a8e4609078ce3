import KvServer.Text.Utf8

/-!
# Trees of files

A tree holds files and directories below a working directory.  A path goes from place to place,
part by part; a place is the list of the names that lead to it.
-/

namespace KvServer

open Text

inductive Node
  | file (content : Bytes)
  | directory
deriving DecidableEq, Repr

/-- A tree: its files and directories with their places, where a later entry replaces an earlier. -/
structure Files where
  entries : List (List String × Node) := []
deriving DecidableEq, Repr

namespace Files

/-- The places that a path goes through from a place on.  The walk ends where the path leaves the
tree. -/
def places (here : List String) : List String → List (List String)
  | [] => [here]
  | part :: parts =>
      if part = "" ∨ part = "." then here :: places here parts
      else if part = ".." then
        if here.isEmpty then [here] else here :: places here.dropLast parts
      else here :: places (here ++ [part]) parts

def parts (path : String) : List String := (path.toList.splitOn '/').map .ofList

def walk (path : String) : List (List String) :=
  match path.toList with
  | '/' :: _ => [[]]
  | _ => places [] (parts path)

def place (path : String) : List String := (walk path).getLast?.getD []

def insert (files : Files) (path : String) (node : Node) : Files :=
  ⟨files.entries ++ [(place path, node)]⟩

def content? (files : Files) (here : List String) : Option Bytes :=
  match files.entries.reverse.lookup here with
  | some (.file content) => some content
  | _ => none

/-- Whether a place is a directory, given or needed for what is below it. -/
def isDirectory (files : Files) (here : List String) : Bool :=
  here.isEmpty || files.entries.reverse.lookup here = some .directory ||
    files.entries.any fun e ↦ here.length < e.1.length && here.isPrefixOf e.1

def read? (files : Files) (path : String) : Option Bytes :=
  let ps := walk path
  if ps.dropLast.all files.isDirectory then ps.getLast?.bind files.content? else none

/-- Whether the system takes a path: there is no NUL in it, none of its parts has more than 255
bytes, and all of it has fewer than 4096. -/
def isPath (path : String) : Bool :=
  !path.toList.contains '\x00' && (parts path).all (·.utf8ByteSize ≤ 255) &&
    path.utf8ByteSize < 4096

def isAbsolute (path : String) : Bool := path.toList.head? = some '/'

/-- Whether a path goes to or through `/dev/null`, which every system has and which is no
directory. -/
def throughNull (path : String) : Bool :=
  isAbsolute path &&
    ["dev", "null"].isPrefixOf ((parts path).filter fun part ↦ part ≠ "" ∧ part ≠ ".")

/-- Whether a path can be made a directory: the system takes it, and no plain file is in its way. -/
def canHoldDirectory (files : Files) (path : String) : Bool :=
  isPath path && !throughNull path && (walk path).all fun here ↦ (files.content? here).isNone

def inside (path name : String) : String :=
  if path = "" || path.endsWith "/" then path ++ name else path ++ "/" ++ name

end Files

def withTomlExtension? (path : String) : Option String :=
  let parts := ((Files.parts path).reverse.dropWhile fun part ↦ part = "" ∨ part = ".").reverse
  match parts.getLast? with
  | none | some ".." => none
  | some _ => some ("/".intercalate parts ++ ".toml")

def settingsPaths (path : String) : List String := path :: (withTomlExtension? path).toList

def Files.settingsFile? (files : Files) (path : String) : Option Bytes :=
  (settingsPaths path).findSome? files.read?

end KvServer

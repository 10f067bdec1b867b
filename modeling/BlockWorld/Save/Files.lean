import BlockWorld.Fault
import BlockWorld.Save.Entries
import BlockWorld.Text.Path
/-!
A tree of files and folders, addressed by texts such as `saves/world.zip`. Contents are plain
bytes or a finished archive of entries. A path is followed name by name, from the root if it starts
with a slash and else from the current folder.
-/
namespace BlockWorld.Save

/-- Why the file system refuses an operation. -/
inductive FileProblem where
  | noSuchFile
  | notDirectory
  | isDirectory
  | fileExists
  | nameTooLong
  | invalidArgument
  deriving DecidableEq, Repr

/-- The wording of a refusal. -/
def FileProblem.message : FileProblem → String
  | .noSuchFile => "no such file or directory"
  | .notDirectory => "not a directory"
  | .isDirectory => "is a directory"
  | .fileExists => "file exists"
  | .nameTooLong => "file name too long"
  | .invalidArgument => "invalid argument"

/-- A failed operation on one path, or on two in the case of renaming. -/
inductive FileError where
  | opening (path : String) (problem : FileProblem)
  | reading (path : String) (problem : FileProblem)
  | makingFolder (path : String) (problem : FileProblem)
  | renaming (source target : String) (problem : FileProblem)
  /-- No free name is found for a temporary file. -/
  | makingTemp (pattern : String)
  deriving DecidableEq, Repr

namespace FileError

/-- Why the operation failed. -/
def problem : FileError → FileProblem
  | .opening _ p => p
  | .reading _ p => p
  | .makingFolder _ p => p
  | .renaming _ _ p => p
  | .makingTemp _ => .fileExists

/-- The wording of a failed operation. -/
def message : FileError → String
  | .opening path p => "open " ++ path ++ ": " ++ p.message
  | .reading path p => "read " ++ path ++ ": " ++ p.message
  | .makingFolder path p => "mkdir " ++ path ++ ": " ++ p.message
  | .renaming source target p => "rename " ++ source ++ " " ++ target ++ ": " ++ p.message
  | .makingTemp pattern => "createtemp " ++ pattern ++ ": file already exists"

/-- A missing file is a reason that callers act on. -/
def reasons (e : FileError) : List Reason :=
  if e.problem = .noSuchFile then [.notExist] else []

instance : Fault FileError := ⟨message, reasons⟩

end FileError

/-! ## The tree -/

/-- What stands at a path. -/
inductive Node where
  | folder
  | file (data : ByteArray)
  | archive (entries : Entries)

/-- Whether a node is a folder. -/
def Node.isFolder : Node → Bool
  | .folder => true
  | _ => false

/-- Where something stands in the tree: the names from the root down. -/
abbrev PathKey := List String

/-- All files and folders. `serial` numbers the temporary files made so far, and `here` is the current
folder. -/
structure Files where
  nodes : List (PathKey × Node)
  serial : Nat
  here : PathKey

namespace Files

/-- A tree without anything in it. -/
def empty : Files := ⟨[], 0, []⟩

instance : Inhabited Files := ⟨empty⟩

/-- The node at a place; the root is always there. -/
def node? (fs : Files) (key : PathKey) : Option Node :=
  if key = [] then some .folder else fs.nodes.lookup key

/-- Puts a node at a place. -/
def put (fs : Files) (key : PathKey) (node : Node) : Files :=
  { fs with nodes := (key, node) :: fs.nodes.filter (·.1 != key) }

/-- Removes the node at a place. -/
def remove (fs : Files) (key : PathKey) : Files :=
  { fs with nodes := fs.nodes.filter (·.1 != key) }

/-! ## Following paths -/

/-- The number of bytes that a name may have. -/
def nameLimit : Nat := 255

/-- The number of bytes that a path must stay below. -/
def pathLimit : Nat := 4096

/-- Follows names from a folder on. The last one need not be there; all before it have to be folders, and
it has to be one too if a slash follows it. -/
def walk (fs : Files) : (place : PathKey) → List String → Except FileProblem (PathKey × Option Node)
  | place, [] => .ok (place, some .folder)
  | place, name :: rest =>
    if name = "" ∨ name = "." then walk fs place rest
    else if name = ".." then walk fs place.dropLast rest
    else if nameLimit < name.utf8ByteSize then .error .nameTooLong
    else
      let key := place ++ [name]
      match fs.node? key with
      | none => if rest.all (· == "") then .ok (key, none) else .error .noSuchFile
      | some .folder => walk fs key rest
      | some node => if rest.isEmpty then .ok (key, some node) else .error .notDirectory

/-- Where a path leads, and what stands there. -/
def find (fs : Files) (path : String) : Except FileProblem (PathKey × Option Node) :=
  let cs := path.toList
  if cs.contains (Char.ofNat 0) then .error .invalidArgument
  else if cs.isEmpty then .error .noSuchFile
  else if pathLimit ≤ path.utf8ByteSize then .error .nameTooLong
  else fs.walk (if cs.head? = some '/' then [] else fs.here) ((cs.splitOn '/').map String.ofList)

/-- Where a path leads, if it can be followed. -/
def key? (fs : Files) (path : String) : Option PathKey := (fs.find path).toOption.map (·.1)

/-- Looks up a path. -/
def stat (fs : Files) (path : String) : Except FileProblem Node :=
  match fs.find path with
  | .error p => .error p
  | .ok (_, some node) => .ok node
  | .ok (_, none) => .error .noSuchFile

/-- Removes what a path leads to. -/
def removeAt (fs : Files) (path : String) : Files :=
  match fs.key? path with
  | some key => fs.remove key
  | none => fs

/-! ## Folders -/

/-- Makes the folders of some paths that are not there, one after the other. Those that were made stay
when a later one cannot be made. -/
def makeFolders (fs : Files) : List String → Files × Except FileError Unit
  | [] => (fs, .ok ())
  | path :: rest =>
    match fs.find path with
    | .ok (_, some node) =>
      if node.isFolder then makeFolders fs rest else (fs, .error (.makingFolder path .notDirectory))
    | .ok (key, none) => makeFolders (fs.put key .folder) rest
    | .error p => (fs, .error (.makingFolder path p))

/-- The texts of a path and of the folders above it, from the top down. -/
def pathTexts (path : String) : List String :=
  let names := path.toList.splitOn '/'
  ((List.range names.length).map fun i =>
    String.ofList (List.intercalate ['/'] (names.take (i + 1)))).filter (· != "")

/-- Makes a folder with all that is missing above it. -/
def mkdirAll (fs : Files) (path : String) : Files × Except FileError Unit :=
  fs.makeFolders (pathTexts path)

/-- Makes a folder and goes there. -/
def enter (fs : Files) (path : String) : Files :=
  let fs := (fs.mkdirAll path).1
  { fs with here := (fs.key? path).getD fs.here }

/-! ## Files -/

/-- The mark at the start of an archive. One without entries starts with the mark of its end. -/
def archiveMark (entries : Entries) : ByteArray :=
  if entries.pairs.isEmpty then ⟨#[0x50, 0x4B, 0x05, 0x06]⟩ else ⟨#[0x50, 0x4B, 0x03, 0x04]⟩

/-- Reads a file of plain bytes. Of an archive only its mark is given: all that is read this way is text, and
a text is refused at the control characters in the mark, whatever comes after them. -/
def readFile (fs : Files) (path : String) : Except FileError ByteArray :=
  match fs.stat path with
  | .error p => .error (.opening path p)
  | .ok .folder => .error (.reading path .isDirectory)
  | .ok (.file data) => .ok data
  | .ok (.archive entries) => .ok (archiveMark entries)

/-- Writes a file of plain bytes into a folder that exists. -/
def writeFile (fs : Files) (path : String) (data : ByteArray) : Except FileError Files :=
  match fs.find path with
  | .error p => .error (.opening path p)
  | .ok (_, some .folder) => .error (.opening path .isDirectory)
  | .ok (key, some _) => .ok (fs.put key (.file data))
  | .ok (key, none) =>
    if path.endsWith "/" then .error (.opening path .isDirectory) else .ok (fs.put key (.file data))

/-- Adds bytes at the end of a file, which is made if it is not there. An archive is read as before when
bytes follow it. -/
def appendFile (fs : Files) (path : String) (data : ByteArray) : Except FileError Files :=
  match fs.stat path with
  | .ok (.file old) => fs.writeFile path (old ++ data)
  | .ok (.archive _) => .ok fs
  | _ => fs.writeFile path data

/-- Writes a file, making the folders above it first. -/
def putFile (fs : Files) (path : String) (data : ByteArray) : Files × Except FileError Unit :=
  match fs.mkdirAll (Text.folderOf path) with
  | (fs, .error e) => (fs, .error e)
  | (fs, .ok ()) =>
    match fs.writeFile path data with
    | .ok fs => (fs, .ok ())
    | .error e => (fs, .error e)

/-- Where the numbers of temporary files start. -/
def firstSerial : Nat := 1000000000

/-- How many numbers are tried for a temporary file. -/
def tempTries : Nat := 10000

/-- The path of a temporary file in a folder. The name starts with a dot and ends in `.tmp`. -/
def tempPath (folder stem number : String) : String :=
  (if folder.endsWith "/" then folder else folder ++ "/") ++ "." ++ stem ++ "-" ++ number ++ ".tmp"

/-- Whether something stands at a path. -/
def taken (fs : Files) (path : String) : Bool :=
  match fs.find path with
  | .ok (_, some _) => true
  | _ => false

/-- The first of some numbers whose temporary file is not there yet. -/
def freeNumber (fs : Files) (folder stem : String) : (tries n : Nat) → Option Nat
  | 0, _ => none
  | tries + 1, n =>
    if fs.taken (tempPath folder stem (toString n)) then freeNumber fs folder stem tries (n + 1)
    else some n

/-- Makes an empty file with a new name in a folder; gives its path. -/
def createTemp (fs : Files) (folder stem : String) : Except FileError (String × Files) :=
  match fs.freeNumber folder stem tempTries (firstSerial + fs.serial) with
  | none => .error (.makingTemp (tempPath folder stem "*"))
  | some n =>
    let path := tempPath folder stem (toString n)
    let fs := { fs with serial := fs.serial + 1 }
    (fs.writeFile path .empty).map fun fs => (path, fs)

/-- Moves a file over another path. No folder is ever replaced. -/
def rename (fs : Files) (source target : String) : Except FileError Files :=
  let refuse (p : FileProblem) : Except FileError Files := .error (.renaming source target p)
  match fs.find source, fs.find target with
  | .error p, _ => refuse p
  | .ok (_, none), _ => refuse .noSuchFile
  | _, .error p => refuse p
  | _, .ok (_, some .folder) => refuse .fileExists
  | .ok (old, some node), .ok (new, found) =>
    if found.isNone && target.endsWith "/" then refuse .notDirectory
    else .ok ((fs.remove old).put new node)

end Files

end BlockWorld.Save

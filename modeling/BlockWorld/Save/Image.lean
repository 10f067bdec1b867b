import BlockWorld.Save.Disk
/-!
A disk as one run of bytes, so that it can be kept between runs of a program. Numbers are words of
eight bytes, the highest first; texts, bytes and lists have their length in front. Stores are closed
when a disk is put away.
-/
namespace BlockWorld.Save.Image

/-- The bytes that every image starts with. -/
def mark : ByteArray := "blockworld disk 1\n".toUTF8

/-! ## Writing -/

/-- A number below `2 ^ 64`. -/
def ofNat (n : Nat) : ByteArray :=
  ⟨((List.range 8).map fun i => (n >>> (8 * (7 - i))).toUInt8).toArray⟩

/-- Some bytes. -/
def ofBytes (data : ByteArray) : ByteArray := ofNat data.size ++ data

/-- A text. -/
def ofText (s : String) : ByteArray := ofBytes s.toUTF8

/-- A list. -/
def ofList {α : Type} (item : α → ByteArray) (l : List α) : ByteArray :=
  l.foldl (fun out a => out ++ item a) (ofNat l.length)

/-- The entries of a save. -/
def ofEntries (e : Entries) : ByteArray :=
  ofList (fun (name, data) => ofText name ++ ofBytes data) e.pairs

/-- What stands at a path. -/
def ofNode : Node → ByteArray
  | .folder => ofNat 0
  | .file data => ofNat 1 ++ ofBytes data
  | .archive entries => ofNat 2 ++ ofEntries entries

/-- A path. -/
def ofKey (key : PathKey) : ByteArray := ofList ofText key

/-- A tree of files. -/
def ofFiles (fs : Files) : ByteArray :=
  ofNat fs.serial ++ ofList (fun (key, node) => ofKey key ++ ofNode node) fs.nodes

/-- A store. -/
def ofStore (s : Generations) : ByteArray :=
  ofNat s.session ++ ofEntries s.database ++ ofNat s.started

/-- A disk. -/
def encode (d : Disk) : ByteArray :=
  mark ++ ofFiles d.files ++ ofList (fun (key, s) => ofKey key ++ ofStore s) d.stores

/-! ## Reading -/

/-- Reads a value at a place in some bytes, and moves on. -/
abbrev Reader := ReaderT ByteArray (StateT Nat Option)

/-- A given number of bytes. -/
def take (n : Nat) : Reader ByteArray := fun data i =>
  if i + n ≤ data.size then some (data.extract i (i + n), i + n) else none

/-- A number. -/
def nat : Reader Nat := do
  return (← take 8).foldl (fun n b => n * 256 + b.toNat) 0

/-- Some bytes. -/
def bytes : Reader ByteArray := do take (← nat)

/-- A text. -/
def text : Reader String := do
  match String.fromUTF8? (← bytes) with
  | some s => return s
  | none => failure

/-- A given number of values. -/
def times {α : Type} (item : Reader α) : Nat → Reader (List α)
  | 0 => return []
  | n + 1 => do
    let a ← item
    return a :: (← times item n)

/-- A list. -/
def list {α : Type} (item : Reader α) : Reader (List α) := do times item (← nat)

/-- The entries of a save. -/
def entries : Reader Entries := do
  return .ofList (← list do return (← text, ← bytes))

/-- What stands at a path. -/
def node : Reader Node := do
  match ← nat with
  | 0 => return .folder
  | 1 => return .file (← bytes)
  | 2 => return .archive (← entries)
  | _ => failure

/-- A path. -/
def key : Reader PathKey := list text

/-- A tree of files. -/
def files : Reader Files := do
  let serial ← nat
  return ⟨← list do return (← key, ← node), serial, []⟩

/-- A store, which is closed. -/
def store : Reader Generations := do
  return ⟨false, ← nat, ← entries, ← nat⟩

/-- Reads an image; bytes that are none give nothing. -/
def decode? (data : ByteArray) : Option Disk := do
  let disk : Reader Disk := do
    let start ← take mark.size
    if start != mark then failure
    return ⟨← files, ← list do return (← key, ← store)⟩
  let (d, rest) ← disk data 0
  if rest = data.size then some d else none

end BlockWorld.Save.Image

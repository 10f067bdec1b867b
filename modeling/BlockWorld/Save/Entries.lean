/-!
Named entries of bytes, kept in increasing order of their names. The order of names is that of
their bytes, which for Unicode texts is the order of their characters.
-/
namespace BlockWorld.Save

/-- Names and their bytes, in increasing order of the names. -/
structure Entries where
  pairs : List (String × ByteArray)

namespace Entries

/-- No entries. -/
def empty : Entries := ⟨[]⟩

instance : Inhabited Entries := ⟨empty⟩

/-- Puts an entry in its place in an ordered list, instead of one with the same name. -/
def insertPair (name : String) (data : ByteArray) :
    List (String × ByteArray) → List (String × ByteArray)
  | [] => [(name, data)]
  | (other, theirs) :: rest =>
    if name < other then (name, data) :: (other, theirs) :: rest
    else if name = other then (name, data) :: rest
    else (other, theirs) :: insertPair name data rest

/-- Adds an entry, or replaces its bytes. -/
def insert (e : Entries) (name : String) (data : ByteArray) : Entries :=
  ⟨insertPair name data e.pairs⟩

/-- The bytes of an entry. -/
def get? (e : Entries) (name : String) : Option ByteArray := e.pairs.lookup name

/-- Removes an entry. -/
def erase (e : Entries) (name : String) : Entries := ⟨e.pairs.filter (·.1 != name)⟩

/-- The names, in increasing order. -/
def names (e : Entries) : List String := e.pairs.map (·.1)

/-- The entries of a list; of several with one name the last counts. -/
def ofList (pairs : List (String × ByteArray)) : Entries :=
  pairs.foldl (fun e (name, data) => e.insert name data) empty

end Entries

end BlockWorld.Save

/-!
Paths as texts: names divided by slashes. A point stands for the place itself and two points for the
place above.
-/
namespace BlockWorld.Text

/-- Takes a name onto the names before it, the last one first. Two points take the last name back; at
the start they stay, unless the path starts at the root. -/
def pushName (rooted : Bool) (names : List (List Char)) (name : List Char) : List (List Char) :=
  if name.isEmpty || name == ['.'] then names
  else if name == ['.', '.'] then
    match names with
    | [] => if rooted then [] else [name]
    | last :: before => if last == ['.', '.'] then name :: names else before
  else name :: names

/-- The shortest path with the same meaning. -/
def cleanPath (cs : List Char) : List Char :=
  let rooted := cs.head? == some '/'
  let names := ((cs.splitOn '/').foldl (pushName rooted) []).reverse
  let text := ['/'].intercalate names
  if rooted then '/' :: text else if text.isEmpty then ['.'] else text

/-- The part of a path up to its last slash, the slash included. -/
def upToSlash (cs : List Char) : List Char := (cs.reverse.dropWhile (· != '/')).reverse

/-- A path inside a folder. -/
def joinPath (folder path : String) : String :=
  if folder = "" ∧ path = "" then ""
  else if folder = "" then String.ofList (cleanPath path.toList)
  else String.ofList (cleanPath (folder.toList ++ '/' :: path.toList))

/-- The path of the folder that holds a path. -/
def folderOf (path : String) : String := String.ofList (cleanPath (upToSlash path.toList))

/-- The last name of a path. -/
def lastName (path : String) : String :=
  match path.toList.reverse.dropWhile (· == '/') with
  | [] => if path = "" then "." else "/"
  | ends => String.ofList (ends.takeWhile (· != '/')).reverse

end BlockWorld.Text

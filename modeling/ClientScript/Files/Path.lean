/-!
Paths as text: slashes divide the names on the way to a file.
-/

namespace ClientScript.Path

def parts (path : String) : List String := path.splitOn "/"

def isRooted (path : String) : Bool := path.startsWith "/"

def withoutEnd (path : String) : String :=
  String.ofList (path.toList.reverse.dropWhile (· = '/')).reverse

/-- Takes one more step; the steps so far are the latest first. A step up undoes the step before it, if
there is one to undo. -/
def step (rooted : Bool) (done : List String) (part : String) : List String :=
  if part = "" || part = "." then done
  else if part = ".." then
    match done with
    | [] => if rooted then [] else [part]
    | last :: rest => if last = ".." then part :: done else rest
  else part :: done

def names (path : String) : List String :=
  ((parts path).foldl (step (isRooted path)) []).reverse

def clean (path : String) : String :=
  let text := (if isRooted path then "/" else "") ++ String.intercalate "/" (names path)
  if text = "" then "." else text

def parent (path : String) : String :=
  clean (String.join ((parts path).dropLast.map (· ++ "/")))

def join (dir name : String) : String :=
  if dir = "" then clean name else clean (dir ++ "/" ++ name)

/-- The end of a name from its last dot on; nothing if it has no dot. -/
def extension (name : String) : String :=
  let letters := name.toList.reverse
  if letters.contains '.' then String.ofList ('.' :: (letters.takeWhile (· ≠ '.')).reverse) else ""

end ClientScript.Path

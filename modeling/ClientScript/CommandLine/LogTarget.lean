import ClientScript.Files
import ClientScript.Text.Url

/-!
Where a log goes. A path that is not rooted is read as an address, of which only the path of a file is allowed.
-/

namespace ClientScript

inductive LogTarget where
  | out
  | err
  | file (path : String)
deriving DecidableEq, Repr

inductive LogTargetError where
  | address (path text : String) (error : UrlError)
  | scheme (name : String)
  | user (url : Url)
  | fragment (url : Url)
  | query (url : Url)
  | port (url : Url)
  | host (url : Url)
  | file (error : FileError)
deriving DecidableEq, Repr

namespace LogTargetError

def message : LogTargetError → String
  | .address path text error =>
    "can't parse " ++ quoteText path ++ " as a URL: parse " ++ quoteText text ++ ": " ++ error.message
  | .scheme name => "no sink found for scheme " ++ quoteText name
  | .user url => "user and password not allowed with file URLs: got " ++ url.text
  | .fragment url => "fragments not allowed with file URLs: got " ++ url.text
  | .query url => "query parameters not allowed with file URLs: got " ++ url.text
  | .port url => "ports not allowed with file URLs: got " ++ url.text
  | .host url => "file URLs must leave host empty or use localhost: got " ++ url.text
  | .file error => error.message

end LogTargetError

namespace LogTarget

/-- Two names stand for the streams of the command. -/
def ofFile (path : String) : LogTarget :=
  if path = "stderr" then .err
  else if path = "stdout" then .out
  else .file path

/-- The file that an address names. Nothing but its path may be given. -/
def ofUrl (url : Url) : Except LogTargetError LogTarget := do
  let url := if url.scheme = "" then { url with scheme := "file" } else url
  if url.scheme ≠ "file" then throw (.scheme url.scheme)
  else if url.user.isSome then throw (.user url)
  else if !url.fragment.isEmpty then throw (.fragment url)
  else if !url.query.isEmpty then throw (.query url)
  else if !url.hostParts.2.isEmpty then throw (.port url)
  else if !url.hostName.isEmpty && url.hostName ≠ Url.encode "localhost".toList then throw (.host url)
  else return ofFile url.plainPath

def ofPath (path : String) : Except LogTargetError LogTarget :=
  if Path.isRooted path then .ok (ofFile path)
  else
    match Url.parse path with
    | .error (text, error) => .error (.address path text error)
    | .ok url => ofUrl url

end LogTarget

end ClientScript

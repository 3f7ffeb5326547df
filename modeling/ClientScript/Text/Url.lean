import ClientScript.Text.Quoted
import ClientScript.Text.Utf8

/-!
Addresses in the general form of URLs. A percent sign and two digits stand for a byte.
-/

namespace ClientScript

inductive UrlError where
  | controlCharacter
  | noScheme
  | colonInFirstName
  /-- The text starts with a percent sign that escapes nothing. -/
  | escape (text : List Char)
  | openBracket
  | port (text : String)
  | hostCharacter (char : Char)
  | user
deriving DecidableEq, Repr

namespace UrlError

/-- The characters within a number of bytes, and the bytes within it of a character that goes beyond. -/
def clip : Nat → List Char → List Char × List UInt8
  | _, [] => ([], [])
  | size, char :: rest =>
    if char.utf8Size ≤ size then
      let (chars, bytes) := clip (size - char.utf8Size) rest
      (char :: chars, bytes)
    else ([], (String.singleton char).toUTF8.toList.take size)

def quoteEscape (text : List Char) : String :=
  let (chars, bytes) := clip 3 text
  String.ofList ('"' :: (chars.flatMap (Quoted.escape '"') ++
    bytes.flatMap (fun byte => '\\' :: 'x' :: hexDigits 2 byte.toNat) ++ ['"']))

def message : UrlError → String
  | .controlCharacter => "net/url: invalid control character in URL"
  | .noScheme => "missing protocol scheme"
  | .colonInFirstName => "first path segment in URL cannot contain colon"
  | .escape text => "invalid URL escape " ++ quoteEscape text
  | .openBracket => "missing ']' in host"
  | .port text => "invalid port " ++ quoteText text ++ " after host"
  | .hostCharacter char => "invalid character " ++ quoteText (String.singleton char) ++ " in host name"
  | .user => "net/url: invalid userinfo"

end UrlError

/-- An address. The path and the fragment are kept as they are written, and so is the rest that follows a scheme
without being a path. -/
structure Url where
  scheme : String := ""
  rootless : List Char := []
  user : Option (List UInt8 × Option (List UInt8)) := none
  host : List UInt8 := []
  /-- A path follows the scheme directly. -/
  hostless : Bool := false
  path : List Char := []
  query : List Char := []
  /-- A question mark ends the address. -/
  emptyQuery : Bool := false
  fragment : List Char := []
deriving DecidableEq, Repr

namespace Url

def cut (char : Char) (chars : List Char) : List Char × List Char :=
  (chars.takeWhile (· ≠ char), (chars.dropWhile (· ≠ char)).drop 1)

def encode (chars : List Char) : List UInt8 := (String.ofList chars).toUTF8.toList

def hexDigit? (char : Char) : Option Nat :=
  if char.isDigit then some (char.toNat - '0'.toNat)
  else if 'a' ≤ char && char ≤ 'f' then some (char.toNat - 'a'.toNat + 10)
  else if 'A' ≤ char && char ≤ 'F' then some (char.toNat - 'A'.toNat + 10)
  else none

def escaped? (high low : Char) : Option UInt8 := do
  return .ofNat ((← hexDigit? high) * 16 + (← hexDigit? low))

def decode : List Char → Except UrlError (List UInt8)
  | [] => .ok []
  | '%' :: high :: low :: rest =>
    match escaped? high low with
    | none => .error (.escape ('%' :: high :: low :: rest))
    | some byte => (decode rest).map (byte :: ·)
  | '%' :: rest => .error (.escape ('%' :: rest))
  | char :: rest => (decode rest).map (encode [char] ++ ·)

def isPlain (char : Char) : Bool := char.isAlphanum || "-_.~".toList.contains char

def hostKeeps (char : Char) : Bool := isPlain char || "!$&'()*+,;=:[]<>\"".toList.contains char

/-- In a host only bytes beyond the plain ones are escaped, and the percent sign. -/
def decodeHost : List Char → Except UrlError (List UInt8)
  | [] => .ok []
  | '%' :: high :: low :: rest =>
    match escaped? high low with
    | none => .error (.escape ('%' :: high :: low :: rest))
    | some byte =>
      if byte < 0x80 && [high, low] ≠ ['2', '5'] then .error (.escape ['%', high, low])
      else (decodeHost rest).map (byte :: ·)
  | '%' :: rest => .error (.escape ('%' :: rest))
  | char :: rest =>
    if char.toNat < 0x80 && !hostKeeps char then .error (.hostCharacter char)
    else (decodeHost rest).map (encode [char] ++ ·)

def isSchemeChar (char : Char) : Bool := char.isAlphanum || "+-.".toList.contains char

def splitScheme (chars : List Char) : Except UrlError (List Char × List Char) :=
  let scheme := chars.takeWhile isSchemeChar
  match chars.drop scheme.length with
  | ':' :: rest =>
    match scheme with
    | [] => .error .noScheme
    | first :: _ => if first.isAlpha then .ok (scheme, rest) else .ok ([], chars)
  | _ => .ok ([], chars)

def isPort : List Char → Bool
  | [] => true
  | ':' :: digits => digits.all Char.isDigit
  | _ => false

def fromLast (char : Char) (chars : List Char) : List Char :=
  if chars.contains char then char :: (chars.reverse.takeWhile (· ≠ char)).reverse else []

def readHost (chars : List Char) : Except UrlError (List UInt8) := do
  let port :=
    if chars.head? = some '[' then (fromLast ']' chars).drop 1 else fromLast ':' chars
  if chars.head? = some '[' && !chars.contains ']' then throw .openBracket
  else if isPort port then decodeHost chars
  else throw (.port (String.ofList port))

def isUserChar (char : Char) : Bool := isPlain char || ":!$&'()*+,;=%@".toList.contains char

def readUser (chars : List Char) : Except UrlError (List UInt8 × Option (List UInt8)) := do
  if !chars.all isUserChar then throw .user
  else if chars.contains ':' then
    let (name, password) := cut ':' chars
    return (← decode name, some (← decode password))
  else return (← decode chars, none)

def readAuthority (url : Url) (chars : List Char) : Except UrlError Url := do
  let host := fromLast '@' chars
  if host.isEmpty then return { url with host := ← readHost chars }
  else
    let bytes ← readHost (host.drop 1)
    return { url with user := some (← readUser (chars.take (chars.length - host.length))), host := bytes }

/-- Reads what follows the scheme and goes up to the query. -/
def readPath (url : Url) (chars : List Char) : Except UrlError Url := do
  if chars.head? ≠ some '/' && url.scheme ≠ "" then return { url with rootless := chars }
  else if chars.head? ≠ some '/' && (chars.takeWhile (· ≠ '/')).contains ':' then throw .colonInFirstName
  else
    let (url, path) ←
      if chars.take 2 = ['/', '/'] && (url.scheme ≠ "" || chars.take 3 ≠ ['/', '/', '/']) then
        let rest := chars.drop 2
        pure (← readAuthority url (rest.takeWhile (· ≠ '/')), rest.dropWhile (· ≠ '/'))
      else pure ({ url with hostless := url.scheme ≠ "" }, chars)
    let _ ← decode path
    return { url with path }

def isControl (char : Char) : Bool := char.toNat < 0x20 || char.toNat = 0x7f

def readMain (chars : List Char) : Except UrlError Url := do
  if chars.any isControl then throw .controlCharacter
  else
    let (scheme, rest) ← splitScheme chars
    let url : Url := { scheme := String.ofList (scheme.map Char.toLower) }
    let (path, query) := cut '?' rest
    if query.isEmpty then readPath { url with emptyQuery := rest.contains '?' } path
    else readPath { url with query } path

/-- Reads an address. An error comes with the text that it is in. -/
def parse (text : String) : Except (String × UrlError) Url := do
  let (main, fragment) := cut '#' text.toList
  let url ← (readMain main).mapError (String.ofList main, ·)
  let _ ← (decode fragment).mapError (text, ·)
  return { url with fragment }

/-! The parts of an address, and its text. -/

def plainPath (url : Url) : String :=
  match decode url.path with
  | .ok bytes => Utf8.decode bytes
  | .error _ => String.ofList url.path

def hostParts (url : Url) : List UInt8 × List UInt8 :=
  let colon : UInt8 := 58
  let port := (url.host.reverse.takeWhile (· ≠ colon)).reverse
  if url.host.contains colon && port.all fun byte => 48 ≤ byte && byte ≤ 57 then
    (url.host.take (url.host.length - port.length - 1), port)
  else (url.host, [])

def hostName (url : Url) : List UInt8 :=
  let name := url.hostParts.1
  if name.head? = some 91 && name.getLast? = some 93 then (name.drop 1).dropLast else name

def escapeByte (keeps : Char → Bool) (byte : UInt8) : List Char :=
  let char := Char.ofNat byte.toNat
  if byte < 0x80 && keeps char then [char] else '%' :: (hexDigits 2 byte.toNat).map Char.toUpper

def escape (keeps : Char → Bool) (bytes : List UInt8) : List Char := bytes.flatMap (escapeByte keeps)

def userKeeps (char : Char) : Bool := isPlain char || "$&+,;=".toList.contains char

def pathKeeps (char : Char) : Bool := isPlain char || "$&+,/:;=@".toList.contains char

def fragmentKeeps (char : Char) : Bool := isPlain char || "$&+,/:;=?@!()*".toList.contains char

/-- A part as it is written, or with other escapes if it holds characters that have to be escaped. -/
def written (keeps : Char → Bool) (chars : List Char) : List Char :=
  if chars.all fun char => keeps char || "!$&'()*+,;=:@[]%".toList.contains char then chars
  else
    match decode chars with
    | .ok bytes => escape keeps bytes
    | .error _ => chars

def userText : List UInt8 × Option (List UInt8) → List Char
  | (name, none) => escape userKeeps name
  | (name, some password) => escape userKeeps name ++ ':' :: escape userKeeps password

def text (url : Url) : String :=
  let scheme := if url.scheme = "" then [] else url.scheme.toList ++ [':']
  let slashes := if url.host.isEmpty && url.user.isNone && (url.hostless || url.path.isEmpty) then [] else ['/', '/']
  let user := (url.user.map fun user => userText user ++ ['@']).getD []
  let place :=
    if url.rootless.isEmpty then slashes ++ user ++ escape hostKeeps url.host ++ written pathKeeps url.path
    else url.rootless
  let query := if url.emptyQuery || !url.query.isEmpty then '?' :: url.query else []
  let fragment := if url.fragment.isEmpty then [] else '#' :: written fragmentKeeps url.fragment
  String.ofList (scheme ++ place ++ query ++ fragment)

end Url

end ClientScript

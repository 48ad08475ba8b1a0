import ServerSettings.IpAddress
import ServerSettings.Text.Quoted

/-!
Web addresses, split into scheme, authority, path, query and fragment. The authority is checked for
brackets that hold no address and for characters that compatibility normalization turns into delimiters.
-/

namespace ServerSettings

structure Url where
  scheme : String
  authority : String
  path : String
  query : String
  fragment : String
  deriving DecidableEq, Repr

namespace Url

inductive Fault where
  | brackets
  | futureAddress
  | version4InBrackets
  | noAddress (host : String)
  | hiddenDelimiter (authority : String)
  deriving DecidableEq, Repr

def Fault.message : Fault → String
  | .brackets => "Invalid IPv6 URL"
  | .futureAddress => "IPvFuture address is invalid"
  | .version4InBrackets => "An IPv4 address cannot be in brackets"
  | .noAddress host => Text.quoted host ++ " does not appear to be an IPv4 or IPv6 address"
  | .hiddenDelimiter authority =>
    "netloc '" ++ authority ++ "' contains invalid characters under NFKC normalization"

def isAsciiLetter (c : Char) : Bool := c.isAlpha

def isSchemeChar (c : Char) : Bool :=
  c.isAlphanum ∨ c = '+' ∨ c = '-' ∨ c = '.'

/-- Controls and spaces in front, and line breaks and tabs anywhere, are no part of an address. -/
def clean (cs : List Char) : List Char :=
  (cs.dropWhile fun c => c.toNat ≤ 0x20).filter fun c => c ≠ '\t' ∧ c ≠ '\r' ∧ c ≠ '\n'

/-- The scheme in lower case and what follows its colon. -/
def splitScheme (cs : List Char) : List Char × List Char :=
  match Text.cut? ':' cs with
  | some (scheme, rest) =>
    if scheme.head?.any isAsciiLetter ∧ scheme.all isSchemeChar then (scheme.map Char.toLower, rest)
    else ([], cs)
  | none => ([], cs)

def endsAuthority (c : Char) : Bool :=
  c = '/' ∨ c = '?' ∨ c = '#'

/-- What follows the last `@`. -/
def afterLastAt (cs : List Char) : List Char :=
  (cs.reverse.takeWhile (· ≠ '@')).reverse

/-- A host in brackets of a version yet to come: `v`, hexadecimal digits, a point, and more. -/
def isFutureAddress : List Char → Bool
  | 'v' :: rest =>
    match Text.cut? '.' rest with
    | some (digits, more) =>
      !digits.isEmpty && digits.all (fun c => (Text.hexValue? c).isSome) && !more.isEmpty
    | none => false
  | _ => false

def checkBracketedHost (host : List Char) : Except Fault Unit :=
  if host.head? = some 'v' then
    if isFutureAddress host then .ok () else .error .futureAddress
  else
    match IpAddress.version? host with
    | some .six => .ok ()
    | some .four => .error .version4InBrackets
    | none => .error (.noAddress (String.ofList host))

/-- Nothing but user information may stand before an opening bracket, and nothing but a port after the
closing one. -/
def checkBrackets (authority : List Char) : Except Fault Unit :=
  if '[' ∈ authority ∧ ']' ∈ authority then
    let hostAndPort := afterLastAt authority
    match Text.cut? '[' hostAndPort with
    | none => checkBracketedHost (hostAndPort.takeWhile (· ≠ ':'))
    | some (before, bracketed) =>
      let (host, port) := (Text.cut? ']' bracketed).getD (bracketed, [])
      if !before.isEmpty ∨ (!port.isEmpty ∧ port.head? ≠ some ':') then .error .brackets
      else checkBracketedHost host
  else if '[' ∈ authority ∨ ']' ∈ authority then .error .brackets
  else .ok ()

/-- Characters whose compatibility form has a delimiter in it. -/
def hidesDelimiter (c : Char) : Bool :=
  c.toNat ∈ [0x2047, 0x2048, 0x2049, 0x2100, 0x2101, 0x2105, 0x2106, 0x2a74, 0xfe13, 0xfe16, 0xfe55,
    0xfe56, 0xfe5f, 0xfe6b, 0xff03, 0xff0f, 0xff1a, 0xff1f, 0xff20]

def checkAuthority (authority : List Char) : Except Fault Unit :=
  if authority.any hidesDelimiter then .error (.hiddenDelimiter (String.ofList authority)) else .ok ()

/-- The authority behind two slashes, and what follows it. -/
def splitAuthority : List Char → List Char × List Char
  | '/' :: '/' :: rest =>
    (rest.takeWhile fun c => !endsAuthority c, rest.dropWhile fun c => !endsAuthority c)
  | cs => ([], cs)

def parse (s : String) : Except Fault Url := do
  let (scheme, rest) := splitScheme (clean s.toList)
  let (authority, rest) := splitAuthority rest
  checkBrackets authority
  let (rest, fragment) := (Text.cut? '#' rest).getD (rest, [])
  let (path, query) := (Text.cut? '?' rest).getD (rest, [])
  checkAuthority authority
  return { scheme := String.ofList scheme
           authority := String.ofList authority
           path := String.ofList path
           query := String.ofList query
           fragment := String.ofList fragment }

end Url

end ServerSettings

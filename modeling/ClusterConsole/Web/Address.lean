import ClusterConsole.Text.Cut

/-!
# Addresses of servers

The address that requests are sent to, and the characters that the path of a
request may have. An address is a scheme, an authority and a path; it may also be
an authority or a path alone. The check is one of form: whether a host exists is
found out by connecting to it.
-/

namespace ClusterConsole.Web

/-- Whether a character may stand in the path of a request as it is. -/
def pathChar (c : Char) : Bool :=
  let n := c.toNat
  n == 0x21 || n == 0x22 || (0x24 ≤ n && n ≤ 0x3B) || n == 0x3D || (0x40 ≤ n && n ≤ 0x5F) ||
    (0x61 ≤ n && n ≤ 0x7E) || n ≥ 0x80

/-- Whether a character may stand in the query of a request as it is. -/
def queryChar (c : Char) : Bool := pathChar c && c != '"' || c == '?' || c == '\x60'

/-- Whether a path and its query can be sent; what follows a number sign is not
sent at all. -/
def sendableTarget (cs : List Char) : Bool :=
  let cs := Text.beforeList '#' cs
  match Text.cutList '?' cs with
  | some (path, query) => path.all pathChar && query.all queryChar
  | none => cs.all pathChar

/-- The characters of an authority. -/
def authorityChar (c : Char) : Bool :=
  c.isAlphanum || "-._~:[]@!$&'()*+,;=%".toList.contains c

/-- Whether a character ends an authority. -/
def endsAuthority (c : Char) : Bool := c == '/' || c == '?' || c == '#'

/-- The host and the port: what follows the last at sign. -/
def hostAndPort (cs : List Char) : List Char :=
  (Text.beforeList '@' cs.reverse).reverse

/-- The number of colons, those in brackets aside. -/
def portColons (cs : List Char) : Nat :=
  (Text.beforeList ']' (hostAndPort cs).reverse).count ':'

/-- Whether the characters form an authority. Brackets come as one pair, at most
one colon stands before a port, a percent sign stands in front of an at sign or
in brackets, and something follows the at sign. -/
def isAuthority (cs : List Char) : Bool :=
  let tail := Text.beforeList ']' (hostAndPort cs).reverse
  cs.all authorityChar && cs.count '[' ≤ 1 && cs.count '[' == cs.count ']' &&
    (match Text.cutList '[' cs with
      | some (before, after) => !before.contains ']' && after.contains ']'
      | none => true) &&
    portColons cs ≤ 1 && !tail.contains '%' && cs.getLast? != some '@'

/-- The characters of the name of a scheme. -/
def schemeChar (c : Char) : Bool := c.isAlphanum || c == '+' || c == '-' || c == '.'

/-- The most characters that the name of a scheme may have. -/
def schemeLimit : Nat := 64

/-- What follows a scheme, if the address starts with one. -/
def afterScheme? (cs : List Char) : Option (List Char × List Char) :=
  let scheme := cs.takeWhile schemeChar
  match cs.drop scheme.length with
  | ':' :: '/' :: '/' :: rest => some (scheme, rest)
  | _ => none

/-- Whether the text is an address. -/
def isAddress (text : String) : Bool :=
  let cs := text.toList
  match cs with
  | [] => false
  | '/' :: _ => sendableTarget cs
  | _ =>
      cs == ['*'] ||
        match afterScheme? cs with
        | some (scheme, rest) =>
            let authority := rest.takeWhile fun c => !endsAuthority c
            scheme.length ≤ schemeLimit && authority != [] && isAuthority authority &&
              sendableTarget (rest.drop authority.length)
        | none => isAuthority cs

end ClusterConsole.Web

import ClusterConsole.Number.Decimal
import ClusterConsole.Text.Cut

/-!
# Locators

Whether a text is an absolute URL in the sense of the URL Standard. Only the
parts that can make it none are looked at: the scheme, the host and the port of
an authority. Paths, queries and fragments take any character.

A host of the schemes of the web is a name, an address of four numbers or one in
brackets. A name that ends in a number has to be an address. A name with
characters beyond ASCII is taken as it is.
-/

namespace ClusterConsole.Web

open ClusterConsole.Number

/-- The schemes whose locators have an authority and a host. -/
def webSchemes : List String := ["http", "https", "ws", "wss", "ftp"]

/-- The control characters and the blank. -/
def isControlOrBlank (c : Char) : Bool := c.toNat ≤ 0x20

/-- The text that is looked at: without blanks and control characters at its ends
and without line ends and tabs inside. -/
def locatorText (text : String) : List Char :=
  let cs := text.toList.dropWhile isControlOrBlank
  let cs := (cs.reverse.dropWhile isControlOrBlank).reverse
  cs.filter fun c => c != '\t' && c != '\n' && c != '\r'

/-- The name of a scheme in lower case and what follows its colon. -/
def scheme? (cs : List Char) : Option (String × List Char) :=
  (Text.cutList ':' cs).bind fun (name, rest) =>
    match name with
    | c :: _ =>
        if c.isAlpha ∧ name.all fun c => c.isAlphanum || c == '+' || c == '-' || c == '.' then
          some (String.ofList (name.map Char.toLower), rest)
        else none
    | [] => none

/-! ## Hosts -/

/-- The characters that no host may have. -/
def barredHostChar (c : Char) : Bool :=
  "\x00\t\n\r #/:<>?@[\\]^|".toList.contains c

/-- The characters that no name may have, once escapes are resolved. -/
def barredNameChar (c : Char) : Bool :=
  c.toNat ≤ 0x1F || c.toNat == 0x7F || c == '%' || barredHostChar c

/-- The characters with their escapes of two hexadecimal digits resolved. -/
def unescape : List Char → List Char
  | '%' :: a :: b :: cs =>
      match hexValue? a, hexValue? b with
      | some x, some y => Char.ofNat (x * 16 + y) :: unescape cs
      | _, _ => '%' :: unescape (a :: b :: cs)
  | c :: cs => c :: unescape cs
  | [] => []

/-- A number of an address: hexadecimal behind `0x`, octal behind `0`. -/
def addressNumber? (cs : List Char) : Option Nat :=
  let digits (base : Nat) (ds : List Char) : Option Nat :=
    ds.foldl (fun acc c => acc.bind fun n =>
      ((hexValue? c).filter (· < base)).map fun v => n * base + v) (some 0)
  match cs with
  | [] => none
  | '0' :: x :: ds =>
      if x = 'x' ∨ x = 'X' then digits 16 ds else digits 8 (x :: ds)
  | ds => digits 10 ds

/-- The parts of a name between its dots, a last empty one left out. -/
def nameParts (cs : List Char) : List (List Char) :=
  let parts := Text.splitList '.' cs
  if parts.getLast? = some [] ∧ parts.length > 1 then parts.dropLast else parts

/-- Whether the last part of a name is a number. -/
def endsInNumber (cs : List Char) : Bool :=
  match (nameParts cs).getLast? with
  | some last => last != [] && (last.all Char.isDigit ||
      (["0x", "0X"].any fun head => head.toList.isPrefixOf last) && (addressNumber? last).isSome)
  | none => false

/-- Whether the characters are an address of at most four numbers, the last of
which may stand for several. -/
def isAddress4 (cs : List Char) : Bool :=
  match ((nameParts cs).mapM addressNumber?).map List.reverse with
  | some (last :: others) =>
      others.length ≤ 3 && others.all (· ≤ 255) && last < Nat.pow 256 (4 - others.length)
  | _ => false

/-- Whether the characters are groups of hexadecimal digits, `count` of them; the
last two may be written as an address of four numbers. -/
def isGroups (count : Nat) (cs : List Char) : Bool :=
  let groups := if cs = [] then [] else Text.splitList ':' cs
  let group (g : List Char) : Bool :=
    1 ≤ g.length && g.length ≤ 4 && g.all fun c => (hexValue? c).isSome
  let quad (g : List Char) : Bool :=
    let ns := Text.splitList '.' g
    ns.length == 4 && ns.all fun n =>
      match digits? n with
      | some v => v ≤ 255 && (n.length == 1 || n.head? != some '0')
      | none => false
  (groups.length == count && groups.all group) ||
    (groups.length + 1 == count && groups.dropLast.all group &&
      groups.getLast?.any quad)

/-- What stands before and after the first `::`. -/
def cutGap : List Char → Option (List Char × List Char)
  | ':' :: ':' :: cs => some ([], cs)
  | c :: cs => (cutGap cs).map fun p => (c :: p.1, p.2)
  | [] => none

/-- Whether the characters are an address of eight groups, a run of zeros of
which may be left out. -/
def isAddress6 (cs : List Char) : Bool :=
  match cutGap cs with
  | none => isGroups 8 cs
  | some (a, b) =>
      (List.range 8).any fun i => isGroups i a && (List.range (8 - i)).any fun j => isGroups j b

/-- Whether the characters are a host of a scheme of the web. -/
def isWebHost (cs : List Char) : Bool :=
  match cs with
  | [] => false
  | '[' :: rest => rest.getLast? == some ']' && isAddress6 rest.dropLast
  | _ =>
      let name := unescape cs
      !name.any barredNameChar && (!endsInNumber name || isAddress4 name)

/-- Whether the characters are a host of another scheme. -/
def isOtherHost (cs : List Char) : Bool :=
  match cs with
  | '[' :: rest => rest.getLast? == some ']' && isAddress6 rest.dropLast
  | _ => !cs.any barredHostChar

/-! ## Authorities -/

/-- The largest port. -/
def topPort : Nat := 65535

/-- Host and port of what follows the last at sign. -/
def cutPort (cs : List Char) : List Char × Option (List Char) :=
  let back := cs.reverse
  let port := (back.takeWhile Char.isDigit).reverse
  match back.drop port.length with
  | ':' :: host => (host.reverse, some port)
  | _ => (cs, none)

/-- Whether an authority has a good host and a good port. Only a scheme of the
web asks for a host. -/
def isLocatorAuthority (web : Bool) (cs : List Char) : Bool :=
  let place := (Text.beforeList '@' cs.reverse).reverse
  let named := place.length < cs.length
  let (host, port) := cutPort place
  let portOk := match port with
    | none => true
    | some ds => ds == [] || (digits? ds).any (· ≤ topPort)
  if web then isWebHost host && portOk
  else if host = [] then !named && port.isNone
  else isOtherHost host && portOk

/-- Whether the text is an absolute URL. -/
def isUrl (text : String) : Bool :=
  match scheme? (locatorText text) with
  | none => false
  | some (scheme, rest) =>
      let stops (c : Char) : Bool := c == '/' || c == '?' || c == '#'
      if webSchemes.contains scheme then
        let rest := rest.dropWhile fun c => c == '/' || c == '\\'
        isLocatorAuthority true (rest.takeWhile fun c => !stops c && c != '\\')
      else if scheme = "file" then true
      else
        match rest with
        | '/' :: '/' :: rest => isLocatorAuthority false (rest.takeWhile fun c => !stops c)
        | _ => true

end ClusterConsole.Web

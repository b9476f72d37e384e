import BkPlatform.Lib.RubyString
import Mathlib.Data.List.Infix

/-!
# Services

A service is a URL; it is compared with another after the parameters of the
protocol have been taken out of it.  `URI.parse` of the standard library is a
parameter of what follows: what it makes of a string, if it accepts it.

## Main definitions

* `cleanServiceUrl` — a URL without the parameters of the protocol.
* `Uri`, `serviceUriWithTicket` — the URL a browser is sent to.
-/

namespace BkPlatform.Cas

open RubyString

/-! ### Cleaning -/

/-- `/p=[^&]*/` at this place: what comes after it. -/
def skipParam (p : String) (cs : List Char) : Option (List Char) :=
  ((p ++ "=").toList.isPrefixOf? cs).map fun rest => rest.dropWhile fun c => c != '&'

/-- `sub!(/&?p=[^&]*/, '')`: the first occurrence is taken out, with an `&` before it. -/
def subParam (p : String) : List Char → List Char
  | [] => []
  | c :: cs =>
    -- the `&` is optional, and taken if it is there
    match if c = '&' then (skipParam p cs).or (skipParam p (c :: cs))
      else skipParam p (c :: cs) with
    | some rest => rest
    | none => c :: subParam p cs

/-- `gsub!(/[\/\?&]$/, '')`: `$` is also the end of a line. -/
def dropTrailing : List Char → List Char
  | [] => []
  | c :: cs =>
    if (c == '/' || c == '?' || c == '&') && (cs.isEmpty || cs.head? == some '\n') then
      dropTrailing cs
    else c :: dropTrailing cs

/-- `gsub!('?&', '?')`. -/
def subQuestion : List Char → List Char
  | '?' :: '&' :: cs => '?' :: subQuestion cs
  | c :: cs => c :: subQuestion cs
  | [] => []

/-- `clean_service_url`. -/
def cleanServiceUrl (dirty : String) : String :=
  if isBlank dirty then dirty
  else
    let clean := ["service", "ticket", "gateway", "renew"].foldl (fun cs p => subParam p cs)
      dirty.toList
    String.ofList ((subQuestion (dropTrailing clean)).map fun c => if c = ' ' then '+' else c)

/-- Only the first occurrence of a parameter is taken out, so cleaning twice may take
out more. -/
example : cleanServiceUrl "http://google.com?ticket=12345&ticket=abcd" =
      "http://google.com?ticket=abcd" ∧
    cleanServiceUrl "http://google.com?ticket=abcd" = "http://google.com" := by decide +kernel

/-! ### The URL with the ticket -/

/-- What the server reads off a parsed URI. -/
structure Uri where
  /-- nil for a URI that is not hierarchical. -/
  path : Option String
  query : Option String
  deriving DecidableEq, Repr

/-- The exceptions a request may end with. -/
inductive Raised
  | invalidUri
  | noMethodError
  | statementInvalid
  | authenticatorError (message : String)
  | other
  deriving DecidableEq, Repr

/-- `service_uri_with_ticket`. -/
def serviceUriWithTicket (uriParse : String → Option Uri) (service ticket : String) :
    Except Raised String :=
  match uriParse service with
  | none => .error .invalidUri
  | some uri =>
    if service.toList.contains '?' then
      match uri.query with
      | none => .error .noMethodError
      | some query => .ok (service ++ (if query = "" then "" else "&") ++ "ticket=" ++ ticket)
    else .ok (service ++ "?" ++ "ticket=" ++ ticket)

end BkPlatform.Cas

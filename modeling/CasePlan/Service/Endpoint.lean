import CasePlan.Json.Reader
import CasePlan.Text.Utf8

/-!
# The paths of the service

`Endpoint.ofPath?` finds what a path leads to.  Percent-encoded bytes count as what they stand for,
what follows a question mark or number sign does not count, and slashes at the end are passed over
if nothing lies there.
-/

namespace CasePlan.Service

/-- The byte that a percent sign stands for before some text. -/
def escapedByte? : Text → Option UInt8
  | a :: b :: _ => do pure ((← Json.hexDigit? a) * 16 + (← Json.hexDigit? b)).toUInt8
  | _ => none

/-- Percent-encoded bytes replaced by the bytes, everything else in UTF-8. -/
def percentBytes (t : Text) : List UInt8 :=
  match t with
  | [] => []
  | c :: rest =>
    match if c = '%' then escapedByte? rest else none with
    | some byte => byte :: percentBytes (rest.drop 2)
    | none => Utf8.encodeCode c ++ percentBytes rest
termination_by t.length
decreasing_by all_goals simp only [List.length_cons, List.length_drop]; omega

/-- The path that a percent-encoded one stands for. -/
def decodePath (t : Text) : Text :=
  let isEnd (c : CodePoint) : Bool := c = '?' || c = '#'
  Utf8.decodeLossy (percentBytes (t.takeWhile (!isEnd ·)))

/-- What the service offers. -/
inductive Endpoint where
  /-- A word about the service. -/
  | root
  /-- Compiling a description. -/
  | compile
  /-- Inspecting a document. -/
  | inspect
  /-- Taking a description out of a document. -/
  | extract
  /-- The list of templates. -/
  | templates
  /-- One template. -/
  | template (id : Text)
  deriving DecidableEq, Repr

namespace Endpoint

/-- Where the endpoints other than the root lie. -/
def base : Text := "/api/v1/cmmn/"

/-- The endpoint under a name at the base. -/
def named? (name : Text) : Option Endpoint :=
  if name = ("compile" : Text) then some compile
  else if name = ("inspect" : Text) then some inspect
  else if name = ("extract" : Text) then some extract
  else if name = ("templates" : Text) then some templates
  else
    match Text.after? "templates/" name with
    | some (c :: rest) =>
      if CodePoint.ofChar '/' ∈ c :: rest then none else some (template (c :: rest))
    | _ => none

/-- The endpoint exactly at a path. -/
def at? (path : Text) : Option Endpoint :=
  if path = ("/" : Text) then some root else (Text.after? base path).bind named?

/-- The endpoint that a path leads to. -/
def ofPath? (path : Text) : Option Endpoint :=
  match at? path with
  | some e => some e
  | none => at? (path.reverse.dropWhile (· = CodePoint.ofChar '/')).reverse

/-- The method that an endpoint is called with. -/
def method : Endpoint → Text
  | root | templates | template _ => "GET"
  | compile | inspect | extract => "POST"

/-- Whether an endpoint is answered from the library. -/
def usesLibrary : Endpoint → Bool
  | templates | template _ => true
  | root | compile | inspect | extract => false

end Endpoint

end CasePlan.Service

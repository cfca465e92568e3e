import RouteDispatch.Error
import RouteDispatch.Json.Text
import RouteDispatch.Text.FormPairs
import RouteDispatch.Text.Hash

/-!
# Query sources

The places of a request where the value of a query parameter may stand: the query string, a form
body and a JSON body.  A name is looked up in the sources in a given order, and the first that has
it gives the value.  Of several pairs of one name the first counts, and a JSON `null` is as good as
absent.
-/

namespace RouteDispatch

inductive SourceKind where
  | query
  | form
  | json
  deriving DecidableEq, Repr

namespace SourceKind

def keyword : SourceKind → String
  | .query => "query"
  | .form => "form"
  | .json => "json"

/-- The kinds of sources in the order that is used when none is given. -/
def all : List SourceKind := [.query, .form, .json]

def ofKeyword? (s : String) : Option SourceKind :=
  all.find? fun k => k.keyword == s

def inspect : SourceKind → String
  | .query => "Query"
  | .form => "Form"
  | .json => "Json"

end SourceKind

inductive RawValue where
  | text (s : String)
  | json (j : Json)

/-- A name with its hash and a text. -/
structure SourcePair where
  hash : UInt64
  name : String
  value : String

/-- The sources of one request; a source that the request does not have is missing. -/
structure Sources where
  query : Option (List SourcePair) := none
  form : Option (List SourcePair) := none
  json : Option (List (String × Json)) := none

namespace Sources

/-- The pairs of a query string or form body. -/
def decode (input : List UInt8) : List SourcePair :=
  (Text.formPairs input).map fun (name, value) => ⟨Text.segmentHash name, name, value⟩

/-- Adds a query string, without its question mark. -/
def withQuery (s : Sources) (query : String) : Sources :=
  { s with query := some (decode (Text.utf8Bytes query)) }

def withForm (s : Sources) (body : List UInt8) : Sources :=
  { s with form := some (decode body) }

/-- Adds a JSON body, which must be an object. -/
def withJson (s : Sources) : Json → Except CallError Sources
  | .obj members => .ok { s with json := some members }
  | other => .error (.invalidState ("json body must be an object, got " ++ other.text))

def isPresent (s : Sources) : SourceKind → Bool
  | .query => s.query.isSome
  | .form => s.form.isSome
  | .json => s.json.isSome

/-- The first text of a name among pairs. -/
def textOf? (hash : UInt64) (name : String) (pairs : List SourcePair) : Option RawValue :=
  (pairs.find? fun p => p.hash == hash && p.name == name).map fun p => .text p.value

/-- The member of a name, unless it is `null`. -/
def memberOf? (name : String) (members : List (String × Json)) : Option RawValue :=
  match (members.find? fun m => m.1 == name).map Prod.snd with
  | some j => if j.isNull then none else some (.json j)
  | none => none

/-- Looks a name up in one source. -/
def get? (s : Sources) (kind : SourceKind) (hash : UInt64) (name : String) : Option RawValue :=
  match kind with
  | .query => s.query.bind (textOf? hash name)
  | .form => s.form.bind (textOf? hash name)
  | .json => s.json.bind (memberOf? name)

/-- Looks a name up in the sources of the order; the first that has it counts. -/
def lookup? (s : Sources) (order : List SourceKind) (hash : UInt64) (name : String) :
    Option (SourceKind × RawValue) :=
  order.findSome? fun kind => (s.get? kind hash name).map fun raw => (kind, raw)

end Sources
end RouteDispatch

import RouteDispatch.Error
import RouteDispatch.Param.Spec
import RouteDispatch.Text.Split
import RouteDispatch.Text.Trim

/-!
# Path templates

A template is a path whose segments are literals or captures; a capture is a colon and the name of a
declared path parameter.  `Template.parse` reads a template against the declared parameters, and
`Template.render` writes segments back.  Templates that accept the same paths have the same
equivalence path, in which every capture is a star.
-/

namespace RouteDispatch

/-- One segment of a template: a fixed text, or the parameter at a position of the list. -/
inductive Segment where
  | literal (text : String)
  | capture (name : String) (param : Nat)
  deriving DecidableEq, Repr

namespace Segment

def isCapture : Segment → Bool
  | .capture .. => true
  | .literal _ => false

def param? : Segment → Option Nat
  | .capture _ param => some param
  | .literal _ => none

def fits (piece : String) : Segment → Bool
  | .literal text => text == piece
  | .capture .. => true

def render : Segment → String
  | .literal text => text
  | .capture name _ => ":" ++ name

/-- The segment in an equivalence path. -/
def mark : Segment → String
  | .literal text => text
  | .capture .. => "*"

end Segment

namespace Template

def inner (path : String) : List Char :=
  Text.trimBoth Text.isSolidus path.toList

/-- The texts between the slashes of a path, the outer slashes apart; none when only slashes are
there. -/
def tokens (path : String) : List String :=
  match inner path with
  | [] => []
  | cs => (Text.split Text.isSolidus cs).map String.ofList

/-- Whether a character may not stand in a template. -/
def isReserved (c : Char) : Bool :=
  c == '?' || c == '#' || c == '*'

def pathParam? (params : List ParamSpec) (name : String) : Option Nat :=
  params.findIdx? fun spec => spec.source == .path && spec.name == name

def pathParamCount (params : List ParamSpec) : Nat :=
  params.countP fun spec => spec.source == .path

/-- Reads the capture of a name, behind the segments read before it. -/
def parseCapture (route path : String) (params : List ParamSpec) (before : List Segment)
    (name : String) : Except BuildError Segment :=
  if name.isEmpty then .error (.invalidPath route path "capture without a name")
  else
    match pathParam? params name with
    | none => .error (.undeclaredPathParam route name)
    | some param =>
      if before.any fun s => s.param? == some param then
        .error (.invalidPath route path ("':" ++ name ++ "' captured twice"))
      else .ok (.capture name param)

/-- Reads one token, behind the segments read before it. -/
def parseToken (route path : String) (params : List ParamSpec) (before : List Segment)
    (token : String) : Except BuildError Segment :=
  if token.isEmpty then .error (.invalidPath route path "empty segment")
  else if token.toList.any isReserved then
    .error (.invalidPath route path ("illegal character in segment '" ++ token ++ "'"))
  else
    match token.toList with
    | ':' :: name => parseCapture route path params before (String.ofList name)
    | _ => .ok (.literal token)

/-- Reads tokens from left to right, behind the segments read before them. -/
def parseTokens (route path : String) (params : List ParamSpec) (before : List Segment) :
    List String → Except BuildError (List Segment)
  | [] => .ok before
  | token :: rest => do
    let segment ← parseToken route path params before token
    parseTokens route path params (before ++ [segment]) rest

/-- Reads the template of a route against its parameters.  Every path parameter must be captured,
unless the template has no segment at all. -/
def parse (route path : String) (params : List ParamSpec) : Except BuildError (List Segment) :=
  match tokens path with
  | [] => .ok []
  | toks => do
    let segments ← parseTokens route path params [] toks
    let captures := segments.countP Segment.isCapture
    let declared := pathParamCount params
    if captures = declared then .ok segments
    else .error (.pathParamCount route captures declared)

def render (segments : List Segment) : String :=
  Text.joinTexts "/" (segments.map Segment.render)

/-- The path that all templates accepting the same paths share. -/
def equivalencePath : List Segment → String
  | [] => "/"
  | segments => String.join (segments.map fun s => "/" ++ s.mark)

/-- A path without the query string at its end. -/
def withoutQuery (path : String) : List Char :=
  path.toList.takeWhile (· != '?')

/-- The non-empty texts between the slashes of a request's path, up to the query string. -/
def pathPieces (path : String) : List String :=
  (Text.pieces Text.isSolidus (withoutQuery path)).map String.ofList

/-- Whether a character ends a piece of a request's path. -/
def isBoundary (c : Char) : Bool :=
  Text.isSolidus c || c == '?'

/-- The text in front of a path, up to the first boundary, and the rest of the path behind the
slashes that follow it.  Nothing is left behind a question mark. -/
def cutPiece (path : List Char) : List Char × List Char :=
  let behind := path.dropWhile fun c => !isBoundary c
  (path.takeWhile fun c => !isBoundary c,
    match behind with
    | '/' :: rest => rest.dropWhile Text.isSolidus
    | _ => [])

/-- Whether a path without slashes in front has no piece. -/
def isExhausted : List Char → Bool
  | [] => true
  | c :: _ => c == '?'

/-- Behind a piece that is not the last one the path is shorter. -/
theorem length_cutPiece_lt {path : List Char} (h : isExhausted (cutPiece path).2 = false) :
    (cutPiece path).2.length < path.length := by
  have hsuffix := (List.dropWhile_suffix (l := path) fun c => !isBoundary c).length_le
  cases hb : path.dropWhile fun c => !isBoundary c with
  | nil => simp [cutPiece, hb, isExhausted] at h
  | cons c rest =>
    have hrest := (List.dropWhile_suffix (l := rest) Text.isSolidus).length_le
    by_cases hc : c = '/'
    · subst hc
      simp only [hb, List.length_cons] at hsuffix
      simp only [cutPiece, hb]
      omega
    · simp [cutPiece, hb, hc, isExhausted] at h

def fits : List Segment → List String → Bool
  | [], [] => true
  | s :: segments, piece :: pieces => s.fits piece && fits segments pieces
  | _, _ => false

/-- Whether a template accepts the path of a request. -/
def accepts (segments : List Segment) (path : String) : Bool :=
  fits segments (pathPieces path)

/-- Puts a path in front of another, with exactly one slash at the seam. -/
def prepend (front path : String) : String :=
  String.ofList (Text.dropEnd Text.isSolidus front.toList
    ++ '/' :: path.toList.dropWhile Text.isSolidus)

end Template
end RouteDispatch

import GhReport.Domain.Types
import GhReport.GitHub.Client
import Mathlib.Algebra.GroupWithZero.Nat
import Mathlib.Data.List.Destutter
import Mathlib.Data.List.Sort
import Mathlib.Data.String.Basic

/-! # CODEOWNERS

The file is looked up at three places, one after another; a lookup that says
neither that it is there nor that it is not ends the search.
-/

namespace GhReport.Collector.Codeowners

open Domain GitHub
open Event (IndeterminateReason CodeownersTruncationReason CodeownersNonConformingLocation)

/-! ## Parsing -/

def maxLineLength : ℕ := 10 * 1024

def utf8Length (text : List Char) : ℕ := (text.map Char.utf8Size).sum

def splitWhitespace (text : List Char) : List (List Char) :=
  (text.splitOnP isWhitespace).filter fun word => !word.isEmpty

def stripCarriageReturn (line : List Char) : List Char :=
  if line.getLast? = some '\r' then line.dropLast else line

/-- The lines of a text; the last one is there without its terminator if it is not empty. -/
def lines (text : List Char) : List (List Char) :=
  let parts := text.splitOn '\n'
  parts.dropLast.map stripCarriageReturn ++ (parts.getLast?.toList.filter fun p => !p.isEmpty)

/-- What stands before the first `#` that a blank precedes, if there is one. -/
def beforeComment : List Char → Option (List Char)
  | c :: '#' :: rest =>
    if c = ' ' ∨ c = '\t' then some [] else (beforeComment ('#' :: rest)).map (c :: ·)
  | c :: rest => (beforeComment rest).map (c :: ·)
  | [] => none

def stripInlineComment (line : List Char) : List Char :=
  match beforeComment line with
  | some text => trimEnd text
  | none => line

section Parser

variable (toLowercase : String → String)

structure Parsing where
  entries : List CodeownersEntry
  seenOwners : List String
  uniqueOwners : List String
  skippedLines : UInt32

def Parsing.addOwner (s : Parsing) (owner : String) : Parsing :=
  if s.seenOwners.contains (toLowercase owner) then s
  else { s with
    seenOwners := s.seenOwners ++ [toLowercase owner]
    uniqueOwners := s.uniqueOwners ++ [owner] }

/-- The owners among the words after the pattern, sorted and each once. -/
def lineOwners (tokens : List (List Char)) : List String :=
  let owners := (tokens.filter fun token => token.head? = some '@').map String.ofList
  (owners.insertionSort (· ≤ ·)).destutter (· ≠ ·)

def Parsing.addLine (s : Parsing) (line : List Char) : Parsing :=
  if maxLineLength < utf8Length line then
    { s with skippedLines := if s.skippedLines = 0xFFFFFFFF then s.skippedLines
      else s.skippedLines + 1 }
  else
    let trimmed := trim line
    if trimmed.isEmpty ∨ trimmed.head? = some '#' then s
    else
      match splitWhitespace (stripInlineComment trimmed) with
      | [] => s
      | pattern :: tokens =>
        let owners := lineOwners tokens
        let s := owners.foldl (Parsing.addOwner toLowercase) s
        { s with entries := s.entries ++ [⟨String.ofList pattern, owners⟩] }

def parseCodeowners (content : String) : ParsedCodeowners :=
  let s := (lines content.toList).foldl (Parsing.addLine toLowercase) ⟨[], [], [], 0⟩
  ⟨s.entries, s.uniqueOwners, s.skippedLines⟩

end Parser

/-! ## Content -/

/-- The libraries that a file is read with. -/
structure Decoder where
  toLowercase : String → String
  decodeBase64 : String → Option (List UInt8)

def maxBase64Length : ℕ := 133 * 1024

def tryParseContent (D : Decoder) (data : Json) :
    Except CodeownersTruncationReason ParsedCodeowners :=
  if (data.get "encoding").bind Json.asStr ≠ some "base64" then .error .notBase64Encoded
  else
    match (data.get "content").bind Json.asStr with
    | none => .error .contentMissing
    | some rawContent =>
      if maxBase64Length < rawContent.utf8ByteSize then .error .oversizedBase64
      else
        let cleaned := String.ofList (rawContent.toList.filter fun c => c ≠ '\n' ∧ c ≠ '\r')
        match D.decodeBase64 cleaned with
        | none => .error .decodeFailed
        | some decoded =>
          match String.fromUTF8? decoded.toByteArray with
          | none => .error .invalidUtf8
          | some text => .ok (parseCodeowners D.toLowercase text)

/-! ## Results -/

def conformingPath : String := ".github/CODEOWNERS"
def nonConformingPath : String := "CODEOWNERS"
def docsPath : String := "docs/CODEOWNERS"

def buildResult (status : CodeownersStatus) (path : Option String) (timestamp : String) :
    CodeownersResult :=
  match status with
  | .conforming => .conforming .unparsed timestamp
  | .nonConforming =>
    .nonConforming (if path = some docsPath then .docs else .root) .unparsed timestamp
  | .absent => .absent timestamp
  | .unknown => .unobservable .invalid timestamp

def buildResultWithParsed (status : CodeownersStatus) (path timestamp : String)
    (parsedOrTruncation : Except CodeownersTruncationReason ParsedCodeowners) :
    CodeownersResult :=
  let content : CodeownersContent :=
    match parsedOrTruncation with
    | .ok parsed => .parsed parsed
    | .error reason => .truncated reason
  match buildResult status (some path) timestamp with
  | .conforming _ timestamp => .conforming content timestamp
  | .nonConforming location _ timestamp => .nonConforming location content timestamp
  | other => other

/-! ## Lookups -/

def isFileResponse (result : ApiOutcome) : Bool :=
  result.isOk && (result.data.bind (Json.get "type")).bind Json.asStr = some "file"

inductive PathProbe where
  | found (data : Json)
  | indeterminate (reason : IndeterminateReason)
  | notFound

/-- A directory, or an entry that is not a file. -/
def isOtherEntry (data : Json) : Bool :=
  data.asArray.isSome ||
    ((data.get "type").bind Json.asStr).any ["dir", "symlink", "submodule"].contains

def probePath (outcome : ApiOutcome) : PathProbe :=
  if isFileResponse outcome then .found (outcome.data.getD .null)
  else
    match outcome with
    | .success _ data _ =>
      if data.any isOtherEntry then .notFound else .indeterminate .invalid
    | .failure statusCode _ retryable =>
      if statusCode = some 401 ∨ statusCode = some 403 then .indeterminate .permissionDenied
      else if statusCode = some 404 then .notFound
      else if statusCode = some 429 then .indeterminate .rateLimited
      else if retryable then .indeterminate .transient
      else .indeterminate .invalid

def candidates : List (String × CodeownersStatus) :=
  [(conformingPath, .conforming), (nonConformingPath, .nonConforming), (docsPath, .nonConforming)]

/-- The search through the candidates, up to the first one that settles it. -/
def search (D : Decoder) (contents : String → ApiOutcome) (runTimestamp : String) :
    List (String × CodeownersStatus) → CodeownersResult
  | [] => buildResult .absent none runTimestamp
  | (path, status) :: rest =>
    match probePath (contents path) with
    | .found data => buildResultWithParsed status path runTimestamp (tryParseContent D data)
    | .indeterminate reason => .unobservable reason runTimestamp
    | .notFound => search D contents runTimestamp rest

/-- The evaluation of a repository whose name can be put into a path. -/
def evaluate (D : Decoder) (validName : Bool) (contents : String → ApiOutcome)
    (runTimestamp : String) : CodeownersResult :=
  if !validName then buildResult .unknown none runTimestamp
  else search D contents runTimestamp candidates

end GhReport.Collector.Codeowners

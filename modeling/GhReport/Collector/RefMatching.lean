import GhReport.GitHub.Client

/-! # Ref matching

Which branches a ruleset is about: patterns of path segments with `*`, `?` and `**`,
matched byte by byte under two recursion bounds.
-/

namespace GhReport.Collector

/-! ## Patterns -/

def star : UInt8 := 0x2A
def questionMark : UInt8 := 0x3F
def slash : UInt8 := 0x2F

def bytes (text : String) : List UInt8 := text.toUTF8.data.toList

def fnmatchBytes : List UInt8 → List UInt8 → ℕ → ℕ → Bool
  | [], candidate, depth, maxDepth => if maxDepth < depth then false else candidate.isEmpty
  | p :: pattern, candidate, depth, maxDepth =>
    if maxDepth < depth then false
    else if p = star then
      (List.range (candidate.length + 1)).any fun i =>
        fnmatchBytes pattern (candidate.drop i) (depth + 1) maxDepth
    else
      match candidate with
      | [] => false
      | c :: candidate =>
        if p = questionMark then fnmatchBytes pattern candidate (depth + 1) maxDepth
        else if c ≠ p then false
        else fnmatchBytes pattern candidate (depth + 1) maxDepth

/-- Runs of `*` count as one. -/
def collapseStars (raw : List UInt8) : List UInt8 :=
  raw.foldl (fun out b => if b = star ∧ out.getLast? = some star then out else out ++ [b]) []

def fnmatchSegment (pattern candidate : List UInt8) (maxDepth : ℕ) : Bool :=
  fnmatchBytes (collapseStars pattern) candidate 0 maxDepth

def maxSegmentRecursionDepth : ℕ := 64

def matchPathSegments : List (List UInt8) → List (List UInt8) → ℕ → ℕ → Bool
  | [], candidate, depth, _ =>
    if maxSegmentRecursionDepth < depth then false else candidate.isEmpty
  | head :: tail, candidate, depth, maxFnmatchDepth =>
    if maxSegmentRecursionDepth < depth then false
    else if head = [star, star] then
      if tail.isEmpty then true
      else (List.range (candidate.length + 1)).any fun index =>
        matchPathSegments tail (candidate.drop index) (depth + 1) maxFnmatchDepth
    else
      match candidate with
      | [] => false
      | c :: candidate =>
        if fnmatchSegment head c maxFnmatchDepth then
          matchPathSegments tail candidate (depth + 1) maxFnmatchDepth
        else false

/-- The matcher, whatever its bound on the bytes of a segment. -/
def PatternMatch.pathPatternMatches (pattern candidate : String) (maxFnmatchDepth : ℕ) : Bool :=
  matchPathSegments ((bytes pattern).splitOn slash) ((bytes candidate).splitOn slash) 0
    maxFnmatchDepth

def fnmatchMaxRecursionDepth : ℕ := 256

def pathPatternMatches (pattern candidate : String) : Bool :=
  PatternMatch.pathPatternMatches pattern candidate fnmatchMaxRecursionDepth

/-! ## Branches -/

inductive RulesetTarget where
  | branch | tag | push
deriving DecidableEq

def RulesetTarget.parse (value : String) : Option RulesetTarget :=
  if value = "branch" then some .branch
  else if value = "tag" then some .tag
  else if value = "push" then some .push
  else none

inductive RulesetEnforcement where
  | disabled | active | evaluate
deriving DecidableEq

def RulesetEnforcement.parse (value : String) : Option RulesetEnforcement :=
  if value = "disabled" then some .disabled
  else if value = "active" then some .active
  else if value = "evaluate" then some .evaluate
  else none

def stripPrefix (pre text : String) : Option String :=
  if pre.toList.isPrefixOf text.toList then
    some (String.ofList (text.toList.drop pre.toList.length))
  else none

def normalizeBranchRef (branch : String) : String :=
  if (stripPrefix "refs/heads/" branch).isSome then branch else "refs/heads/" ++ branch

def refNameMatches (pattern branch defaultBranch : String) : Bool :=
  let branchRef := normalizeBranchRef branch
  let branchName := (stripPrefix "refs/heads/" branchRef).getD branchRef
  let defaultBranchRef := normalizeBranchRef defaultBranch
  if pattern = "~ALL" then true
  else if pattern = "~DEFAULT_BRANCH" then branchRef = defaultBranchRef
  else if pattern = branchRef ∨ pattern = branchName then true
  else
    let candidate := if (stripPrefix "refs/" pattern).isSome then branchRef else branchName
    pathPatternMatches pattern candidate

def rulesetAppliesToBranch (target : Option RulesetTarget) (enforcement : Option RulesetEnforcement)
    (includes excludes : List String) (branch defaultBranch : String) : Bool :=
  if target ≠ some .branch then false
  else if enforcement ≠ none ∧ enforcement ≠ some .active then false
  else
    let includePatterns := if includes.isEmpty then ["~ALL"] else includes
    let included := includePatterns.any fun p => refNameMatches p branch defaultBranch
    let excluded := excludes.any fun p => refNameMatches p branch defaultBranch
    included && !excluded

end GhReport.Collector

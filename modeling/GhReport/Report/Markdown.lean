import GhReport.Collector.Codeowners
import GhReport.Library.Occurrence
import Mathlib.Data.List.DropRight

/-! # Markdown

The operations guide is rendered line by line into blocks, and the text of each
block into code spans, emphasis, links and escaped characters.
-/

namespace GhReport.Report.Markdown

open Occurrence GitHub
open Collector.Codeowners (lines)

/-! ## Characters -/

def isAsciiWhitespace (c : Char) : Bool :=
  c = ' ' || c = '\t' || c = '\n' || c = '\x0c' || c = '\r'

def isAsciiPunctuation (c : Char) : Bool :=
  (33 ≤ c.toNat && c.toNat ≤ 47) || (58 ≤ c.toNat && c.toNat ≤ 64)
    || (91 ≤ c.toNat && c.toNat ≤ 96) || (123 ≤ c.toNat && c.toNat ≤ 126)

def pushEscapedChar (c : Char) : List Char :=
  if c = '&' then "&amp;".toList
  else if c = '<' then "&lt;".toList
  else if c = '>' then "&gt;".toList
  else if c = '"' then "&quot;".toList
  else [c]

def pushEscapedStr (s : List Char) : List Char := s.flatMap pushEscapedChar

def slugifyChar (c : Char) : List Char :=
  if isAsciiWhitespace c then ['-']
  else if c.isAlphanum || c = '-' then [c.toLower]
  else []

def slugifyHeading (text : List Char) : List Char := text.flatMap slugifyChar

/-- A body between its tags. -/
def wrap (start stop : String) (body : List Char) : List Char :=
  start.toList ++ (body ++ stop.toList)

/-! ## Inline text -/

/-- The text and the address of the link that a bracket opens, and what follows it. -/
def linkParts (afterOpen : List Char) : Option (List Char × List Char × List Char) :=
  match splitFirst [']'] afterOpen with
  | some (linkText, '(' :: afterParenOpen) =>
    (splitFirst [')'] afterParenOpen).map fun p => (linkText, p.1, p.2)
  | _ => none

theorem linkParts_eq {afterOpen linkText url rest : List Char}
    (h : linkParts afterOpen = some (linkText, url, rest)) :
    ']' ∉ linkText ∧ afterOpen = linkText ++ ']' :: '(' :: (url ++ ')' :: rest) := by
  unfold linkParts at h
  split at h
  · next text afterParenOpen hsplit =>
    obtain ⟨p, hp, heq⟩ := Option.map_eq_some_iff.mp h
    cases heq
    refine ⟨notMem_of_splitFirst hsplit, ?_⟩
    rw [splitFirst_eq hsplit, splitFirst_eq hp]
    rfl
  · cases h

theorem linkParts_length {afterOpen linkText url rest : List Char}
    (h : linkParts afterOpen = some (linkText, url, rest)) :
    linkText.length + rest.length < afterOpen.length := by
  rw [(linkParts_eq h).2]
  simp only [List.length_append, List.length_cons]
  omega

def renderInline (text : List Char) : List Char :=
  match text with
  | [] => []
  | c :: rest =>
    if c = '\\' then
      match rest with
      | [] => ['\\']
      | next :: rest' =>
        if isAsciiPunctuation next then pushEscapedChar next ++ renderInline rest'
        else '\\' :: renderInline (next :: rest')
    else if c = '`' then
      match _hsplit : splitFirst ['`'] rest with
      | some (code, rest') =>
        wrap "<code>" "</code>" (pushEscapedStr code) ++ renderInline rest'
      | none => pushEscapedChar c ++ renderInline rest
    else if c = '*' then
      match rest with
      | '*' :: afterStars =>
        match _hsplit : splitFirst ['*', '*'] afterStars with
        | some (strong, rest') =>
          wrap "<strong>" "</strong>" (renderInline strong) ++ renderInline rest'
        | none => pushEscapedChar c ++ renderInline ('*' :: afterStars)
      | single =>
        match _hsplit : splitFirst ['*'] single with
        | some (em, rest') =>
          wrap "<em>" "</em>" (renderInline em) ++ renderInline rest'
        | none => pushEscapedChar c ++ renderInline single
    else if c = '[' then
      match _hparts : linkParts rest with
      | some (linkText, url, rest') =>
        wrap "<a href=\"" "\">" (pushEscapedStr url) ++ (renderInline linkText ++ "</a>".toList) ++
          renderInline rest'
      | none => pushEscapedChar c ++ renderInline rest
    else pushEscapedChar c ++ renderInline rest
termination_by text.length
decreasing_by
  all_goals
    simp only [List.length_cons]
    first
      | omega
      | have hlength := length_of_splitFirst _hsplit
        simp only [List.length_cons, List.length_nil] at hlength
        omega
      | have hlength := linkParts_length _hparts
        omega

/-! ## Lines -/

def fenceLang (line : List Char) : Option (List Char) :=
  if "```".toList.isPrefixOf line then some (trim (line.drop 3)) else none

def isFenceLine (line : List Char) : Bool :=
  "```".toList.isPrefixOf (line.dropWhile isWhitespace)

/-- The level and the text of a heading; closing marks are left out. -/
def parseHeading (line : List Char) : Option (ℕ × List Char) :=
  let hashes := (line.takeWhile (· = '#')).length
  if hashes = 0 ∨ hashes > 6 then none
  else match line.drop hashes with
    | ' ' :: text => some (hashes, trimEnd ((trimEnd text).rdropWhile (· = '#')))
    | _ => none

def stripUnorderedMarker (line : List Char) : Option (List Char) :=
  match line.dropWhile isWhitespace with
  | '-' :: ' ' :: item => some item
  | _ => none

def stripOrderedMarker (line : List Char) : Option (List Char) :=
  let trimmed := line.dropWhile isWhitespace
  let digitsLen := (trimmed.takeWhile Char.isDigit).length
  if digitsLen = 0 then none
  else match trimmed.drop digitsLen with
    | '.' :: ' ' :: item => some item
    | _ => none

def stripBlockquoteMarker (line : List Char) : Option (List Char) :=
  match line.dropWhile isWhitespace with
  | '>' :: ' ' :: rest => some rest
  | '>' :: rest => some rest
  | _ => none

def isTableSeparatorRow (line : List Char) : Bool :=
  let trimmed := trim line
  trimmed.head? = some '|' && trimmed.all fun c => ['|', '-', ':', ' '].contains c

/-- A line with a bar starts a table when the line after it separates the header. -/
def isTableStart (line : List Char) (rest : List (List Char)) : Bool :=
  line.contains '|' && rest.head?.any isTableSeparatorRow

def splitTableRow (line : List Char) : List (List Char) :=
  let trimmed := trim line
  let trimmed := if trimmed.head? = some '|' then trimmed.tail else trimmed
  let trimmed := if trimmed.getLast? = some '|' then trimmed.dropLast else trimmed
  (trimmed.splitOn '|').map trim

def isBlockBoundary (line : List Char) (rest : List (List Char)) : Bool :=
  (trim line).isEmpty || (fenceLang line).isSome || (parseHeading line).isSome
    || isTableStart line rest || (stripBlockquoteMarker line).isSome
    || (stripUnorderedMarker line).isSome || (stripOrderedMarker line).isSome

/-! ## Blocks -/

def headingTag (level : ℕ) : String := String.ofList ['h', Char.ofNat ('0'.toNat + level)]

def renderHeading (level : ℕ) (text : List Char) : List Char :=
  let tag := headingTag level
  wrap ("<" ++ tag ++ " id=\"") "\">" (slugifyHeading text) ++
    (renderInline text ++ ("</" ++ tag ++ ">").toList) ++ ['\n']

def codeStart (lang : List Char) : List Char :=
  if lang.isEmpty then "<code>".toList
  else wrap "<code class=\"language-" "\">" (pushEscapedStr lang)

def renderCodeBlock (lang : List Char) (code : List (List Char)) : List Char :=
  wrap "<pre>" "</pre>" (codeStart lang ++
    (['\n'].intercalate (code.map pushEscapedStr) ++ "</code>".toList)) ++ ['\n']

def renderRow (tag : String) (line : List Char) : List Char :=
  wrap "<tr>" "</tr>" ((splitTableRow line).flatMap fun cell =>
    wrap ("<" ++ tag ++ ">") ("</" ++ tag ++ ">") (renderInline cell)) ++ ['\n']

def isTableRow (line : List Char) : Bool := line.contains '|' && !(trim line).isEmpty

/-- The header, and the rows after its separator up to the first line that is none. -/
def renderTable (line : List Char) (rest : List (List Char)) : List Char × List (List Char) :=
  let body := rest.drop 1
  let header := wrap "<thead>" "</thead>" ('\n' :: renderRow "th" line)
  let rows := wrap "<tbody>" "</tbody>"
    ('\n' :: (body.takeWhile isTableRow).flatMap (renderRow "td"))
  (wrap "<table class=\"data-table\">" "</table>"
    ('\n' :: header ++ '\n' :: rows ++ ['\n']) ++ ['\n'], body.dropWhile isTableRow)

/-- The lines of a block from its start on that carry a marker, without it. -/
def marked (strip : List Char → Option (List Char)) (block : List (List Char)) :
    List (List Char) :=
  ((block.map strip).takeWhile Option.isSome).reduceOption

def unmarked (strip : List Char → Option (List Char)) (block : List (List Char)) :
    List (List Char) :=
  block.dropWhile fun line => (strip line).isSome

def renderList (tag : String) (strip : List Char → Option (List Char))
    (block : List (List Char)) : List Char × List (List Char) :=
  (wrap ("<" ++ tag ++ ">") ("</" ++ tag ++ ">")
    ('\n' :: (marked strip block).flatMap fun item =>
      wrap "<li>" "</li>" (renderInline (trim item)) ++ ['\n']) ++ ['\n'], unmarked strip block)

/-- Lines put together, with blanks between them once there is some text. -/
def joinLines (content : List (List Char)) : List Char :=
  content.foldl (fun text line =>
    (if text.isEmpty then text else text ++ [' ']) ++ trim line) []

def renderBlockquote (block : List (List Char)) : List Char × List (List Char) :=
  let content := joinLines (marked stripBlockquoteMarker block)
  (wrap "<blockquote>" "</blockquote>" (wrap "<p>" "</p>" (renderInline content)) ++ ['\n'],
    unmarked stripBlockquoteMarker block)

/-- The lines of a paragraph after its first one, and the lines after them. -/
def paragraphLines : List (List Char) → List (List Char) × List (List Char)
  | [] => ([], [])
  | line :: rest =>
    if isBlockBoundary line rest then ([], line :: rest)
    else (line :: (paragraphLines rest).1, (paragraphLines rest).2)

def renderParagraph (line : List Char) (rest : List (List Char)) :
    List Char × List (List Char) :=
  (wrap "<p>" "</p>" (renderInline (joinLines (line :: (paragraphLines rest).1))) ++ ['\n'],
    (paragraphLines rest).2)

/-- The block that starts at a line which is not blank, and the lines after it. -/
def renderBlock (line : List Char) (rest : List (List Char)) : List Char × List (List Char) :=
  match fenceLang line with
  | some lang =>
    (renderCodeBlock lang (rest.takeWhile fun l => !isFenceLine l),
      (rest.dropWhile fun l => !isFenceLine l).tail)
  | none =>
    match parseHeading line with
    | some (level, text) => (renderHeading level text, rest)
    | none =>
      if isTableStart line rest then renderTable line rest
      else if (stripBlockquoteMarker line).isSome then renderBlockquote (line :: rest)
      else if (stripUnorderedMarker line).isSome then
        renderList "ul" stripUnorderedMarker (line :: rest)
      else if (stripOrderedMarker line).isSome then
        renderList "ol" stripOrderedMarker (line :: rest)
      else renderParagraph line rest

theorem length_unmarked {strip : List Char → Option (List Char)} {line : List Char}
    (h : (strip line).isSome) (rest : List (List Char)) :
    (unmarked strip (line :: rest)).length ≤ rest.length := by
  have hdrop : unmarked strip (line :: rest) = unmarked strip rest :=
    List.dropWhile_cons_of_pos h
  rw [hdrop]
  exact (List.dropWhile_sublist _).length_le

theorem length_paragraphLines (lines : List (List Char)) :
    (paragraphLines lines).2.length ≤ lines.length := by
  induction lines with
  | nil => exact le_rfl
  | cons line rest ih =>
    rw [paragraphLines]
    split
    · exact le_rfl
    · exact Nat.le_succ_of_le ih

/-- A block takes the line that it starts at. -/
theorem length_renderBlock (line : List Char) (rest : List (List Char)) :
    (renderBlock line rest).2.length ≤ rest.length := by
  unfold renderBlock
  split
  · exact (List.tail_sublist _).length_le.trans (List.dropWhile_sublist _).length_le
  · split
    · exact le_rfl
    · split_ifs with htable hquote hunordered hordered
      · exact (List.dropWhile_sublist _).length_le.trans (List.drop_sublist _ _).length_le
      · exact length_unmarked hquote rest
      · exact length_unmarked hunordered rest
      · exact length_unmarked hordered rest
      · exact length_paragraphLines rest

def renderLines : List (List Char) → List Char
  | [] => []
  | line :: rest =>
    if (trim line).isEmpty then renderLines rest
    else (renderBlock line rest).1 ++ renderLines (renderBlock line rest).2
termination_by lines => lines.length
decreasing_by
  · exact Nat.lt_succ_self _
  · exact Nat.lt_succ_of_le (length_renderBlock line rest)

def render (source : String) : String := String.ofList (renderLines (lines source.toList))

end GhReport.Report.Markdown

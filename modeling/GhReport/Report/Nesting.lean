import GhReport.Library.Markup
import GhReport.Report.Markdown

/-! # The markup of a rendered guide

Whatever the guide says, its markup is nested as HTML has it: each element is
closed where it was opened and holds content of its own kind, text is escaped,
and links, strong text and emphasis do not stand inside their own kind.
-/

namespace GhReport.Report.Markdown

open Occurrence Markup
open GitHub (trim)

/-! ## The elements -/

/-- What inline text may still hold: a link, strong text, emphasis. -/
structure Phrasing where
  link : Bool
  strong : Bool
  em : Bool

inductive Content where
  | flow
  | quote
  | preformatted
  | code
  | table
  | rows
  | row
  | items
  | phrasing (p : Phrasing)

def Content.inline : Content := .phrasing ⟨true, true, true⟩

/-- Text between the elements: line breaks between blocks, escaped text in a line. -/
def contentText : Content → List Char → Prop
  | .flow, t | .table, t | .rows, t | .items, t => t = ['\n']
  | .quote, _ | .preformatted, _ | .row, _ => False
  | .code, t | .phrasing _, t => Escaped t

def slugAlphabet : List Char := "abcdefghijklmnopqrstuvwxyz0123456789-".toList

/-- The elements by their tags; what stands in an attribute is escaped. -/
inductive ContentElement : Content → List Char → List Char → Content → Prop where
  | heading {level : ℕ} {slug : List Char} : 1 ≤ level → level ≤ 6 →
      (∀ c ∈ slug, c ∈ slugAlphabet) →
      ContentElement .flow (wrap ("<" ++ headingTag level ++ " id=\"") "\">" slug)
        ("</" ++ headingTag level ++ ">").toList .inline
  | paragraph : ContentElement .flow "<p>".toList "</p>".toList .inline
  | blockquote : ContentElement .flow "<blockquote>".toList "</blockquote>".toList .quote
  | quoted : ContentElement .quote "<p>".toList "</p>".toList .inline
  | pre : ContentElement .flow "<pre>".toList "</pre>".toList .preformatted
  | codeBlock : ContentElement .preformatted "<code>".toList "</code>".toList .code
  | codeBlockIn {lang : List Char} : Escaped lang →
      ContentElement .preformatted (wrap "<code class=\"language-" "\">" lang) "</code>".toList
        .code
  | table : ContentElement .flow "<table class=\"data-table\">".toList "</table>".toList .table
  | thead : ContentElement .table "<thead>".toList "</thead>".toList .rows
  | tbody : ContentElement .table "<tbody>".toList "</tbody>".toList .rows
  | tr : ContentElement .rows "<tr>".toList "</tr>".toList .row
  | th : ContentElement .row "<th>".toList "</th>".toList .inline
  | td : ContentElement .row "<td>".toList "</td>".toList .inline
  | ul : ContentElement .flow "<ul>".toList "</ul>".toList .items
  | ol : ContentElement .flow "<ol>".toList "</ol>".toList .items
  | li : ContentElement .items "<li>".toList "</li>".toList .inline
  | code {p : Phrasing} : ContentElement (.phrasing p) "<code>".toList "</code>".toList .code
  | strong {p : Phrasing} : p.strong = true →
      ContentElement (.phrasing p) "<strong>".toList "</strong>".toList
        (.phrasing { p with strong := false })
  | em {p : Phrasing} : p.em = true →
      ContentElement (.phrasing p) "<em>".toList "</em>".toList
        (.phrasing { p with strong := false, em := false })
  | link {p : Phrasing} {url : List Char} : p.link = true → Escaped url →
      ContentElement (.phrasing p) (wrap "<a href=\"" "\">" url) "</a>".toList
        (.phrasing { p with link := false })

def guideModel : ContentModel Content := ⟨contentText, ContentElement⟩

/-! ## Escapes -/

theorem escaped_pushEscapedChar (c : Char) : Escaped (pushEscapedChar c) := by
  unfold pushEscapedChar
  split_ifs with hamp hlt hgt hquot
  · exact escaped_of_entity (by decide)
  · exact escaped_of_entity (by decide)
  · exact escaped_of_entity (by decide)
  · exact escaped_of_entity (by decide)
  · exact .plain ⟨hlt, hgt, hamp, hquot⟩ .nil

theorem escaped_pushEscapedStr (s : List Char) : Escaped (pushEscapedStr s) :=
  Escaped.flatMap escaped_pushEscapedChar s

theorem slugifyChar_subset (c : Char) : ∀ d ∈ slugifyChar c, d ∈ slugAlphabet := by
  unfold slugifyChar
  split_ifs with hspace hkeep
  · rw [List.forall_mem_singleton]
    decide
  · rw [List.forall_mem_singleton]
    rcases Bool.or_eq_true_iff.mp hkeep with halnum | hdash
    · have hascii : ∀ n < 128, (Char.ofNat n).isAlphanum = true →
          (Char.ofNat n).toLower ∈ slugAlphabet := by decide
      have hlt : c.toNat < 128 := by
        delta Char.isAlphanum Char.isAlpha Char.isUpper Char.isLower Char.isDigit at halnum
        simp only [Bool.or_eq_true, decide_eq_true_eq, Bool.and_eq_true,
          UInt32.le_iff_toNat_le] at halnum
        have hZ : 'Z'.val.toNat = 90 := rfl
        have hz : 'z'.val.toNat = 122 := rfl
        have h9 : '9'.val.toNat = 57 := rfl
        change c.val.toNat < 128
        omega
      have hlower := hascii c.toNat hlt
      rw [Char.ofNat_toNat] at hlower
      exact hlower halnum
    · rw [of_decide_eq_true hdash]
      decide
  · exact List.forall_mem_nil _

theorem slugifyHeading_subset (text : List Char) :
    ∀ c ∈ slugifyHeading text, c ∈ slugAlphabet := by
  intro c hc
  obtain ⟨d, -, hd⟩ := List.mem_flatMap.mp hc
  exact slugifyChar_subset d c hd

/-! ## Inline text -/

/-- What inline text may not hold, it does not hold. -/
structure Fits (p : Phrasing) (text : List Char) : Prop where
  link : p.link = false → ']' ∉ text
  strong : p.strong = false → ¬ ['*', '*'] <:+: text
  em : p.em = false → '*' ∉ text

variable {p : Phrasing} {text text' : List Char}

theorem Fits.of_part (h : Fits p text) (hpart : text' <:+: text) : Fits p text' where
  link hp hmem := h.link hp (hpart.subset hmem)
  strong hp hstars := h.strong hp (hstars.trans hpart)
  em hp hmem := h.em hp (hpart.subset hmem)

theorem Fits.tail {c : Char} (h : Fits p (c :: text)) : Fits p text :=
  h.of_part (List.infix_cons List.infix_rfl)

/-- Both sides of a split fit where the whole does. -/
theorem Fits.split {pat before after : List Char} (h : Fits p text)
    (hsplit : splitFirst pat text = some (before, after)) : Fits p before ∧ Fits p after := by
  rw [splitFirst_eq hsplit] at h
  refine ⟨h.of_part (List.prefix_append ..).isInfix, h.of_part ?_⟩
  rw [← List.append_assoc]
  exact (List.suffix_append ..).isInfix

theorem Fits.link_true (h : Fits p text) (hmem : ']' ∈ text) : p.link = true := by
  by_contra hp
  exact h.link (Bool.eq_false_of_not_eq_true hp) hmem

theorem Fits.em_true (h : Fits p text) (hmem : '*' ∈ text) : p.em = true := by
  by_contra hp
  exact h.em (Bool.eq_false_of_not_eq_true hp) hmem

theorem Fits.strong_true (h : Fits p ('*' :: '*' :: text)) : p.strong = true := by
  by_contra hp
  exact h.strong (Bool.eq_false_of_not_eq_true hp) ⟨[], text, rfl⟩

/-- Text without a star holds neither strong text nor emphasis. -/
theorem Fits.notStar (h : Fits p text) (hstar : '*' ∉ text) :
    Fits { p with strong := false, em := false } text where
  link := h.link
  strong _ hstars := hstar (hstars.subset (List.mem_cons_self ..))
  em _ := hstar

theorem Fits.linkParts {linkText url rest : List Char} (h : Fits p text)
    (hparts : linkParts text = some (linkText, url, rest)) :
    p.link = true ∧ Fits { p with link := false } linkText ∧ Fits p rest := by
  obtain ⟨hbracket, rfl⟩ := linkParts_eq hparts
  have hlink : Fits p linkText := h.of_part (List.prefix_append ..).isInfix
  refine ⟨h.link_true (by simp), ⟨fun _ => hbracket, hlink.strong, hlink.em⟩, h.of_part ?_⟩
  exact ⟨linkText ++ ']' :: '(' :: (url ++ [')']), [], by simp⟩

/-- Inline text is nested in every content that it fits, by induction along the rendering. -/
theorem renderInline_nested (text : List Char) (p : Phrasing) (h : Fits p text) :
    Nested guideModel (.phrasing p) (renderInline text) := by
  have htext : ∀ {p t}, Escaped t → Nested guideModel (.phrasing p) t := fun ht => .text ht
  have hchar : ∀ {p} (c : Char), Nested guideModel (.phrasing p) (pushEscapedChar c) :=
    fun c => htext (escaped_pushEscapedChar c)
  fun_induction renderInline text generalizing p with
  | case1 => exact .nil
  | case2 => exact htext (escaped_of_plain (by simp [Plain]))
  | case3 next rest hnext ih => exact .append (hchar next) (ih p h.tail.tail)
  | case4 next rest hnext ih =>
    exact .append (s := ['\\']) (htext (escaped_of_plain (by simp [Plain]))) (ih p h.tail)
  | case5 rest code rest' hsplit _ ih =>
    obtain ⟨-, hrest⟩ := h.tail.split hsplit
    exact .append (.element .code (.text (escaped_pushEscapedStr code))) (ih p hrest)
  | case6 rest hsplit _ ih => exact .append (hchar _) (ih p h.tail)
  | case7 afterStars strong rest hsplit _ _ ihstrong ih =>
    obtain ⟨hinner, hrest⟩ := h.tail.tail.split hsplit
    have hstrong : Fits { p with strong := false } strong :=
      ⟨hinner.link, fun _ => not_infix_of_splitFirst (List.cons_ne_nil _ _) hsplit, hinner.em⟩
    exact .append (.element (.strong h.strong_true) (ihstrong _ hstrong)) (ih p hrest)
  | case8 afterStars hsplit _ _ ih => exact .append (hchar _) (ih p h.tail)
  | case9 single hsingle em rest hsplit _ _ ihem ih =>
    obtain ⟨hinner, hrest⟩ := h.tail.split hsplit
    have hem := hinner.notStar (notMem_of_splitFirst hsplit)
    exact .append (.element (.em (h.em_true (List.mem_cons_self ..))) (ihem _ hem)) (ih p hrest)
  | case10 single hsingle hsplit _ _ ih => exact .append (hchar _) (ih p h.tail)
  | case11 rest linkText url rest' hparts _ _ _ ihlink ih =>
    obtain ⟨hlink, hinner, hrest⟩ := h.tail.linkParts hparts
    have hurl := escaped_pushEscapedStr url
    exact .append (.element (.link hlink hurl) (ihlink _ hinner)) (ih p hrest)
  | case12 rest hparts _ _ _ ih => exact .append (hchar _) (ih p h.tail)
  | case13 c rest _ _ _ _ ih => exact .append (hchar c) (ih p h.tail)

theorem renderInline_inline (text : List Char) : Nested guideModel .inline (renderInline text) :=
  renderInline_nested text _ ⟨nofun, nofun, nofun⟩

/-! ## Blocks -/

theorem nested_wrap {k k' : Content} {start stop : String} {body : List Char}
    (helement : ContentElement k start.toList stop.toList k') (hbody : Nested guideModel k' body) :
    Nested guideModel k (wrap start stop body) :=
  .element helement hbody

theorem renderHeading_nested {line text : List Char} {level : ℕ}
    (h : parseHeading line = some (level, text)) :
    Nested guideModel .flow (renderHeading level text) := by
  have hlevel : 1 ≤ level ∧ level ≤ 6 := by
    unfold parseHeading at h
    dsimp only at h
    split at h
    · cases h
    · next hcount =>
      split at h
      · cases h
        omega
      · cases h
  exact .append (.element (.heading hlevel.1 hlevel.2 (slugifyHeading_subset text))
    (renderInline_inline text)) (.text rfl)

theorem renderCodeBlock_nested (lang : List Char) (code : List (List Char)) :
    Nested guideModel .flow (renderCodeBlock lang code) := by
  have hstart : ContentElement .preformatted (codeStart lang) "</code>".toList .code := by
    unfold codeStart
    split
    · exact .codeBlock
    · exact .codeBlockIn (escaped_pushEscapedStr lang)
  have hcode : Escaped (['\n'].intercalate (code.map pushEscapedStr)) := by
    refine .intercalate (escaped_of_plain (by simp [Plain])) ?_
    rw [List.forall_mem_map]
    exact fun line _ => escaped_pushEscapedStr line
  exact .append (nested_wrap .pre (.element hstart (.text hcode))) (.text rfl)

theorem renderRow_nested (tag : String) (line : List Char)
    (htag : ContentElement .row ("<" ++ tag ++ ">").toList ("</" ++ tag ++ ">").toList .inline) :
    Nested guideModel .rows (renderRow tag line) :=
  .append (nested_wrap .tr (.flatMap fun cell _ => nested_wrap htag (renderInline_inline cell)))
    (.text rfl)

theorem renderTable_nested (line : List Char) (rest : List (List Char)) :
    Nested guideModel .flow (renderTable line rest).1 := by
  have hbreak : ∀ {k t}, contentText k ['\n'] → Nested guideModel k t →
      Nested guideModel k ('\n' :: t) := fun hk ht => .append (s := ['\n']) (.text hk) ht
  have hheader := nested_wrap .thead (hbreak rfl (renderRow_nested "th" line .th))
  have hrows := nested_wrap .tbody (hbreak rfl (.flatMap fun row
    (_ : row ∈ (rest.drop 1).takeWhile isTableRow) => renderRow_nested "td" row .td))
  exact .append (nested_wrap .table
    (.append (.append (hbreak rfl hheader) (hbreak rfl hrows)) (.text rfl))) (.text rfl)

theorem renderList_nested {tag : String} (strip : List Char → Option (List Char))
    (block : List (List Char))
    (htag : ContentElement .flow ("<" ++ tag ++ ">").toList ("</" ++ tag ++ ">").toList .items) :
    Nested guideModel .flow (renderList tag strip block).1 := by
  have hitems : Nested guideModel .items ((marked strip block).flatMap fun item =>
      wrap "<li>" "</li>" (renderInline (trim item)) ++ ['\n']) :=
    .flatMap fun item _ =>
      .append (nested_wrap .li (renderInline_inline (trim item))) (.text rfl)
  exact .append (nested_wrap htag (.append (s := ['\n']) (.text rfl) hitems)) (.text rfl)

/-- Every block is nested, whichever construct its first line starts. -/
theorem renderBlock_nested (line : List Char) (rest : List (List Char)) :
    Nested guideModel .flow (renderBlock line rest).1 := by
  unfold renderBlock
  split
  · next lang hlang => exact renderCodeBlock_nested lang _
  · split
    · next level text hheading => exact renderHeading_nested hheading
    · split_ifs
      · exact renderTable_nested line rest
      · exact .append (nested_wrap .blockquote (nested_wrap .quoted (renderInline_inline _)))
          (.text rfl)
      · exact renderList_nested _ _ .ul
      · exact renderList_nested _ _ .ol
      · exact .append (nested_wrap .paragraph (renderInline_inline _)) (.text rfl)

theorem renderLines_nested (lines : List (List Char)) :
    Nested guideModel .flow (renderLines lines) := by
  fun_induction renderLines lines with
  | case1 => exact .nil
  | case2 line rest hblank ih => exact ih
  | case3 line rest hblank ih => exact .append (renderBlock_nested line rest) ih

/--
The markup of a rendered guide is nested for every source: elements close where they were opened,
around content of their own kind, and nothing of the source is markup.
-/
theorem render_nested (source : String) :
    Nested guideModel .flow (render source).toList := by
  rw [render, String.toList_ofList]
  exact renderLines_nested _

end GhReport.Report.Markdown

import GhReport.Collector.Codeowners
import GhReport.Domain.Owners

/-! # Who owns a repository

Every line of CODEOWNERS that has a pattern makes an entry. The owners of a file
are those of its entries, each once up to case, and so the owners' map lists
each repository once under every owner that it names.
-/

namespace GhReport.Collector.Codeowners

open Domain GitHub

/-! ## Comments -/

/-- A `#` with a blank before it. -/
def Marked (text : List Char) : Prop :=
  ∃ before b after, text = before ++ b :: '#' :: after ∧ (b = ' ' ∨ b = '\t')

theorem not_marked_nil : ¬ Marked [] := by
  rintro ⟨before, b, after, h, -⟩
  cases before <;> cases h

theorem marked_cons_iff (c : Char) (text : List Char) :
    Marked (c :: text) ↔ (text.head? = some '#' ∧ (c = ' ' ∨ c = '\t')) ∨ Marked text := by
  constructor
  · rintro ⟨before, b, after, h, hb⟩
    cases before with
    | nil =>
      cases h
      exact .inl ⟨rfl, hb⟩
    | cons c' before =>
      cases h
      exact .inr ⟨before, b, after, rfl, hb⟩
  · rintro (⟨h, hc⟩ | ⟨before, b, after, rfl, hb⟩)
    · obtain ⟨after, rfl⟩ := List.head?_eq_some_iff.mp h
      exact ⟨[], c, after, rfl, hc⟩
    · exact ⟨c :: before, b, after, rfl, hb⟩

theorem beforeComment_cons (c : Char) (text : List Char) :
    beforeComment (c :: text) =
      if text.head? = some '#' ∧ (c = ' ' ∨ c = '\t') then some []
      else (beforeComment text).map (c :: ·) := by
  by_cases h : ∃ rest, text = '#' :: rest
  · obtain ⟨rest, rfl⟩ := h
    rw [beforeComment]
    simp
  · have hhead : text.head? ≠ some '#' := fun hhead => h (List.head?_eq_some_iff.mp hhead)
    rw [beforeComment, if_neg fun hmark => hhead hmark.1]
    rintro rest rfl
    exact h ⟨rest, rfl⟩

theorem beforeComment_eq_none_iff (line : List Char) :
    beforeComment line = none ↔ ¬ Marked line := by
  induction line with
  | nil => exact iff_of_true rfl not_marked_nil
  | cons c line ih =>
    rw [beforeComment_cons, marked_cons_iff, not_or, ← ih]
    split
    · next h => exact iff_of_false nofun fun hnot => hnot.1 h
    · next h => simp [h]

/-- What is cut off starts with the first mark. -/
theorem beforeComment_some {line text : List Char} (h : beforeComment line = some text) :
    ¬ Marked text ∧ ∃ b rest, (b = ' ' ∨ b = '\t') ∧ line = text ++ b :: '#' :: rest := by
  induction line generalizing text with
  | nil => cases h
  | cons c line ih =>
    rw [beforeComment_cons] at h
    split at h
    · next hmark =>
      cases h
      obtain ⟨rest, rfl⟩ := List.head?_eq_some_iff.mp hmark.1
      exact ⟨not_marked_nil, c, rest, hmark.2, rfl⟩
    · next hmark =>
      obtain ⟨before, hbefore, rfl⟩ := Option.map_eq_some_iff.mp h
      obtain ⟨hnot, b, rest, hb, rfl⟩ := ih hbefore
      refine ⟨?_, b, rest, hb, rfl⟩
      rw [marked_cons_iff, not_or]
      refine ⟨?_, hnot⟩
      rintro ⟨hhead, hc⟩
      obtain ⟨after, rfl⟩ := List.head?_eq_some_iff.mp hhead
      exact hmark ⟨rfl, hc⟩

/-- The part of a line before its inline comment, if it has one. -/
def CodePart (line code : List Char) : Prop :=
  (¬ Marked line ∧ code = line) ∨
    ∃ text b rest, line = text ++ b :: '#' :: rest ∧ (b = ' ' ∨ b = '\t') ∧ ¬ Marked text ∧
      code = trimEnd text

theorem codePart_stripInlineComment (line : List Char) :
    CodePart line (stripInlineComment line) := by
  unfold stripInlineComment
  cases h : beforeComment line with
  | none => exact .inl ⟨(beforeComment_eq_none_iff line).mp h, rfl⟩
  | some text =>
    obtain ⟨hnot, b, rest, hb, hline⟩ := beforeComment_some h
    exact .inr ⟨text, b, rest, hline, hb, hnot, rfl⟩

/-! ## Lines -/

/-- Within the limit, not blank, not a comment, and with a word before its inline comment. -/
def isEntryLine (line : List Char) : Bool :=
  utf8Length line ≤ maxLineLength && !(trim line).isEmpty && (trim line).head? ≠ some '#' &&
    !(splitWhitespace (stripInlineComment (trim line))).isEmpty

/-- The entry of a line: its pattern is the first word, its owners are the later words with `@`. -/
def EntryOf (line : List Char) (entry : CodeownersEntry) : Prop :=
  ∃ code pattern tokens, CodePart (trim line) code ∧ splitWhitespace code = pattern :: tokens ∧
    entry.pattern = String.ofList pattern ∧ entry.owners.Nodup ∧
    ∀ owner, owner ∈ entry.owners ↔ owner.toList ∈ tokens ∧ owner.toList.head? = some '@'

theorem lineOwners_eq_dedup (tokens : List (List Char)) :
    lineOwners tokens = (((tokens.filter fun token => token.head? = some '@').map
      String.ofList).insertionSort (· ≤ ·)).dedup := by
  unfold lineOwners
  exact (List.pairwise_insertionSort (· ≤ ·) _).destutter_eq_dedup

theorem mem_lineOwners {tokens : List (List Char)} {owner : String} :
    owner ∈ lineOwners tokens ↔ owner.toList ∈ tokens ∧ owner.toList.head? = some '@' := by
  rw [lineOwners_eq_dedup, List.mem_dedup, List.mem_insertionSort, List.mem_map]
  constructor
  · rintro ⟨token, htoken, rfl⟩
    rw [List.mem_filter, decide_eq_true_eq] at htoken
    rwa [String.toList_ofList]
  · rintro ⟨hmem, hhead⟩
    refine ⟨owner.toList, ?_, String.ofList_toList⟩
    rw [List.mem_filter, decide_eq_true_eq]
    exact ⟨hmem, hhead⟩

section Parser

variable {toLowercase : String → String}

/-- What the parser has read of the lines so far. -/
structure Reading (toLowercase : String → String) (s : Parsing) (ls : List (List Char)) :
    Prop where
  entries : List.Forall₂ EntryOf (ls.filter isEntryLine) s.entries
  seen : s.seenOwners = s.uniqueOwners.map toLowercase
  nodup : s.seenOwners.Nodup
  owners : ∀ key, key ∈ s.seenOwners ↔ ∃ e ∈ s.entries, ∃ o ∈ e.owners, toLowercase o = key

theorem addOwner_entries (s : Parsing) (owner : String) :
    (s.addOwner toLowercase owner).entries = s.entries := by
  unfold Parsing.addOwner
  split <;> rfl

/-- The owners of a line are added, but for those that are there up to case. -/
theorem foldl_addOwner {s : Parsing} (hseen : s.seenOwners = s.uniqueOwners.map toLowercase)
    (hnodup : s.seenOwners.Nodup) (owners : List String) :
    let s' := owners.foldl (Parsing.addOwner toLowercase) s
    s'.entries = s.entries ∧ s'.seenOwners = s'.uniqueOwners.map toLowercase ∧
      s'.seenOwners.Nodup ∧
      ∀ key, key ∈ s'.seenOwners ↔ key ∈ s.seenOwners ∨ ∃ o ∈ owners, toLowercase o = key := by
  induction owners generalizing s with
  | nil => exact ⟨rfl, hseen, hnodup, by simp⟩
  | cons owner owners ih =>
    have hadd : (s.addOwner toLowercase owner).seenOwners =
          (s.addOwner toLowercase owner).uniqueOwners.map toLowercase ∧
        (s.addOwner toLowercase owner).seenOwners.Nodup ∧
        ∀ key, key ∈ (s.addOwner toLowercase owner).seenOwners ↔
          key ∈ s.seenOwners ∨ toLowercase owner = key := by
      unfold Parsing.addOwner
      split
      · next hmem =>
        rw [List.contains_iff_mem] at hmem
        refine ⟨hseen, hnodup, fun key => ⟨.inl, ?_⟩⟩
        rintro (hkey | rfl)
        · exact hkey
        · exact hmem
      · next hnew =>
        rw [List.contains_iff_mem] at hnew
        refine ⟨?_, ?_, fun key => ?_⟩
        · rw [List.map_append, hseen]
          rfl
        · rw [← List.concat_eq_append]
          exact hnodup.concat hnew
        · rw [List.mem_append, List.mem_singleton, eq_comm]
    obtain ⟨hentries, hseen', hnodup', howners⟩ := ih hadd.1 hadd.2.1
    rw [List.foldl_cons]
    refine ⟨hentries.trans (addOwner_entries s owner), hseen', hnodup', fun key => ?_⟩
    rw [howners, hadd.2.2, List.exists_mem_cons_iff, or_assoc]

theorem Reading.addLine {s : Parsing} {ls : List (List Char)} (h : Reading toLowercase s ls)
    (line : List Char) : Reading toLowercase (s.addLine toLowercase line) (ls ++ [line]) := by
  have hskip : isEntryLine line = false → (ls ++ [line]).filter isEntryLine =
      ls.filter isEntryLine := by
    intro hline
    rw [List.filter_append, List.filter_singleton, hline]
    exact List.append_nil _
  unfold Parsing.addLine
  dsimp only
  split
  · next hlong =>
    have hline : isEntryLine line = false := by simp [isEntryLine, not_le.mpr hlong]
    exact ⟨hskip hline ▸ h.entries, h.seen, h.nodup, h.owners⟩
  · next hshort =>
    split
    · next hblank =>
      have hline : isEntryLine line = false := by
        rcases hblank with hblank | hcomment
        · simp [isEntryLine, hblank]
        · simp [isEntryLine, hcomment]
      exact ⟨hskip hline ▸ h.entries, h.seen, h.nodup, h.owners⟩
    · next hcode =>
      rw [not_or] at hcode
      cases hwords : splitWhitespace (stripInlineComment (trim line)) with
      | nil =>
        have hline : isEntryLine line = false := by simp [isEntryLine, hwords]
        exact ⟨hskip hline ▸ h.entries, h.seen, h.nodup, h.owners⟩
      | cons pattern tokens =>
        have hline : isEntryLine line = true := by
          simp [isEntryLine, hwords, not_lt.mp hshort, hcode]
        have hentry : EntryOf line ⟨String.ofList pattern, lineOwners tokens⟩ := by
          refine ⟨_, pattern, tokens, codePart_stripInlineComment _, hwords, rfl, ?_,
            fun owner => mem_lineOwners⟩
          rw [lineOwners_eq_dedup]
          exact List.nodup_dedup _
        obtain ⟨hentries, hseen, hnodup, howners⟩ :=
          foldl_addOwner h.seen h.nodup (lineOwners tokens)
        refine ⟨?_, hseen, hnodup, fun key => ?_⟩
        · dsimp only
          rw [hentries, List.filter_append, List.filter_singleton, hline]
          exact List.rel_append h.entries (.cons hentry .nil)
        · dsimp only
          rw [hentries, howners, h.owners]
          simp only [List.mem_append, List.mem_singleton, or_and_right, exists_or,
            exists_eq_left]

variable (toLowercase) in
theorem reading_parse (content : String) :
    Reading toLowercase ((lines content.toList).foldl (Parsing.addLine toLowercase)
      ⟨[], [], [], 0⟩) (lines content.toList) := by
  induction lines content.toList using List.reverseRecOn with
  | nil => exact ⟨.nil, rfl, List.nodup_nil, by simp⟩
  | append_singleton ls line ih =>
    rw [List.foldl_concat]
    exact ih.addLine line

theorem mem_uniqueOwners_iff (content key : String) :
    key ∈ (parseCodeowners toLowercase content).uniqueOwners.map toLowercase ↔
      ∃ e ∈ (parseCodeowners toLowercase content).entries, ∃ o ∈ e.owners,
        toLowercase o = key := by
  have h := reading_parse toLowercase content
  have howners := h.owners key
  rw [h.seen] at howners
  exact howners

theorem nodup_uniqueOwners (content : String) :
    ((parseCodeowners toLowercase content).uniqueOwners.map toLowercase).Nodup := by
  have h := reading_parse toLowercase content
  exact h.seen ▸ h.nodup

end Parser

/-! ## The map of owners -/

section Owners

variable (toLowercase : String → String)

/-- Some entry of the repository's file has the owner, up to case. -/
def namesOwner (key : String) (repo : RepositoryEvidence) : Bool :=
  match repo.checks.codeowners.parsed with
  | none => false
  | some parsed => parsed.entries.any fun e => e.owners.any fun o => toLowercase o = key

/-- What was read of the repository's file is what the parser reads. -/
def ParsedByCode (repo : RepositoryEvidence) : Prop :=
  ∀ parsed, repo.checks.codeowners.parsed = some parsed →
    ∃ content, parsed = parseCodeowners toLowercase content

/-- A file that was parsed mentions an owner once or not at all. -/
theorem mentions_of_parsed {repo : RepositoryEvidence} (h : ParsedByCode toLowercase repo)
    (key : String) :
    mentions toLowercase key repo = if namesOwner toLowercase key repo then 1 else 0 := by
  unfold mentions namesOwner
  cases hparsed : repo.checks.codeowners.parsed with
  | none => rfl
  | some parsed =>
    obtain ⟨content, rfl⟩ := h parsed hparsed
    dsimp only
    have hcount : ((parseCodeowners toLowercase content).uniqueOwners.countP
        fun listed => toLowercase listed = key) =
        ((parseCodeowners toLowercase content).uniqueOwners.map toLowercase).count key := by
      rw [List.count, List.countP_map]
      rfl
    rw [hcount, (nodup_uniqueOwners content).count]
    refine if_congr ?_ rfl rfl
    rw [mem_uniqueOwners_iff]
    simp only [List.any_eq_true, decide_eq_true_eq]

/--
The parser makes an entry of every line that has one, in order, and lists the owners of the entries
once up to case. The map lists each unarchived repository once under each owner that it names, and
under no other key.
-/
theorem parseCodeowners_attribution :
    (∀ content,
      List.Forall₂ EntryOf ((lines content.toList).filter isEntryLine)
          (parseCodeowners toLowercase content).entries ∧
        ((parseCodeowners toLowercase content).uniqueOwners.map toLowercase).Nodup ∧
        ∀ key, key ∈ (parseCodeowners toLowercase content).uniqueOwners.map toLowercase ↔
          ∃ e ∈ (parseCodeowners toLowercase content).entries, ∃ o ∈ e.owners,
            toLowercase o = key) ∧
    ∀ repositories : List RepositoryEvidence,
      (∀ repo ∈ repositories, ParsedByCode toLowercase repo) →
      ∀ key,
        (buildOwnerRepoMap toLowercase repositories).reposOf key = repositories.filter
            (fun repo => !repo.repository.archived && namesOwner toLowercase key repo) ∧
          ((buildOwnerRepoMap toLowercase repositories)[key]? = none ↔
            ∀ repo ∈ repositories, repo.repository.archived = true ∨
              namesOwner toLowercase key repo = false) := by
  refine ⟨fun content => ?_, fun repositories hparsed key => ?_⟩
  · exact ⟨(reading_parse toLowercase content).entries, nodup_uniqueOwners content,
      mem_uniqueOwners_iff content⟩
  · have hrepos : (buildOwnerRepoMap toLowercase repositories).reposOf key = repositories.filter
        (fun repo => !repo.repository.archived && namesOwner toLowercase key repo) := by
      have hmentions : ∀ repo ∈ repositories.filter (fun r => !r.repository.archived),
          mentions toLowercase key repo = if namesOwner toLowercase key repo then 1 else 0 :=
        fun repo hmem => mentions_of_parsed toLowercase (hparsed repo (List.mem_filter.mp hmem).1)
          key
      rw [reposOf_buildOwnerRepoMap, Tally.repeated_eq_filter hmentions, List.filter_filter]
      simp only [Bool.and_comm]
    refine ⟨hrepos, ?_⟩
    rw [buildOwnerRepoMap_eq_none_iff, hrepos, List.filter_eq_nil_iff]
    refine forall₂_congr fun repo _ => ?_
    cases repo.repository.archived <;> cases namesOwner toLowercase key repo <;> simp

end Owners

/-- A repository with this CODEOWNERS file. -/
def ownedRepository (content : String) : RepositoryEvidence where
  repository := {
    id := "1", nodeId := none, name := "owned", visibility := .public, language := none
    defaultBranch := "main", archived := false, inventoryKey := "1", updatedAt := none
    hasIssues := false, pushedAt := none, createdAt := none, description := none, fork := false
    isEmpty := false, htmlUrl := none, topics := [], licenseSpdx := none }
  checks := {
    securityPolicy := .absent ""
    secretScanning := .disabled none (.noMismatch .orgSummary none) ""
    dependabotSecurityUpdates := ⟨.disabled, none, ""⟩
    branchProtection := .protected "main" ""
    codeowners := .conforming (.parsed (parseCodeowners asciiLowercase content)) "" }
  lastCommit := none
  repoDetailsNotModified := false

theorem parsedByCode_owned (content : String) :
    ParsedByCode asciiLowercase (ownedRepository content) := by
  intro parsed h
  cases h
  exact ⟨content, rfl⟩

/-- Two spellings of a team in one file list the repository once. -/
theorem parseCodeowners_attribution_team :
    (buildOwnerRepoMap asciiLowercase
      [ownedRepository "* @Org/Team # lead\n/doc @org/team"]).reposOf "@org/team" =
      [ownedRepository "* @Org/Team # lead\n/doc @org/team"] := by
  have hparsed : ∀ repo ∈ [ownedRepository "* @Org/Team # lead\n/doc @org/team"],
      ParsedByCode asciiLowercase repo := by
    intro repo hmem
    rw [List.mem_singleton.mp hmem]
    exact parsedByCode_owned _
  have hnames : (!(ownedRepository "* @Org/Team # lead\n/doc @org/team").repository.archived &&
      namesOwner asciiLowercase "@org/team"
        (ownedRepository "* @Org/Team # lead\n/doc @org/team")) = true := by decide +kernel
  rw [((parseCodeowners_attribution asciiLowercase).2 _ hparsed _).1, List.filter_singleton,
    hnames, cond_true]

end GhReport.Collector.Codeowners

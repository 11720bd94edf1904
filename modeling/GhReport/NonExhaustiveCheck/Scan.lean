import GhReport.NonExhaustiveCheck.Cfg
import Mathlib.Data.String.Basic

/-! # The exhaustiveness gate

The gate scans source directories for public error enumerations that are marked as
`non_exhaustive`. What it reports is what no configuration predicate rules out by itself,
so that it misses nothing that some build without tests has.
-/

namespace GhReport.NonExhaustiveCheck

/-! ## Items -/

inductive Visibility where
  | isPublic
  | restricted
  | inherited
deriving DecidableEq

structure ItemEnum where
  vis : Visibility
  attrs : List Attribute
  ident : String

/-- The items of a file; a module in a file of its own has no contents here. -/
inductive Item where
  | enum (item : ItemEnum)
  | module (attrs : List Attribute) (content : Option (List Item))
  | other

mutual

def collectEnums : List Item → List ItemEnum
  | [] => []
  | item :: items => item.collect ++ collectEnums items

def Item.collect : Item → List ItemEnum
  | .enum item => [item]
  | .module attrs content =>
    if attrs.any isCfgDisabledWithoutTest then []
    else
      match content with
      | some items => collectEnums items
      | none => []
  | .other => []

end

/-! ## Files -/

abbrev SourcePath := List String

/-- The entries of a directory; a file that cannot be read or parsed has no items. -/
inductive Entry where
  | file (name : String) (items : Option (List Item))
  | dir (name : String) (entries : List Entry)

/-- What follows the last dot of a name that does not start with it. -/
def isRustFile (name : String) : Bool :=
  name.toList.length > 3 && ['.', 'r', 's'].isSuffixOf name.toList

mutual

def collectRsFiles (path : SourcePath) : List Entry → List (SourcePath × Option (List Item))
  | [] => []
  | entry :: entries => entry.collectRs path ++ collectRsFiles path entries

def Entry.collectRs (path : SourcePath) : Entry → List (SourcePath × Option (List Item))
  | .dir name entries =>
    if name = "target" then [] else collectRsFiles (path ++ [name]) entries
  | .file name items => if isRustFile name then [(path ++ [name], items)] else []

end

/-! ## The gate -/

structure Violation where
  path : SourcePath
  enumName : String
deriving DecidableEq

def Violation.le (v w : Violation) : Bool :=
  v.path < w.path || (v.path = w.path && v.enumName ≤ w.enumName)

structure Summary where
  cratesScanned : ℕ
  enumsScanned : ℕ
  violations : List Violation

inductive Outcome where
  | help
  | panicked
  | finished (summary : Summary)

def Outcome.exitCode : Outcome → ℕ
  | help => 0
  | panicked => 101
  | finished summary => if summary.violations.isEmpty then 0 else 1

section Gate

-- the paths of a list of derives, by their segments
variable (parsePaths : List Token → Option (List (List String)))

def deriveIdents (attr : Attribute) : List String :=
  if attrPathIs attr "derive" then
    match attr.args.bind parsePaths with
    | some paths => paths.filterMap List.getLast?
    | none => []
  else []

def isViolation (item : ItemEnum) : Bool :=
  if item.vis ≠ .isPublic || item.attrs.any isCfgDisabledWithoutTest then false
  else
    let hasNonExhaustive := item.attrs.any (attrPathIs · "non_exhaustive")
    let isErrorType := (item.attrs.flatMap (deriveIdents parsePaths)).any (· = "Error")
    isErrorType && hasNonExhaustive

/-- The enumerations of a file, and its violations. -/
def scanFile (path : SourcePath) (items : List Item) : ℕ × List Violation :=
  let enums := collectEnums items
  (enums.length, (enums.filter (isViolation parsePaths)).map fun item => ⟨path, item.ident⟩)

def scanFiles : List (SourcePath × Option (List Item)) → Option (ℕ × List Violation)
  | [] => some (0, [])
  | (path, items) :: files => do
    let items ← items
    let (enums, violations) := scanFile parsePaths path items
    let (enums', violations') ← scanFiles files
    some (enums + enums', violations ++ violations')

def scanSource (readDir : String → Option (List Entry)) (source : String) :
    Option (ℕ × List Violation) := do
  let entries ← readDir source
  let rsFiles := (collectRsFiles [source] entries).mergeSort fun f g => f.1 ≤ g.1
  if rsFiles.isEmpty then none else scanFiles parsePaths rsFiles

def scanSources (readDir : String → Option (List Entry)) : List String → Option Summary
  | [] => some ⟨0, 0, []⟩
  | source :: sources => do
    let (enums, violations) ← scanSource parsePaths readDir source
    let rest ← scanSources readDir sources
    some ⟨rest.cratesScanned + 1, enums + rest.enumsScanned, violations ++ rest.violations⟩

/-- `readDir` gives the entries of a directory; what is not one has none. -/
def run (readDir : String → Option (List Entry)) (args : List String) : Outcome :=
  if args.any fun a => a = "--help" || a = "-h" then .help
  else if args.isEmpty then .panicked
  else
    match scanSources parsePaths readDir args with
    | some summary =>
      .finished { summary with violations := summary.violations.mergeSort Violation.le }
    | none => .panicked

end Gate

/-! ## What is collected -/

/-- An enumeration, and the attributes of the modules that it is in. -/
inductive Within : List Item → List Attribute → ItemEnum → Prop
  | enum {items : List Item} {e : ItemEnum} (h : .enum e ∈ items) : Within items [] e
  | module {items content : List Item} {attrs guards : List Attribute} {e : ItemEnum}
    (h : .module attrs (some content) ∈ items) (hw : Within content guards e) :
    Within items (attrs ++ guards) e

theorem Within.mono {items items' : List Item} {guards : List Attribute} {e : ItemEnum}
    (h : Within items guards e) (hsub : items ⊆ items') : Within items' guards e := by
  cases h with
  | enum hm => exact .enum (hsub hm)
  | module hm hw => exact .module (hsub hm) hw

theorem mem_collectEnums {items : List Item} {e : ItemEnum} :
    e ∈ collectEnums items ↔ ∃ item ∈ items, e ∈ item.collect := by
  induction items with
  | nil => simp [collectEnums]
  | cons item items ih => simp [collectEnums, ih]

theorem Within.mem_collectEnums {items : List Item} {guards : List Attribute} {e : ItemEnum}
    (h : Within items guards e) (hg : ∀ attr ∈ guards, isCfgDisabledWithoutTest attr = false) :
    e ∈ collectEnums items := by
  induction h with
  | enum hm => exact NonExhaustiveCheck.mem_collectEnums.mpr ⟨_, hm, by simp [Item.collect]⟩
  | module hm hw ih =>
    rename_i attrs guards e
    refine NonExhaustiveCheck.mem_collectEnums.mpr ⟨_, hm, ?_⟩
    have hattrs : attrs.any isCfgDisabledWithoutTest = false :=
      List.any_eq_false.mpr fun attr ha =>
        Bool.eq_false_iff.mp (hg attr (List.mem_append_left _ ha))
    simpa [Item.collect, hattrs] using ih fun attr ha => hg attr (List.mem_append_right _ ha)

mutual

theorem within_of_mem {e : ItemEnum} : ∀ items, e ∈ collectEnums items →
    ∃ guards, Within items guards e ∧ ∀ attr ∈ guards, isCfgDisabledWithoutTest attr = false
  | item :: items, h => by
    rw [collectEnums, List.mem_append] at h
    rcases h with h | h
    · obtain ⟨guards, hw, hg⟩ := item.within_of_mem h
      exact ⟨guards, hw.mono (by simp), hg⟩
    · obtain ⟨guards, hw, hg⟩ := within_of_mem items h
      exact ⟨guards, hw.mono (List.subset_cons_self ..), hg⟩

theorem Item.within_of_mem {e : ItemEnum} : ∀ item : Item, e ∈ item.collect →
    ∃ guards, Within [item] guards e ∧ ∀ attr ∈ guards, isCfgDisabledWithoutTest attr = false
  | .enum item, h => by
    obtain rfl := List.mem_singleton.mp h
    exact ⟨[], .enum (List.mem_singleton_self _), by simp⟩
  | .module attrs (some content), h => by
    rw [Item.collect] at h
    split_ifs at h with hattrs
    · cases h
    · obtain ⟨guards, hw, hg⟩ := NonExhaustiveCheck.within_of_mem content h
      refine ⟨_, .module (List.mem_singleton_self _) hw, fun attr ha => ?_⟩
      rcases List.mem_append.mp ha with ha | ha
      · exact Bool.eq_false_iff.mpr (List.any_eq_false.mp (Bool.eq_false_iff.mpr hattrs) attr ha)
      · exact hg attr ha
  | .module attrs none, h => by
    rw [Item.collect] at h
    split_ifs at h <;> cases h
  | .other, h => by cases h

end

/-- A file of a directory, by the path to it. -/
inductive InDir : List Entry → SourcePath → Option (List Item) → Prop
  | file {entries : List Entry} {name : String} {items : Option (List Item)}
    (h : .file name items ∈ entries) (hrust : isRustFile name = true) : InDir entries [name] items
  | dir {entries inner : List Entry} {name : String} {path : SourcePath}
    {items : Option (List Item)} (h : .dir name inner ∈ entries) (hname : name ≠ "target")
    (hi : InDir inner path items) : InDir entries (name :: path) items

theorem InDir.mono {entries entries' : List Entry} {path : SourcePath} {items : Option (List Item)}
    (h : InDir entries path items) (hsub : entries ⊆ entries') : InDir entries' path items := by
  cases h with
  | file hm hrust => exact .file (hsub hm) hrust
  | dir hm hname hi => exact .dir (hsub hm) hname hi

theorem mem_collectRsFiles {base : SourcePath} {entries : List Entry}
    {file : SourcePath × Option (List Item)} :
    file ∈ collectRsFiles base entries ↔ ∃ entry ∈ entries, file ∈ entry.collectRs base := by
  induction entries with
  | nil => simp [collectRsFiles]
  | cons entry entries ih => simp [collectRsFiles, ih]

theorem InDir.mem_collectRsFiles {entries : List Entry} {path : SourcePath}
    {items : Option (List Item)} (h : InDir entries path items) (base : SourcePath) :
    (base ++ path, items) ∈ collectRsFiles base entries := by
  induction h generalizing base with
  | file hm hrust =>
    exact NonExhaustiveCheck.mem_collectRsFiles.mpr ⟨_, hm, by simp [Entry.collectRs, hrust]⟩
  | dir hm hname hi ih =>
    refine NonExhaustiveCheck.mem_collectRsFiles.mpr ⟨_, hm, ?_⟩
    rename_i name _ _
    simpa [Entry.collectRs, hname] using ih (base ++ [name])

mutual

theorem inDir_of_mem {file : SourcePath × Option (List Item)} : ∀ base entries,
    file ∈ collectRsFiles base entries → ∃ path, file.1 = base ++ path ∧ InDir entries path file.2
  | base, entry :: entries, h => by
    rw [collectRsFiles, List.mem_append] at h
    rcases h with h | h
    · obtain ⟨path, hpath, hin⟩ := entry.inDir_of_mem base h
      exact ⟨path, hpath, hin.mono (by simp)⟩
    · obtain ⟨path, hpath, hin⟩ := inDir_of_mem base entries h
      exact ⟨path, hpath, hin.mono (List.subset_cons_self ..)⟩

theorem Entry.inDir_of_mem {file : SourcePath × Option (List Item)} (base : SourcePath) :
    ∀ entry : Entry, file ∈ entry.collectRs base →
      ∃ path, file.1 = base ++ path ∧ InDir [entry] path file.2
  | .dir name entries, h => by
    rw [Entry.collectRs] at h
    split_ifs at h with hname
    · cases h
    · obtain ⟨path, hpath, hin⟩ := NonExhaustiveCheck.inDir_of_mem (base ++ [name]) entries h
      exact ⟨name :: path, by simpa using hpath, .dir (List.mem_singleton_self _) hname hin⟩
  | .file name items, h => by
    rw [Entry.collectRs] at h
    split_ifs at h with hrust
    · obtain rfl := List.mem_singleton.mp h
      exact ⟨[name], rfl, .file (List.mem_singleton_self _) hrust⟩
    · cases h

end

/-! ## What is reported -/

section Report

variable {parsePaths : List Token → Option (List (List String))}

/-- No predicate of the attributes is certain to be false without tests, each taken on its own. -/
def MayStand (attrs : List Attribute) : Prop :=
  ∀ attr ∈ attrs, ∀ p, attr.IsCfg p → CanBe p true

variable (parsePaths) in
/-- A public error enumeration that is not exhaustive, by the attributes that are written on it. -/
structure Marked (e : ItemEnum) : Prop where
  isPublic : e.vis = .isPublic
  hasNonExhaustive : ∃ attr ∈ e.attrs, attr.path = ["non_exhaustive"]
  isErrorType : ∃ attr ∈ e.attrs, "Error" ∈ deriveIdents parsePaths attr

variable (parsePaths) in
/-- One that no predicate, of its own or of its modules, rules out. -/
structure Offends (guards : List Attribute) (e : ItemEnum) : Prop extends
    Marked parsePaths e where
  mayStand : MayStand (guards ++ e.attrs)

theorem isCfgDisabled_eq_false_iff {attr : Attribute} :
    isCfgDisabledWithoutTest attr = false ↔ ∀ p, attr.IsCfg p → CanBe p true := by
  rw [← Bool.not_eq_true, isCfgDisabledWithoutTest_iff]
  simp only [not_exists, not_and, not_not]

theorem any_isCfgDisabled_iff {attrs : List Attribute} :
    attrs.any isCfgDisabledWithoutTest = false ↔ MayStand attrs := by
  rw [List.any_eq_false]
  exact forall₂_congr fun attr _ => by rw [Bool.not_eq_true, isCfgDisabled_eq_false_iff]

theorem isViolation_iff {e : ItemEnum} : isViolation parsePaths e = true ↔
    Marked parsePaths e ∧ MayStand e.attrs := by
  have hcond : (decide (e.vis ≠ .isPublic) || e.attrs.any isCfgDisabledWithoutTest) = false ↔
      e.vis = .isPublic ∧ MayStand e.attrs := by
    rw [Bool.or_eq_false_iff, any_isCfgDisabled_iff, decide_eq_false_iff_not, not_not]
  have hmarks : (((e.attrs.flatMap (deriveIdents parsePaths)).any (· = "Error")) &&
      e.attrs.any (attrPathIs · "non_exhaustive")) = true ↔
      (∃ attr ∈ e.attrs, attr.path = ["non_exhaustive"]) ∧
        ∃ attr ∈ e.attrs, "Error" ∈ deriveIdents parsePaths attr := by
    simp [attrPathIs, and_comm]
  have hiff : Marked parsePaths e ∧ MayStand e.attrs ↔ (e.vis = .isPublic ∧ MayStand e.attrs) ∧
      (∃ attr ∈ e.attrs, attr.path = ["non_exhaustive"]) ∧
        ∃ attr ∈ e.attrs, "Error" ∈ deriveIdents parsePaths attr :=
    ⟨fun h => ⟨⟨h.1.isPublic, h.2⟩, h.1.hasNonExhaustive, h.1.isErrorType⟩,
      fun h => ⟨⟨h.1.1, h.2.1, h.2.2⟩, h.1.2⟩⟩
  unfold isViolation
  rw [hiff, ← hcond, ← hmarks]
  split_ifs with h
  · rw [h]
    exact ⟨fun h => (by cases h), fun h => (by cases h.1)⟩
  · rw [Bool.not_eq_true] at h
    rw [h]
    exact ⟨fun hmarks => ⟨rfl, hmarks⟩, And.right⟩

theorem mem_scanFile_iff {path : SourcePath} {items : List Item} {v : Violation} :
    v ∈ (scanFile parsePaths path items).2 ↔ v.path = path ∧
      ∃ guards e, Within items guards e ∧ Offends parsePaths guards e ∧ v.enumName = e.ident := by
  simp only [scanFile, List.mem_map, List.mem_filter, isViolation_iff]
  constructor
  · rintro ⟨e, ⟨hmem, hmarked, hown⟩, rfl⟩
    obtain ⟨guards, hw, hg⟩ := within_of_mem items hmem
    refine ⟨rfl, guards, e, hw, ⟨hmarked, fun attr ha => ?_⟩, rfl⟩
    rcases List.mem_append.mp ha with ha | ha
    · exact isCfgDisabled_eq_false_iff.mp (hg attr ha)
    · exact hown attr ha
  · rintro ⟨rfl, guards, e, hw, ⟨hmarked, hstand⟩, hname⟩
    have hmem : e ∈ collectEnums items := hw.mem_collectEnums fun attr ha =>
      isCfgDisabled_eq_false_iff.mpr (hstand attr (List.mem_append_left _ ha))
    exact ⟨e, ⟨hmem, hmarked, fun attr ha => hstand attr (List.mem_append_right _ ha)⟩,
      by rw [← hname]⟩

theorem mem_scanFiles_iff {files : List (SourcePath × Option (List Item))} {enums : ℕ}
    {violations : List Violation} (h : scanFiles parsePaths files = some (enums, violations))
    {v : Violation} : v ∈ violations ↔
      ∃ path items, (path, some items) ∈ files ∧ v ∈ (scanFile parsePaths path items).2 := by
  induction files generalizing enums violations with
  | nil =>
    cases h
    simp
  | cons file files ih =>
    obtain ⟨path, items⟩ := file
    simp only [scanFiles, Option.bind_eq_bind, Option.bind_eq_some_iff] at h
    obtain ⟨items', rfl, ⟨enums', violations'⟩, hrest, h⟩ := h
    cases h
    rw [List.mem_append, ih hrest]
    simp only [List.mem_cons, Prod.mk.injEq, Option.some.injEq]
    constructor
    · rintro (hv | ⟨path', items'', hm, hv⟩)
      · exact ⟨path, items', .inl ⟨rfl, rfl⟩, hv⟩
      · exact ⟨path', items'', .inr hm, hv⟩
    · rintro ⟨path', items'', ⟨rfl, rfl⟩ | hm, hv⟩
      · exact .inl hv
      · exact .inr ⟨path', items'', hm, hv⟩

/-- An enumeration of a file below a source directory, with the modules that it is in. -/
def Declares (readDir : String → Option (List Entry)) (source : String) (path : SourcePath)
    (guards : List Attribute) (e : ItemEnum) : Prop :=
  ∃ entries items, readDir source = some entries ∧ InDir entries path (some items) ∧
    Within items guards e

variable (parsePaths) in
/-- A violation of a file below a source directory. -/
def Found (readDir : String → Option (List Entry)) (source : String) (v : Violation) : Prop :=
  ∃ path guards e, Declares readDir source path guards e ∧ Offends parsePaths guards e ∧
    v = ⟨source :: path, e.ident⟩

variable {readDir : String → Option (List Entry)}

theorem mem_scanSource_iff {source : String} {enums : ℕ} {violations : List Violation}
    (h : scanSource parsePaths readDir source = some (enums, violations)) {v : Violation} :
    v ∈ violations ↔ Found parsePaths readDir source v := by
  simp only [scanSource, Option.bind_eq_bind, Option.bind_eq_some_iff] at h
  obtain ⟨entries, hread, h⟩ := h
  split_ifs at h
  rw [mem_scanFiles_iff h]
  simp only [List.mem_mergeSort, mem_scanFile_iff]
  constructor
  · rintro ⟨path, items, hm, hpath, guards, e, hw, hoffends, hname⟩
    obtain ⟨path', hpath', hin⟩ := inDir_of_mem _ _ hm
    obtain ⟨vpath, vname⟩ := v
    obtain rfl : vpath = source :: path' := hpath.trans hpath'
    obtain rfl : vname = e.ident := hname
    exact ⟨path', guards, e, ⟨entries, items, hread, hin, hw⟩, hoffends, rfl⟩
  · rintro ⟨path, guards, e, ⟨entries', items, hread', hin, hw⟩, hoffends, rfl⟩
    obtain rfl : entries = entries' := Option.some.inj (hread.symm.trans hread')
    exact ⟨source :: path, items, hin.mem_collectRsFiles [source], rfl, guards, e, hw, hoffends,
      rfl⟩

theorem mem_scanSources_iff {sources : List String} {summary : Summary}
    (h : scanSources parsePaths readDir sources = some summary) {v : Violation} :
    v ∈ summary.violations ↔ ∃ source ∈ sources, Found parsePaths readDir source v := by
  induction sources generalizing summary with
  | nil =>
    cases h
    simp
  | cons source sources ih =>
    simp only [scanSources, Option.bind_eq_bind, Option.bind_eq_some_iff] at h
    obtain ⟨⟨enums, violations⟩, hsource, rest, hrest, h⟩ := h
    cases h
    rw [List.mem_append, mem_scanSource_iff hsource, ih hrest, List.exists_mem_cons_iff]

/-- What the gate reports is what no predicate rules out. -/
theorem run_violations_iff {args : List String} {summary : Summary}
    (h : run parsePaths readDir args = .finished summary) (v : Violation) :
    v ∈ summary.violations ↔ ∃ source ∈ args, Found parsePaths readDir source v := by
  unfold run at h
  split_ifs at h
  cases hscan : scanSources parsePaths readDir args with
  | none => simp [hscan] at h
  | some scanned =>
    simp only [hscan, Outcome.finished.injEq] at h
    subst h
    rw [List.mem_mergeSort]
    exact mem_scanSources_iff hscan

/-- An enumeration with its modules is part of a build. -/
def Configuration.Builds (c : Configuration) (guards : List Attribute) (e : ItemEnum) : Prop :=
  ∀ attr ∈ guards ++ e.attrs, attr.path = ["cfg"] → ∃ p, attr.IsCfg p ∧ c.eval p = true

theorem Configuration.Builds.mayStand {c : Configuration} {guards : List Attribute} {e : ItemEnum}
    (h : c.Builds guards e) : MayStand (guards ++ e.attrs) := by
  intro attr ha p hp
  obtain ⟨p', hp', heval⟩ := h attr ha hp.1
  exact hp'.canBe_true hp (heval ▸ c.canBe_eval p')

/--
A gate that ends well has missed nothing: in no build without tests is there a public error
enumeration that is not exhaustive in a file that was scanned.
-/
theorem not_builds_of_exitCode_zero {args : List String}
    (hargs : ∀ a ∈ args, a ≠ "--help" ∧ a ≠ "-h")
    (h : (run parsePaths readDir args).exitCode = 0) {source : String} (hs : source ∈ args)
    {path : SourcePath} {guards : List Attribute} {e : ItemEnum}
    (hd : Declares readDir source path guards e) (hm : Marked parsePaths e) (c : Configuration) :
    ¬ c.Builds guards e := by
  intro hbuilds
  have hfound : Found parsePaths readDir source ⟨source :: path, e.ident⟩ :=
    ⟨path, guards, e, hd, ⟨hm, hbuilds.mayStand⟩, rfl⟩
  cases hrun : run parsePaths readDir args with
  | help =>
    have hhelp : args.any (fun a => a = "--help" || a = "-h") = false :=
      List.any_eq_false.mpr fun a ha => by simp [hargs a ha]
    rw [run, if_neg (by rw [hhelp]; exact Bool.false_ne_true)] at hrun
    split_ifs at hrun
    split at hrun <;> cases hrun
  | panicked =>
    rw [hrun] at h
    cases h
  | finished summary =>
    have hmem := (run_violations_iff hrun _).mpr ⟨source, hs, hfound⟩
    have hempty : summary.violations = [] := by
      by_contra hne
      simp [hrun, Outcome.exitCode, hne] at h
    rw [hempty] at hmem
    cases hmem

end Report

/-! ## An enumeration of errors in a module for tests -/

/-- A path of two segments. -/
def samplePaths : List Token → Option (List (List String))
  | [.ident _ scope, .other, .other, .ident _ name] => some [[scope, name]]
  | _ => none

def sampleError : ItemEnum where
  vis := .isPublic
  attrs :=
    [⟨["derive"], some [.ident false "thiserror", .other, .other, .ident false "Error"]⟩,
      ⟨["non_exhaustive"], none⟩]
  ident := "ParseError"

def cfgTest : Attribute := ⟨["cfg"], some [.ident false "test"]⟩

/-- The enumeration in a module with these attributes. -/
def sampleItems (guards : List Attribute) : List Item :=
  [.module guards (some [.enum sampleError])]

def sampleDir (guards : List Attribute) (source : String) : Option (List Entry) :=
  if source = "src" then some [.file "lib.rs" (some (sampleItems guards))] else none

theorem run_sampleDir (guards : List Attribute) {enums : ℕ} {violations : List Violation}
    (h : scanFile samplePaths ["src", "lib.rs"] (sampleItems guards) = (enums, violations)) :
    run samplePaths (sampleDir guards) ["src"] =
      .finished ⟨1, enums, violations.mergeSort Violation.le⟩ := by
  have hfiles : collectRsFiles ["src"] [.file "lib.rs" (some (sampleItems guards))] =
      [(["src", "lib.rs"], some (sampleItems guards))] := rfl
  simp [run, scanSources, scanSource, scanFiles, sampleDir, hfiles, h]

theorem declares_sampleDir (guards : List Attribute) :
    Declares (sampleDir guards) "src" ["lib.rs"] (guards ++ []) sampleError :=
  ⟨_, _, rfl, .file (List.mem_singleton_self _) rfl,
    .module (List.mem_singleton_self _) (.enum (List.mem_singleton_self _))⟩

theorem marked_sampleError : Marked samplePaths sampleError :=
  ⟨rfl, ⟨_, List.mem_cons_of_mem _ (List.mem_singleton_self _), rfl⟩,
    ⟨_, List.mem_cons_self .., List.mem_singleton_self _⟩⟩

theorem run_violations_iff_unguarded :
    ∃ source ∈ ["src"],
      Found samplePaths (sampleDir []) source ⟨["src", "lib.rs"], "ParseError"⟩ := by
  have hscan : scanFile samplePaths ["src", "lib.rs"] (sampleItems []) =
      (1, [⟨["src", "lib.rs"], "ParseError"⟩]) := rfl
  exact (run_violations_iff (run_sampleDir [] hscan) _).mp (by simp)

/-- The options of a build without features. -/
def plainBuild : Configuration := ⟨fun _ => false, fun _ _ => false, rfl⟩

theorem not_builds_of_exitCode_zero_guarded : ¬ plainBuild.Builds [cfgTest] sampleError := by
  have hscan : scanFile samplePaths ["src", "lib.rs"] (sampleItems [cfgTest]) = (0, []) := rfl
  refine not_builds_of_exitCode_zero (by decide) ?_ (List.mem_singleton_self _)
    (declares_sampleDir [cfgTest]) marked_sampleError plainBuild
  rw [run_sampleDir [cfgTest] hscan, List.mergeSort_nil]
  rfl

end GhReport.NonExhaustiveCheck

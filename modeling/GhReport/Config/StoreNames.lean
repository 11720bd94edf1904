import GhReport.Event.TeamKey
import Mathlib.Data.List.Basic

/-! # Names of the event stores

The stores of an organisation share a server with those of others. Their names spell the
organisation byte for byte, and say what is kept in them, so no two stores are mixed up.
-/

namespace GhReport.Config

open Event (hexByte hexDigit)

inductive ConfigError where
  | missingField (field : String)
deriving DecidableEq

/-- A locator is the tokens that it was made from; its stem is the library's. -/
structure NatsStoreConfig where
  natsUrl : String
  streamName : String
  locator : List String
  subject : String
  durableConsumer : String
  credentialsPath : Option String

def evidenceSchemaMajor : String := "v25"

def orgToken (bytes : List UInt8) : String := "org_" ++ String.ofList (bytes.flatMap hexByte)

def stripSuffix (text post : String) : Option String :=
  if post.toList.isSuffixOf text.toList then
    some (String.ofList (text.toList.take (text.toList.length - post.toList.length)))
  else none

namespace NatsStoreConfig

variable (streamStem : List String → String)

def forOrg (orgName natsUrl : String) : Except ConfigError NatsStoreConfig :=
  if orgName.isEmpty then .error (.missingField "org_name")
  else
    let token := orgToken orgName.toUTF8.data.toList
    let locator := ["gh-report", token, evidenceSchemaMajor]
    .ok
      { natsUrl := natsUrl
        streamName := streamStem locator
        locator := locator
        subject := "gh-report." ++ token ++ "." ++ evidenceSchemaMajor ++ ".events"
        durableConsumer := "gh-report-" ++ token ++ "-" ++ evidenceSchemaMajor
        credentialsPath := none }

/-- The store of the events of one kind, beside that of the repositories. -/
def childEvents (child : String) (c : NatsStoreConfig) : NatsStoreConfig :=
  let locator := c.locator ++ [child]
  { natsUrl := c.natsUrl
    streamName := streamStem locator
    locator := locator
    subject :=
      match stripSuffix c.subject ".events" with
      | none => c.subject ++ "." ++ child ++ ".events"
      | some base => base ++ "." ++ child ++ ".events"
    durableConsumer := c.durableConsumer ++ "-" ++ child
    credentialsPath := c.credentialsPath }

def orgEvents (c : NatsStoreConfig) : NatsStoreConfig := childEvents streamStem "org" c

def teamEvents (c : NatsStoreConfig) : NatsStoreConfig := childEvents streamStem "team" c

end NatsStoreConfig

/-! ## Derived stores -/

inductive StoreKind where
  | org
  | team
deriving DecidableEq

def StoreKind.name : StoreKind → String
  | org => "org"
  | team => "team"

theorem StoreKind.name_injective : Function.Injective StoreKind.name := by
  intro kind kind' h
  cases kind <;> cases kind'
  · rfl
  · exact absurd h (by decide)
  · exact absurd h (by decide)
  · rfl

/-- The store that is reached by deriving one after the other. -/
def derived (streamStem : List String → String) (kinds : List StoreKind) (c : NatsStoreConfig) :
    NatsStoreConfig :=
  kinds.foldl (fun c kind =>
    match kind with
    | .org => c.orgEvents streamStem
    | .team => c.teamEvents streamStem) c

theorem derived_cons {streamStem : List String → String} (kind : StoreKind)
    (kinds : List StoreKind) (c : NatsStoreConfig) :
    derived streamStem (kind :: kinds) c =
      derived streamStem kinds (c.childEvents streamStem kind.name) := by
  cases kind <;> rfl

/-! ## Names apart -/

/-- Each kind in turn, behind a separator. -/
def spelledKinds (sep : Char) (kinds : List StoreKind) : List Char :=
  kinds.flatMap fun kind => sep :: kind.name.toList

/-- What a name goes on with after its kinds is told from a further kind. -/
theorem spelledKinds_injective {sep : Char} {post : List Char}
    (hpost : post = [] ∨ ∃ rest, post = sep :: 'e' :: rest) {kinds kinds' : List StoreKind}
    (h : spelledKinds sep kinds ++ post = spelledKinds sep kinds' ++ post) : kinds = kinds' := by
  induction kinds generalizing kinds' with
  | nil =>
    cases kinds' with
    | nil => rfl
    | cons kind kinds' =>
      obtain rfl | ⟨rest, rfl⟩ := hpost <;> cases kind <;> cases h
  | cons kind kinds ih =>
    cases kinds' with
    | nil => obtain rfl | ⟨rest, rfl⟩ := hpost <;> cases kind <;> cases h
    | cons kind' kinds' =>
      cases kind <;> cases kind' <;>
        simp only [spelledKinds, List.flatMap_cons, StoreKind.name] at h
      · rw [ih (List.append_cancel_left ((List.append_assoc ..).symm.trans
          (h.trans (List.append_assoc ..))))]
      · cases h
      · cases h
      · rw [ih (List.append_cancel_left ((List.append_assoc ..).symm.trans
          (h.trans (List.append_assoc ..))))]

theorem eq_of_append_sep {sep : Char} {xs ys rest rest' : List Char} (hxs : sep ∉ xs)
    (hys : sep ∉ ys) (h : xs ++ sep :: rest = ys ++ sep :: rest') : xs = ys ∧ rest = rest' := by
  induction xs generalizing ys with
  | nil =>
    cases ys with
    | nil => exact ⟨rfl, (List.cons.inj h).2⟩
    | cons y ys =>
      obtain rfl := (List.cons.inj h).1
      exact absurd (List.mem_cons_self ..) hys
  | cons x xs ih =>
    cases ys with
    | nil =>
      obtain rfl := (List.cons.inj h).1
      exact absurd (List.mem_cons_self ..) hxs
    | cons y ys =>
      obtain ⟨rfl, htail⟩ := List.cons.inj h
      obtain ⟨rfl, rfl⟩ := ih (List.not_mem_of_not_mem_cons hxs)
        (List.not_mem_of_not_mem_cons hys) htail
      exact ⟨rfl, rfl⟩

theorem orgToken_no_sep (bytes : List UInt8) :
    '.' ∉ (orgToken bytes).toList ∧ '-' ∉ (orgToken bytes).toList := by
  have hdot : ∀ c ∈ bytes.flatMap hexByte, c ≠ '.' :=
    Event.forall_mem_flatMap_hexByte (by decide) bytes
  have hdash : ∀ c ∈ bytes.flatMap hexByte, c ≠ '-' :=
    Event.forall_mem_flatMap_hexByte (by decide) bytes
  simp only [orgToken, String.toList_append, String.toList_ofList]
  constructor
  · intro h
    rcases List.mem_append.mp h with h | h
    · revert h
      decide
    · exact hdot _ h rfl
  · intro h
    rcases List.mem_append.mp h with h | h
    · revert h
      decide
    · exact hdash _ h rfl

theorem orgToken_injective {orgName orgName' : String}
    (h : (orgToken orgName.toUTF8.data.toList).toList =
      (orgToken orgName'.toUTF8.data.toList).toList) : orgName = orgName' := by
  simp only [orgToken, String.toList_append, String.toList_ofList, List.append_cancel_left_eq] at h
  have hbytes := Event.flatMap_hexByte_injective h
  exact String.toByteArray_inj.mp (ByteArray.ext (Array.toList_inj.mp hbytes))

/-- A name of a store: its organisation, then the schema, and the kinds it was derived by. -/
theorem name_injective {sep : Char} {pre mid post : List Char} {orgName orgName' : String}
    {kinds kinds' : List StoreKind} (hsep : sep = '.' ∨ sep = '-')
    (hpost : post = [] ∨ ∃ rest, post = sep :: 'e' :: rest)
    (h : pre ++ ((orgToken orgName.toUTF8.data.toList).toList ++
        sep :: (mid ++ (spelledKinds sep kinds ++ post))) =
      pre ++ ((orgToken orgName'.toUTF8.data.toList).toList ++
        sep :: (mid ++ (spelledKinds sep kinds' ++ post)))) :
    orgName = orgName' ∧ kinds = kinds' := by
  have hfree : ∀ bytes, sep ∉ (orgToken bytes).toList := fun bytes => by
    rcases hsep with rfl | rfl
    · exact (orgToken_no_sep bytes).1
    · exact (orgToken_no_sep bytes).2
  obtain ⟨htoken, hrest⟩ := eq_of_append_sep (hfree _) (hfree _) (List.append_cancel_left h)
  exact ⟨orgToken_injective htoken,
    spelledKinds_injective hpost (List.append_cancel_left hrest)⟩

/-! ## Names as they are spelled -/

theorem stripSuffix_append (base post : String) : stripSuffix (base ++ post) post = some base := by
  have hsuffix : post.toList.isSuffixOf (base.toList ++ post.toList) = true :=
    List.isSuffixOf_iff_suffix.mpr (List.suffix_append ..)
  rw [stripSuffix, String.toList_append, if_pos hsuffix, List.length_append, Nat.add_sub_cancel,
    List.take_left, String.ofList_toList]

theorem subject_derived {streamStem : List String → String} (kinds : List StoreKind)
    {c : NatsStoreConfig} {base : String} (h : c.subject = base ++ ".events") :
    (derived streamStem kinds c).subject.toList =
      base.toList ++ (spelledKinds '.' kinds ++ ".events".toList) := by
  induction kinds generalizing c base with
  | nil =>
    rw [derived, List.foldl_nil, h, String.toList_append]
    rfl
  | cons kind kinds ih =>
    have hchild : (c.childEvents streamStem kind.name).subject =
        base ++ "." ++ kind.name ++ ".events" := by
      rw [NatsStoreConfig.childEvents, h, stripSuffix_append]
    rw [derived_cons, ih hchild, String.toList_append, String.toList_append, spelledKinds,
      spelledKinds, List.flatMap_cons]
    simp

theorem durableConsumer_derived {streamStem : List String → String} (kinds : List StoreKind)
    (c : NatsStoreConfig) :
    (derived streamStem kinds c).durableConsumer.toList =
      c.durableConsumer.toList ++ spelledKinds '-' kinds := by
  induction kinds generalizing c with
  | nil => exact (List.append_nil _).symm
  | cons kind kinds ih =>
    rw [derived_cons, ih, NatsStoreConfig.childEvents, spelledKinds, spelledKinds,
      List.flatMap_cons]
    simp

theorem locator_derived {streamStem : List String → String} (kinds : List StoreKind)
    (c : NatsStoreConfig) :
    (derived streamStem kinds c).locator = c.locator ++ kinds.map StoreKind.name := by
  induction kinds generalizing c with
  | nil => exact (List.append_nil _).symm
  | cons kind kinds ih =>
    rw [derived_cons, ih, NatsStoreConfig.childEvents, List.map_cons]
    simp

/-! ## No two stores -/

/-- The names of the store of the repositories of an organisation. -/
theorem forOrg_names {streamStem : List String → String} {orgName natsUrl : String}
    {c : NatsStoreConfig} (h : NatsStoreConfig.forOrg streamStem orgName natsUrl = .ok c) :
    c.subject = "gh-report." ++ orgToken orgName.toUTF8.data.toList ++ "." ++
        evidenceSchemaMajor ++ ".events" ∧
      c.durableConsumer = "gh-report-" ++ orgToken orgName.toUTF8.data.toList ++ "-" ++
        evidenceSchemaMajor ∧
      c.locator = ["gh-report", orgToken orgName.toUTF8.data.toList, evidenceSchemaMajor] := by
  unfold NatsStoreConfig.forOrg at h
  split_ifs at h
  cases h
  exact ⟨rfl, rfl, rfl⟩

/--
Whatever the organisations are called, and however the stores are derived: two stores
share a subject, a consumer or a locator only if they are of one organisation and kind.
-/
theorem derived_names_injective {streamStem : List String → String}
    {orgName orgName' natsUrl natsUrl' : String} {c c' : NatsStoreConfig}
    (h : NatsStoreConfig.forOrg streamStem orgName natsUrl = .ok c)
    (h' : NatsStoreConfig.forOrg streamStem orgName' natsUrl' = .ok c')
    (kinds kinds' : List StoreKind) :
    let store := derived streamStem kinds c
    let store' := derived streamStem kinds' c'
    (store.subject = store'.subject ↔ orgName = orgName' ∧ kinds = kinds') ∧
      (store.durableConsumer = store'.durableConsumer ↔ orgName = orgName' ∧ kinds = kinds') ∧
      (store.locator = store'.locator ↔ orgName = orgName' ∧ kinds = kinds') := by
  intro store store'
  obtain ⟨hsubject, hconsumer, hlocator⟩ := forOrg_names h
  obtain ⟨hsubject', hconsumer', hlocator'⟩ := forOrg_names h'
  have hsame : orgName = orgName' ∧ kinds = kinds' → store.subject = store'.subject ∧
      store.durableConsumer = store'.durableConsumer ∧ store.locator = store'.locator := by
    rintro ⟨rfl, rfl⟩
    refine ⟨?_, ?_, ?_⟩
    · rw [← String.toList_inj, subject_derived kinds hsubject, subject_derived kinds hsubject']
    · rw [← String.toList_inj, durableConsumer_derived, durableConsumer_derived, hconsumer,
        hconsumer']
    · rw [locator_derived, locator_derived, hlocator, hlocator']
  refine ⟨⟨fun heq => ?_, fun heq => (hsame heq).1⟩,
    ⟨fun heq => ?_, fun heq => (hsame heq).2.1⟩, ⟨fun heq => ?_, fun heq => (hsame heq).2.2⟩⟩
  · rw [← String.toList_inj, subject_derived kinds hsubject,
      subject_derived kinds' hsubject'] at heq
    simp only [String.toList_append, List.append_assoc] at heq
    exact name_injective (.inl rfl) (.inr ⟨_, rfl⟩) heq
  · rw [← String.toList_inj, durableConsumer_derived, durableConsumer_derived, hconsumer,
      hconsumer'] at heq
    simp only [String.toList_append, List.append_assoc] at heq
    rw [← List.append_nil (spelledKinds '-' kinds), ← List.append_nil (spelledKinds '-' kinds')]
      at heq
    exact name_injective (.inr rfl) (.inl rfl) heq
  · rw [locator_derived, locator_derived, hlocator, hlocator'] at heq
    simp only [List.cons_append, List.nil_append, List.cons.injEq, true_and] at heq
    exact ⟨orgToken_injective (congrArg String.toList heq.1),
      List.map_injective_iff.mpr StoreKind.name_injective heq.2⟩

/-- A dot in the name of an organisation is not one of the dots of a store's. -/
theorem derived_names_injective_dot :
    let stem := fun tokens => "-".intercalate tokens
    ∃ c c', NatsStoreConfig.forOrg stem "a" "nats" = .ok c ∧
      NatsStoreConfig.forOrg stem "a.org" "nats" = .ok c' ∧
        (derived stem [.org] c).subject ≠ c'.subject := by
  intro stem
  refine ⟨_, _, rfl, rfl, fun heq => ?_⟩
  have hsame := (@derived_names_injective stem "a" "a.org" "nats" "nats" _ _ rfl rfl
    [.org] []).1.mp heq
  cases hsame.2

end GhReport.Config

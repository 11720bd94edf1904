import Mathlib.Data.List.Forall2

/-! # Configuration predicates of the exhaustiveness gate

The gate skips what is provably configured out of a build without tests. It computes
the truth of a predicate while it reads the tokens of the attribute.
-/

namespace GhReport.NonExhaustiveCheck

/-! ## Reading a predicate -/

inductive CfgTruth where
  | false
  | true
  | unknown
deriving DecidableEq

/-- The tokens of an attribute's arguments; a `group` is what stands in parentheses. -/
inductive Token where
  | ident (raw : Bool) (name : String)
  | eq
  | comma
  | str (value : String)
  | other
  | group (tokens : List Token)

/-- A predicate up to its list, the tokens of which are still to be read. -/
inductive CfgHead where
  | known (value : CfgTruth)
  | list (name : String) (tokens : List Token)

def isLitBool (raw : Bool) (name : String) : Bool :=
  !raw && (name = "true" || name = "false")

def CfgHead.read : List Token → Option (CfgHead × List Token)
  | .ident raw name :: rest =>
    if isLitBool raw name then
      some (.known (if name = "true" then .true else .false), rest)
    else
      match rest with
      | .eq :: .str _ :: rest => some (.known .unknown, rest)
      | .eq :: _ => none
      | .group tokens :: rest => some (.list name tokens, rest)
      | rest => some (.known (if name = "test" then .false else .unknown), rest)
  | _ => none

namespace CfgTruth

def all (values : List CfgTruth) : CfgTruth :=
  if .false ∈ values then .false else if .unknown ∈ values then .unknown else .true

def any (values : List CfgTruth) : CfgTruth :=
  if .true ∈ values then .true else if .unknown ∈ values then .unknown else .false

def not : CfgTruth → CfgTruth
  | false => true
  | true => false
  | unknown => unknown

theorem all_eq_false_iff {values : List CfgTruth} : all values = false ↔ false ∈ values := by
  unfold all
  split_ifs <;> simp_all

theorem all_eq_true_iff {values : List CfgTruth} :
    all values = true ↔ ∀ v ∈ values, v = true := by
  unfold all
  split_ifs with hfalse hunknown
  · exact ⟨fun h => (by cases h), fun h => (by cases h _ hfalse)⟩
  · exact ⟨fun h => (by cases h), fun h => (by cases h _ hunknown)⟩
  · refine ⟨fun _ v hv => ?_, fun _ => rfl⟩
    cases v with
    | true => rfl
    | false => exact absurd hv hfalse
    | unknown => exact absurd hv hunknown

theorem any_eq_true_iff {values : List CfgTruth} : any values = true ↔ true ∈ values := by
  unfold any
  split_ifs <;> simp_all

theorem any_eq_false_iff {values : List CfgTruth} :
    any values = false ↔ ∀ v ∈ values, v = false := by
  unfold any
  split_ifs with htrue hunknown
  · exact ⟨fun h => (by cases h), fun h => (by cases h _ htrue)⟩
  · exact ⟨fun h => (by cases h), fun h => (by cases h _ hunknown)⟩
  · refine ⟨fun _ v hv => ?_, fun _ => rfl⟩
    cases v with
    | false => rfl
    | true => exact absurd hv htrue
    | unknown => exact absurd hv hunknown

def ofList (name : String) (values : List CfgTruth) : Option CfgTruth :=
  if name = "all" then some (all values)
  else if name = "any" then some (any values)
  else
    match values with
    | [value] => if name = "not" then some value.not else none
    | _ => none

end CfgTruth

theorem CfgHead.sizeOf_read {tokens rest : List Token} {head : CfgHead}
    (h : read tokens = some (head, rest)) :
    sizeOf rest < sizeOf tokens ∧
      ∀ name inner, head = .list name inner → sizeOf inner < sizeOf tokens := by
  unfold read at h
  split at h
  · simp only [List.cons.sizeOf_spec]
    split at h
    · cases h
      exact ⟨by omega, by rintro _ _ ⟨⟩⟩
    · split at h
      · cases h
        exact ⟨by simp only [List.cons.sizeOf_spec]; omega, by rintro _ _ ⟨⟩⟩
      · cases h
      · cases h
        simp only [List.cons.sizeOf_spec, Token.group.sizeOf_spec]
        refine ⟨by omega, ?_⟩
        rintro _ _ ⟨⟩
        omega
      · cases h
        exact ⟨by omega, by rintro _ _ ⟨⟩⟩
  · cases h

/-- The elements of a list, with commas between them and perhaps one after the last. -/
def parseTerminated (tokens : List Token) : Option (List CfgTruth) :=
  if tokens.isEmpty then some []
  else
    match _h : CfgHead.read tokens with
    | none => none
    | some (head, rest) => do
      let value ← match _hhead : head with
        | .known value => some value
        | .list name inner => do CfgTruth.ofList name (← parseTerminated inner)
      match _hrest : rest with
      | [] => some [value]
      | .comma :: rest => do some (value :: (← parseTerminated rest))
      | _ => none
termination_by sizeOf tokens
decreasing_by
  · have := (CfgHead.sizeOf_read _h).1
    rw [_hrest, List.cons.sizeOf_spec] at this
    omega
  · exact (CfgHead.sizeOf_read _h).2 name inner _hhead

def CfgTruth.parse (tokens : List Token) : Option (CfgTruth × List Token) := do
  let (head, rest) ← CfgHead.read tokens
  let value ← match head with
    | .known value => some value
    | .list name inner => do CfgTruth.ofList name (← parseTerminated inner)
  some (value, rest)

/-- The loop over the elements calls the parser of one. -/
theorem parseTerminated_eq {tokens : List Token} (h : tokens ≠ []) :
    parseTerminated tokens = (do
      let (value, rest) ← CfgTruth.parse tokens
      match rest with
      | [] => some [value]
      | .comma :: rest => do some (value :: (← parseTerminated rest))
      | _ => none) := by
  rw [parseTerminated, if_neg (by simpa using h), CfgTruth.parse]
  cases hread : CfgHead.read tokens with
  | none => rfl
  | some read =>
    obtain ⟨head, rest⟩ := read
    cases head with
    | known value =>
      rcases rest with _ | ⟨token, rest⟩
      · rfl
      · cases token <;> rfl
    | list name inner =>
      cases hvalues : parseTerminated inner with
      | none => simp [hvalues]
      | some values =>
        cases hvalue : CfgTruth.ofList name values with
        | none => simp [hvalues, hvalue]
        | some value =>
          rcases rest with _ | ⟨token, rest⟩
          · simp [hvalues, hvalue]
          · cases token <;> simp [hvalues, hvalue]

/-! ## What a predicate says -/

inductive CfgPredicate where
  | literal (value : Bool)
  | option (name : String)
  | keyValue (name value : String)
  | all (ps : List CfgPredicate)
  | any (ps : List CfgPredicate)
  | not (p : CfgPredicate)

mutual

/-- The tokens that spell a predicate. -/
inductive Spells : CfgPredicate → List Token → Prop
  | literal (value : Bool) : Spells (.literal value) [.ident false (toString value)]
  | option {raw : Bool} {name : String} (h : isLitBool raw name = false) :
    Spells (.option name) [.ident raw name]
  | keyValue {raw : Bool} {name value : String} (h : isLitBool raw name = false) :
    Spells (.keyValue name value) [.ident raw name, .eq, .str value]
  | all {raw : Bool} {ps : List CfgPredicate} {inner : List Token} (h : SpellsList ps inner) :
    Spells (.all ps) [.ident raw "all", .group inner]
  | any {raw : Bool} {ps : List CfgPredicate} {inner : List Token} (h : SpellsList ps inner) :
    Spells (.any ps) [.ident raw "any", .group inner]
  | not {raw : Bool} {p : CfgPredicate} {inner : List Token} (h : SpellsList [p] inner) :
    Spells (.not p) [.ident raw "not", .group inner]

inductive SpellsList : List CfgPredicate → List Token → Prop
  | nil : SpellsList [] []
  | last {p : CfgPredicate} {tokens : List Token} (h : Spells p tokens) : SpellsList [p] tokens
  | cons {p : CfgPredicate} {ps : List CfgPredicate} {tokens rest : List Token}
    (h : Spells p tokens) (hs : SpellsList ps rest) :
    SpellsList (p :: ps) (tokens ++ .comma :: rest)

end

/--
What a predicate may be in a build without tests, when nothing is known of the other options, not
even that two occurrences of an option are alike.
-/
inductive CanBe : CfgPredicate → Bool → Prop
  | literal (value : Bool) : CanBe (.literal value) value
  | test : CanBe (.option "test") false
  | option {name : String} (h : name ≠ "test") (value : Bool) : CanBe (.option name) value
  | keyValue (name text : String) (value : Bool) : CanBe (.keyValue name text) value
  | all_true {ps : List CfgPredicate} (h : ∀ p ∈ ps, CanBe p true) : CanBe (.all ps) true
  | all_false {ps : List CfgPredicate} {p : CfgPredicate} (hp : p ∈ ps) (h : CanBe p false) :
    CanBe (.all ps) false
  | any_true {ps : List CfgPredicate} {p : CfgPredicate} (hp : p ∈ ps) (h : CanBe p true) :
    CanBe (.any ps) true
  | any_false {ps : List CfgPredicate} (h : ∀ p ∈ ps, CanBe p false) : CanBe (.any ps) false
  | not {p : CfgPredicate} {value : Bool} (h : CanBe p value) : CanBe (.not p) (!value)

namespace CanBe

variable {ps : List CfgPredicate} {p : CfgPredicate} {value : Bool}

theorem all_true_iff : CanBe (.all ps) true ↔ ∀ p ∈ ps, CanBe p true :=
  ⟨fun h => by cases h; assumption, all_true⟩

theorem all_false_iff : CanBe (.all ps) false ↔ ∃ p ∈ ps, CanBe p false := by
  constructor
  · rintro (_ | _)
    exact ⟨_, ‹_›, ‹_›⟩
  · rintro ⟨p, hp, h⟩
    exact all_false hp h

theorem any_true_iff : CanBe (.any ps) true ↔ ∃ p ∈ ps, CanBe p true := by
  constructor
  · rintro (_ | _)
    exact ⟨_, ‹_›, ‹_›⟩
  · rintro ⟨p, hp, h⟩
    exact any_true hp h

theorem any_false_iff : CanBe (.any ps) false ↔ ∀ p ∈ ps, CanBe p false :=
  ⟨fun h => by cases h; assumption, any_false⟩

theorem not_iff : CanBe (.not p) value ↔ CanBe p (!value) := by
  constructor
  · intro h
    generalize hq : CfgPredicate.not p = q at h
    cases h <;> cases hq
    rwa [Bool.not_not]
  · intro h
    rw [← Bool.not_not value]
    exact .not h

end CanBe

/-! ## The truth of a predicate -/

/-- A truth that tells which values a predicate may have. -/
structure Describes (t : CfgTruth) (p : CfgPredicate) : Prop where
  eq_false : t = .false ↔ ¬ CanBe p true
  eq_true : t = .true ↔ ¬ CanBe p false

theorem exists_mem_iff_of_forall₂ {α β : Type*} {R : α → β → Prop} {P : α → Prop} {Q : β → Prop}
    {as : List α} {bs : List β} (h : List.Forall₂ R as bs) (hR : ∀ a b, R a b → (P a ↔ Q b)) :
    (∃ a ∈ as, P a) ↔ ∃ b ∈ bs, Q b := by
  induction h with
  | nil => simp
  | cons hab _ ih => simp only [List.exists_mem_cons_iff, hR _ _ hab, ih]

theorem forall_mem_iff_of_forall₂ {α β : Type*} {R : α → β → Prop} {P : α → Prop} {Q : β → Prop}
    {as : List α} {bs : List β} (h : List.Forall₂ R as bs) (hR : ∀ a b, R a b → (P a ↔ Q b)) :
    (∀ a ∈ as, P a) ↔ ∀ b ∈ bs, Q b := by
  induction h with
  | nil => simp
  | cons hab _ ih => simp only [List.forall_mem_cons, hR _ _ hab, ih]

namespace Describes

variable {t : CfgTruth} {p : CfgPredicate} {values : List CfgTruth} {ps : List CfgPredicate}

theorem literal (value : Bool) : Describes (if value then .true else .false) (.literal value) := by
  cases value with
  | false => exact ⟨by simp; rintro ⟨⟩, by simp; exact .literal _⟩
  | true => exact ⟨by simp; exact .literal _, by simp; rintro ⟨⟩⟩

theorem option (name : String) :
    Describes (if name = "test" then .false else .unknown) (.option name) := by
  split_ifs with hname
  · subst hname
    exact ⟨by simp; rintro ⟨⟩; contradiction, by simp; exact .test⟩
  · exact ⟨by simp; exact .option hname _, by simp; exact .option hname _⟩

theorem keyValue (name value : String) : Describes .unknown (.keyValue name value) :=
  ⟨by simp; exact .keyValue .., by simp; exact .keyValue ..⟩

theorem all (h : List.Forall₂ Describes values ps) : Describes (CfgTruth.all values) (.all ps) := by
  constructor
  · rw [CfgTruth.all_eq_false_iff, CanBe.all_true_iff]
    simpa using exists_mem_iff_of_forall₂ h (P := (· = .false)) fun _ _ hd => hd.eq_false
  · rw [CfgTruth.all_eq_true_iff, CanBe.all_false_iff]
    simpa using forall_mem_iff_of_forall₂ h fun _ _ hd => hd.eq_true

theorem any (h : List.Forall₂ Describes values ps) : Describes (CfgTruth.any values) (.any ps) := by
  constructor
  · rw [CfgTruth.any_eq_false_iff, CanBe.any_true_iff]
    simpa using forall_mem_iff_of_forall₂ h fun _ _ hd => hd.eq_false
  · rw [CfgTruth.any_eq_true_iff, CanBe.any_false_iff]
    simpa using exists_mem_iff_of_forall₂ h (P := (· = .true)) fun _ _ hd => hd.eq_true

theorem not (h : Describes t p) : Describes t.not (.not p) := by
  constructor
  · rw [CanBe.not_iff, Bool.not_true, ← h.eq_true]
    cases t <;> simp [CfgTruth.not]
  · rw [CanBe.not_iff, Bool.not_false, ← h.eq_false]
    cases t <;> simp [CfgTruth.not]

theorem unique {t' : CfgTruth} (h : Describes t p) (h' : Describes t' p) : t = t' := by
  have hfalse : t = .false ↔ t' = .false := h.eq_false.trans h'.eq_false.symm
  have htrue : t = .true ↔ t' = .true := h.eq_true.trans h'.eq_true.symm
  cases t <;> cases t' <;> simp at hfalse htrue ⊢

end Describes

/-! ## The parser reads what the grammar spells -/

/-- Tokens that spell a list with these truths. -/
def Spelled (values : List CfgTruth) (tokens : List Token) : Prop :=
  ∃ ps, SpellsList ps tokens ∧ List.Forall₂ Describes values ps

theorem ofList_sound (raw : Bool) {name : String} {inner : List Token} {values : List CfgTruth}
    {value : CfgTruth} (h : Spelled values inner) (hv : CfgTruth.ofList name values = some value) :
    ∃ p, Spells p [.ident raw name, .group inner] ∧ Describes value p := by
  obtain ⟨ps, hspells, hdescribes⟩ := h
  unfold CfgTruth.ofList at hv
  split_ifs at hv with hall hany hnot
  · subst hall
    cases hv
    exact ⟨_, .all hspells, .all hdescribes⟩
  · subst hany
    cases hv
    exact ⟨_, .any hspells, .any hdescribes⟩
  · subst hnot
    split at hv
    · cases hv
      obtain _ | ⟨hd, _ | _⟩ := hdescribes
      exact ⟨_, .not hspells, hd.not⟩
    · cases hv
  · split at hv <;> cases hv

/-- What was read of a predicate, and what it says. -/
def Reads (tokens : List Token) (value : CfgTruth) (rest : List Token) : Prop :=
  ∃ p read, tokens = read ++ rest ∧ Spells p read ∧ Describes value p

theorem isLitBool_iff {raw : Bool} {name : String} :
    isLitBool raw name = true ↔ raw = false ∧ (name = "true" ∨ name = "false") := by
  simp [isLitBool]

/-- The head of a predicate is the whole of it, or a name before a list. -/
theorem read_cases {tokens rest : List Token} {head : CfgHead}
    (h : CfgHead.read tokens = some (head, rest)) :
    (∃ value, head = .known value ∧ Reads tokens value rest) ∨
      ∃ raw name inner, head = .list name inner ∧
        tokens = .ident raw name :: .group inner :: rest := by
  unfold CfgHead.read at h
  split at h
  · rename_i raw name rest'
    by_cases hlit : isLitBool raw name = true
    · rw [if_pos hlit] at h
      obtain ⟨rfl, rfl | rfl⟩ := isLitBool_iff.mp hlit
      · cases h
        exact .inl ⟨_, rfl, _, [_], rfl, .literal true, .literal true⟩
      · cases h
        exact .inl ⟨_, rfl, _, [_], rfl, .literal false, .literal false⟩
    · rw [if_neg hlit] at h
      have hname : isLitBool raw name = false := Bool.eq_false_iff.mpr hlit
      split at h
      · cases h
        exact .inl ⟨_, rfl, _, [_, _, _], rfl, .keyValue hname, .keyValue ..⟩
      · cases h
      · cases h
        exact .inr ⟨raw, name, _, rfl, rfl⟩
      · cases h
        exact .inl ⟨_, rfl, _, [_], rfl, .option hname, .option _⟩
  · cases h

theorem parse_sound {tokens rest : List Token} {value : CfgTruth}
    (hinner : ∀ inner, sizeOf inner < sizeOf tokens → ∀ values,
      parseTerminated inner = some values → Spelled values inner)
    (h : CfgTruth.parse tokens = some (value, rest)) : Reads tokens value rest := by
  unfold CfgTruth.parse at h
  cases hread : CfgHead.read tokens with
  | none => simp [hread] at h
  | some read =>
    obtain ⟨head, rest'⟩ := read
    have hsize := (CfgHead.sizeOf_read hread).2
    rcases read_cases hread with ⟨value', rfl, hreads⟩ | ⟨raw, name, inner, rfl, rfl⟩
    · simp [hread] at h
      obtain ⟨rfl, rfl⟩ := h
      exact hreads
    · cases hvalues : parseTerminated inner with
      | none => simp [hread, hvalues] at h
      | some values =>
        cases hvalue : CfgTruth.ofList name values with
        | none => simp [hread, hvalues, hvalue] at h
        | some value' =>
          simp [hread, hvalues, hvalue] at h
          obtain ⟨rfl, rfl⟩ := h
          obtain ⟨p, hp, hdescribes⟩ :=
            ofList_sound raw (hinner inner (hsize _ _ rfl) values hvalues) hvalue
          exact ⟨p, _, rfl, hp, hdescribes⟩

theorem sizeOf_lt_append (read : List Token) (token : Token) (rest : List Token) :
    sizeOf rest < sizeOf (read ++ token :: rest) := by
  induction read with
  | nil =>
    rw [List.nil_append, List.cons.sizeOf_spec]
    omega
  | cons t read ih =>
    rw [List.cons_append, List.cons.sizeOf_spec]
    omega

theorem parseTerminated_sound {tokens : List Token} {values : List CfgTruth}
    (h : parseTerminated tokens = some values) : Spelled values tokens := by
  induction hn : sizeOf tokens using Nat.strongRecOn generalizing tokens values with
  | ind n ih =>
    subst hn
    rcases eq_or_ne tokens [] with rfl | hne
    · rw [parseTerminated] at h
      cases h
      exact ⟨[], .nil, .nil⟩
    · rw [parseTerminated_eq hne] at h
      cases hparse : CfgTruth.parse tokens with
      | none => simp [hparse] at h
      | some read =>
        obtain ⟨value, rest⟩ := read
        obtain ⟨p, read, rfl, hp, hdescribes⟩ :=
          parse_sound (fun inner hlt values hv => ih _ hlt hv rfl) hparse
        simp only [hparse, Option.bind_eq_bind, Option.bind_some] at h
        split at h
        · cases h
          rw [List.append_nil]
          exact ⟨[p], .last hp, .cons hdescribes .nil⟩
        · rename_i rest
          cases hrest : parseTerminated rest with
          | none => simp [hrest] at h
          | some values' =>
            simp [hrest] at h
            subst h
            obtain ⟨ps, hps, hall⟩ := ih _ (sizeOf_lt_append read _ _) hrest rfl
            exact ⟨p :: ps, .cons hp hps, .cons hdescribes hall⟩
        · cases h

/-- What follows a predicate does not go on with its name. -/
def Ends (rest : List Token) : Prop :=
  ∀ token ∈ rest.head?, token ≠ .eq ∧ ∀ inner, token ≠ .group inner

theorem ends_nil : Ends [] := by
  rintro _ ⟨⟩

theorem ends_comma (rest : List Token) : Ends (.comma :: rest) := by
  rintro _ ⟨⟩
  exact ⟨by rintro ⟨⟩, by rintro _ ⟨⟩⟩

theorem parse_known {tokens rest : List Token} {value : CfgTruth}
    (h : CfgHead.read tokens = some (.known value, rest)) :
    CfgTruth.parse tokens = some (value, rest) := by
  simp [CfgTruth.parse, h]

theorem read_option {raw : Bool} {name : String} {rest : List Token}
    (h : isLitBool raw name = false) (hends : Ends rest) :
    CfgHead.read (.ident raw name :: rest) =
      some (.known (if name = "test" then .false else .unknown), rest) := by
  rcases rest with _ | ⟨token, rest⟩
  · simp [CfgHead.read, h]
  · obtain ⟨heq, hgroup⟩ := hends token rfl
    cases token with
    | eq => exact absurd rfl heq
    | group inner => exact absurd rfl (hgroup inner)
    | _ => simp [CfgHead.read, h]

theorem parse_list {raw : Bool} {name : String} {inner : List Token} {values : List CfgTruth}
    {value : CfgTruth} (hname : isLitBool raw name = false)
    (hvalues : parseTerminated inner = some values)
    (hvalue : CfgTruth.ofList name values = some value) (rest : List Token) :
    CfgTruth.parse (.ident raw name :: .group inner :: rest) = some (value, rest) := by
  have hread : CfgHead.read (.ident raw name :: .group inner :: rest) =
      some (.list name inner, rest) := by
    rw [CfgHead.read, if_neg (by simp [hname])]
  simp [CfgTruth.parse, hread, hvalues, hvalue]

theorem Spells.ne_nil {p : CfgPredicate} {tokens : List Token} (h : Spells p tokens) :
    tokens ≠ [] := by
  cases h <;> exact List.cons_ne_nil _ _

mutual

theorem Spells.parse {rest : List Token} (hends : Ends rest) : ∀ {p : CfgPredicate}
    {tokens : List Token}, Spells p tokens →
    ∃ value, CfgTruth.parse (tokens ++ rest) = some (value, rest) ∧ Describes value p
  | _, _, .literal value =>
    ⟨_, parse_known (by cases value <;> rfl), .literal value⟩
  | _, _, .option h => ⟨_, parse_known (read_option h hends), .option _⟩
  | _, _, .keyValue h => ⟨_, parse_known (by simp [CfgHead.read, h]), .keyValue ..⟩
  | _, _, .all h => by
    obtain ⟨values, hvalues, hdescribes⟩ := h.parse
    exact ⟨_, parse_list (by simp [isLitBool]) hvalues rfl rest, .all hdescribes⟩
  | _, _, .any h => by
    obtain ⟨values, hvalues, hdescribes⟩ := h.parse
    exact ⟨_, parse_list (by simp [isLitBool]) hvalues rfl rest, .any hdescribes⟩
  | _, _, .not h => by
    obtain ⟨values, hvalues, hdescribes⟩ := h.parse
    obtain _ | ⟨hd, _ | _⟩ := hdescribes
    exact ⟨_, parse_list (by simp [isLitBool]) hvalues rfl rest, hd.not⟩

theorem SpellsList.parse : ∀ {ps : List CfgPredicate} {tokens : List Token},
    SpellsList ps tokens →
    ∃ values, parseTerminated tokens = some values ∧ List.Forall₂ Describes values ps
  | _, _, .nil => ⟨[], by rw [parseTerminated]; rfl, .nil⟩
  | _, _, .last h => by
    obtain ⟨value, hvalue, hdescribes⟩ := h.parse ends_nil
    rw [List.append_nil] at hvalue
    exact ⟨[value], by rw [parseTerminated_eq h.ne_nil, hvalue]; rfl, .cons hdescribes .nil⟩
  | _, _, .cons h hs => by
    obtain ⟨value, hvalue, hdescribes⟩ := h.parse (ends_comma _)
    obtain ⟨values, hvalues, hall⟩ := hs.parse
    refine ⟨value :: values, ?_, .cons hdescribes hall⟩
    rw [parseTerminated_eq (by simp [h.ne_nil]), hvalue]
    simp [hvalues]

end

/-! ## Attributes -/

/-- An attribute by the segments of its path, and its arguments where it has some in parentheses. -/
structure Attribute where
  path : List String
  args : Option (List Token)

def attrPathIs (attr : Attribute) (name : String) : Bool := attr.path = [name]

/-- The arguments are one predicate, which a comma may follow. -/
def CfgTruth.parseArgs (tokens : List Token) : Option CfgTruth := do
  let (value, rest) ← CfgTruth.parse tokens
  let rest := match rest with
    | .comma :: rest => rest
    | rest => rest
  if rest.isEmpty then some value else none

def isCfgDisabledWithoutTest (attr : Attribute) : Bool :=
  attrPathIs attr "cfg" && attr.args.bind CfgTruth.parseArgs = some .false

def Attribute.IsCfg (attr : Attribute) (p : CfgPredicate) : Prop :=
  attr.path = ["cfg"] ∧ ∃ tokens, Spells p tokens ∧
    (attr.args = some tokens ∨ attr.args = some (tokens ++ [.comma]))

theorem parseArgs_iff {tokens : List Token} {value : CfgTruth} :
    CfgTruth.parseArgs tokens = some value ↔ ∃ p read, Spells p read ∧ Describes value p ∧
      (tokens = read ∨ tokens = read ++ [.comma]) := by
  constructor
  · intro h
    unfold CfgTruth.parseArgs at h
    cases hparse : CfgTruth.parse tokens with
    | none => simp [hparse] at h
    | some result =>
      obtain ⟨value', rest⟩ := result
      obtain ⟨p, read, rfl, hp, hdescribes⟩ :=
        parse_sound (fun _ _ _ => parseTerminated_sound) hparse
      simp only [hparse, Option.bind_eq_bind, Option.bind_some, List.isEmpty_iff] at h
      split_ifs at h with hrest
      cases h
      refine ⟨p, read, hp, hdescribes, ?_⟩
      split at hrest
      · rw [hrest]
        exact .inr rfl
      · rw [hrest, List.append_nil]
        exact .inl rfl
  · rintro ⟨p, read, hp, hdescribes, rfl | rfl⟩
    · obtain ⟨value', hparse, hd⟩ := hp.parse ends_nil
      rw [List.append_nil] at hparse
      simp [CfgTruth.parseArgs, hparse, hd.unique hdescribes]
    · obtain ⟨value', hparse, hd⟩ := hp.parse (ends_comma [])
      simp [CfgTruth.parseArgs, hparse, hd.unique hdescribes]

theorem Attribute.IsCfg.parseArgs {attr : Attribute} {p : CfgPredicate} (h : attr.IsCfg p) :
    ∃ value, attr.args.bind CfgTruth.parseArgs = some value ∧ Describes value p := by
  obtain ⟨-, read, hp, hargs⟩ := h
  obtain ⟨value, -, hdescribes⟩ := hp.parse ends_nil
  refine ⟨value, ?_, hdescribes⟩
  rcases hargs with hargs | hargs
  · exact hargs ▸ parseArgs_iff.mpr ⟨p, read, hp, hdescribes, .inl rfl⟩
  · exact hargs ▸ parseArgs_iff.mpr ⟨p, read, hp, hdescribes, .inr rfl⟩

/--
What is skipped is a predicate that is false without tests, whatever each occurrence of another
option is.
-/
theorem isCfgDisabledWithoutTest_iff (attr : Attribute) :
    isCfgDisabledWithoutTest attr = true ↔ ∃ p, attr.IsCfg p ∧ ¬ CanBe p true := by
  simp only [isCfgDisabledWithoutTest, attrPathIs, Bool.and_eq_true, decide_eq_true_eq]
  constructor
  · rintro ⟨hpath, htruth⟩
    obtain ⟨tokens, hargs, hparse⟩ := Option.bind_eq_some_iff.mp htruth
    obtain ⟨p, read, hp, hdescribes, htokens⟩ := parseArgs_iff.mp hparse
    refine ⟨p, ⟨hpath, read, hp, ?_⟩, hdescribes.eq_false.mp rfl⟩
    rw [hargs]
    exact htokens.imp (congrArg some) (congrArg some)
  · rintro ⟨p, hp, hnot⟩
    obtain ⟨value, hparse, hdescribes⟩ := hp.parseArgs
    exact ⟨hp.1, hparse.trans (congrArg some (hdescribes.eq_false.mpr hnot))⟩

-- true in no build, but the two occurrences of `unix` are not compared
example : CanBe (.all [.option "unix", .not (.option "unix")]) true := by
  rw [CanBe.all_true_iff, List.forall_mem_cons, List.forall_mem_singleton]
  exact ⟨.option (by decide) true, .not (.option (by decide) false)⟩

theorem Attribute.IsCfg.canBe_true {attr : Attribute} {p p' : CfgPredicate} (h : attr.IsCfg p)
    (h' : attr.IsCfg p') (hp : CanBe p true) : CanBe p' true := by
  obtain ⟨value, hparse, hdescribes⟩ := h.parseArgs
  obtain ⟨value', hparse', hdescribes'⟩ := h'.parseArgs
  obtain rfl : value = value' := Option.some.inj (hparse.symm.trans hparse')
  by_contra hnot
  exact hdescribes.eq_false.mp (hdescribes'.eq_false.mpr hnot) hp

/-! ## Builds -/

/-- The options of a build without tests. -/
structure Configuration where
  option : String → Bool
  keyValue : String → String → Bool
  test_off : option "test" = false

def Configuration.eval (c : Configuration) : CfgPredicate → Bool
  | .literal value => value
  | .option name => c.option name
  | .keyValue name value => c.keyValue name value
  | .all ps => ps.attach.all fun ⟨p, _⟩ => c.eval p
  | .any ps => ps.attach.any fun ⟨p, _⟩ => c.eval p
  | .not p => !c.eval p

/-- In a build, occurrences of an option are alike. -/
theorem Configuration.canBe_eval (c : Configuration) : ∀ p, CanBe p (c.eval p)
  | .literal value => by
    rw [eval]
    exact .literal value
  | .option name => by
    rw [eval]
    rcases eq_or_ne name "test" with rfl | hname
    · rw [c.test_off]
      exact .test
    · exact .option hname _
  | .keyValue _ _ => .keyValue ..
  | .all ps => by
    rw [eval]
    cases h : ps.attach.all fun ⟨p, _⟩ => c.eval p with
    | true =>
      refine .all_true fun p hp => ?_
      have heval : c.eval p = true := List.all_eq_true.mp h ⟨p, hp⟩ (List.mem_attach ..)
      exact heval ▸ c.canBe_eval p
    | false =>
      obtain ⟨⟨p, hp⟩, -, heval⟩ := List.all_eq_false.mp h
      exact .all_false hp (Bool.eq_false_iff.mpr heval ▸ c.canBe_eval p)
  | .any ps => by
    rw [eval]
    cases h : ps.attach.any fun ⟨p, _⟩ => c.eval p with
    | true =>
      obtain ⟨⟨p, hp⟩, -, heval⟩ := List.any_eq_true.mp h
      exact .any_true hp (heval ▸ c.canBe_eval p)
    | false =>
      refine .any_false fun p hp => ?_
      have heval := List.any_eq_false.mp h ⟨p, hp⟩ (List.mem_attach ..)
      exact Bool.eq_false_iff.mpr heval ▸ c.canBe_eval p
  | .not p => by
    rw [eval]
    exact .not (c.canBe_eval p)

end GhReport.NonExhaustiveCheck

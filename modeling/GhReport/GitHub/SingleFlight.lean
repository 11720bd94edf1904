import GhReport.GitHub.Credential

/-! # Single flight

The refresh lock lets one task at a time past the second reading, and the clock
does not go back. So whoever finds the published expiry fresh meets no store in
progress, and a token that is good for a while is exchanged once, whatever the
number of tasks that find the old one stale.
-/

namespace GhReport.GitHub

open Event

/-! ## Phases -/

/-- The header and the expiry are those of the credential. -/
def CredentialClient.Agrees (s : CredentialClient) : Prop :=
  s.authHeader = s.credential.bearer ∧ s.credentialExpiresAt = s.credential.expiresAtUnix

/-- The published expiry is within the buffer of the clock. -/
def CredentialClient.Stale (s : CredentialClient) : Prop :=
  needsRefresh s.credentialExpiresAt s.now = true

/-- The task is between the first store and the last. -/
def EnsurePhase.Writes : EnsurePhase → Prop
  | stored _ | headed _ => True
  | _ => False

/-- What a task knows of the client in its phase. -/
def EnsurePhase.Knows (s : CredentialClient) : EnsurePhase → Prop
  | idle | waiting | locked => True
  | checked exp => exp = s.credentialExpiresAt ∨ needsRefresh exp s.now = true
  | rechecked exp => exp = s.credentialExpiresAt
  | refreshing _ | exchanging | obtained _ => s.Stale
  | stored newCred => s.Stale ∧ s.credential = newCred
  | headed newCred => s.Stale ∧ s.credential = newCred ∧ s.authHeader = newCred.bearer

theorem needsRefresh_iff {exp now : ℕ} :
    needsRefresh exp now = true ↔ exp ≠ 0 ∧ exp ≤ now + tokenRefreshBuffer := by
  simp [needsRefresh]

theorem needsRefresh_mono {exp now later : ℕ} (h : needsRefresh exp now = true)
    (hl : now ≤ later) : needsRefresh exp later = true := by
  rw [needsRefresh_iff] at h ⊢
  exact ⟨h.1, by omega⟩

namespace EnsurePhase

variable {s s' : CredentialClient} {p : EnsurePhase}

theorem Writes.refreshes (h : p.Writes) : p.Refreshes := by
  cases p with
  | stored | headed => trivial
  | _ => exact absurd h id

theorem Refreshes.holds (h : p.Refreshes) : p.Holds := by
  cases p with
  | idle | checked | waiting => exact absurd h id
  | _ => trivial

theorem Refreshes.stale (h : p.Refreshes) (hk : p.Knows s) : s.Stale := by
  cases p with
  | refreshing | exchanging | obtained => exact hk
  | stored | headed => exact hk.1
  | _ => exact absurd h id

/-- A task without the lock knows at most an expiry, which has not become fresh again. -/
theorem Knows.of_not_holds (hp : ¬ p.Holds) (hk : p.Knows s) (hn : s'.now = s.now)
    (he : s'.credentialExpiresAt = s.credentialExpiresAt ∨ s.Stale) : p.Knows s' := by
  cases p with
  | idle | waiting => trivial
  | checked exp =>
    rcases hk with rfl | hk
    · rcases he with he | he
      · exact .inl he.symm
      · exact .inr (hn ▸ he)
    · exact .inr (hn ▸ hk)
  | _ => exact absurd trivial hp

theorem Knows.tick (hk : p.Knows s) (seconds : ℕ) :
    p.Knows { s with now := s.now + seconds } := by
  have hmono : ∀ exp, needsRefresh exp s.now = true → needsRefresh exp (s.now + seconds) = true :=
    fun _ h => needsRefresh_mono h (Nat.le_add_right ..)
  cases p with
  | idle | waiting | locked => trivial
  | checked exp => exact hk.imp_right (hmono _)
  | rechecked exp => exact hk
  | refreshing | exchanging | obtained => exact hmono _ hk
  | stored | headed => exact ⟨hmono _ hk.1, hk.2⟩

end EnsurePhase

/-! ## What a step does -/

namespace CredentialClient

/-- What a task says and leaves when it advances, by what it meets. -/
inductive Advances (L : TokenLibraries) (s : CredentialClient) (i : ℕ)
    (env : ExchangeEnvironment) : Option CredentialEvent → CredentialClient → Prop
  | check : s.task i = .idle →
      Advances L s i env none (s.setTask i (.checked s.credentialExpiresAt))
  | fresh {exp : ℕ} : s.task i = .checked exp → ¬ needsRefresh exp s.now = true →
      Advances L s i env (some (.finished i (.ok ()))) (s.setTask i .idle)
  | wait {exp : ℕ} : s.task i = .checked exp → Advances L s i env none (s.setTask i .waiting)
  | blocked : Advances L s i env none s
  | acquire : s.task i = .waiting → s.refreshLock = none →
      Advances L s i env none { s.setTask i .locked with refreshLock := some i }
  | recheck : s.task i = .locked →
      Advances L s i env none (s.setTask i (.rechecked s.credentialExpiresAt))
  | refresh {exp : ℕ} {config : GitHubAppConfig} : s.task i = .rechecked exp →
      needsRefresh exp s.now = true → Advances L s i env none (s.setTask i (.refreshing config))
  | settled {exp : ℕ} : s.task i = .rechecked exp → ¬ needsRefresh exp s.now = true →
      Advances L s i env (some (.finished i (.ok ()))) (s.finish i (.ok ())).2
  | fail {reason : String} : (s.task i).Holds → ¬ (s.task i).Writes →
      Advances L s i env (some (.finished i (.error reason))) (s.finish i (.error reason)).2
  | send {config : GitHubAppConfig} : s.task i = .refreshing config →
      Advances L s i env (some (.exchangeSent (s.exchangeUrl config))) (s.setTask i .exchanging)
  | obtain {newCred : GitHubCredential} : s.task i = .exchanging →
      obtainCredential L env.sent = .ok newCred →
      Advances L s i env none (s.setTask i (.obtained newCred))
  | store {newCred : GitHubCredential} : s.task i = .obtained newCred →
      Advances L s i env none { s.setTask i (.stored newCred) with credential := newCred }
  | storeHeader {newCred : GitHubCredential} : s.task i = .stored newCred →
      Advances L s i env none { s.setTask i (.headed newCred) with authHeader := newCred.bearer }
  | publish {newCred : GitHubCredential} : s.task i = .headed newCred →
      Advances L s i env (some (.finished i (.ok ())))
        ({ s with credentialExpiresAt := newCred.expiresAtUnix }.finish i (.ok ())).2

theorem advances (L : TokenLibraries) (s : CredentialClient) (i : ℕ) (env : ExchangeEnvironment) :
    Advances L s i env (s.advance L i env).1 (s.advance L i env).2 := by
  unfold CredentialClient.advance
  cases ht : s.task i with
  | idle => exact .check ht
  | checked exp =>
    dsimp only
    split_ifs with hstale
    · exact .wait ht
    · exact .fresh ht hstale
  | waiting =>
    dsimp only
    split
    · rename_i hl
      exact .acquire ht hl
    · exact .blocked
  | locked => exact .recheck ht
  | rechecked exp =>
    dsimp only
    unfold CredentialClient.recheck
    split_ifs with hstale
    · split
      · exact .refresh ht hstale
      · exact .fail (by rw [ht]; trivial) (by rw [ht]; exact id)
    · exact .settled ht hstale
  | refreshing config =>
    dsimp only
    split
    · exact .send ht
    · exact .fail (by rw [ht]; trivial) (by rw [ht]; exact id)
  | exchanging =>
    dsimp only
    split
    · rename_i newCred hn
      exact .obtain ht hn
    · exact .fail (by rw [ht]; trivial) (by rw [ht]; exact id)
  | obtained newCred => exact .store ht
  | stored newCred => exact .storeHeader ht
  | headed newCred => exact .publish ht

end CredentialClient

/-! ## The invariant -/

/--
The lock is held by the one task that is past it, each task knows what its phase says,
and unless one is storing, what is stored belongs together.
-/
structure CredentialClient.Consistent (s : CredentialClient) : Prop where
  lock : ∀ i, (s.task i).Holds ↔ s.refreshLock = some i
  knows : ∀ i, (s.task i).Knows s
  agrees : s.Agrees ∨ ∃ i, (s.task i).Writes

namespace CredentialClient

variable {L : TokenLibraries} {s : CredentialClient} {i j : ℕ} {p : EnsurePhase}

@[simp] theorem setTask_task_self (s : CredentialClient) (i : ℕ) (p : EnsurePhase) :
    (s.setTask i p).task i = p :=
  Function.update_self ..

theorem setTask_task_ne (s : CredentialClient) (p : EnsurePhase) (h : j ≠ i) :
    (s.setTask i p).task j = s.task j :=
  Function.update_of_ne h ..

theorem Consistent.knows_of (h : s.Consistent) (ht : s.task i = p) : p.Knows s := by
  rw [← ht]
  exact h.knows i

theorem Consistent.eq_of_holds (h : s.Consistent) (hi : (s.task i).Holds)
    (hj : (s.task j).Holds) : i = j :=
  Option.some_inj.mp (((h.lock i).mp hi).symm.trans ((h.lock j).mp hj))

theorem Consistent.agrees_of_not_writes (h : s.Consistent) (hi : (s.task i).Holds)
    (hw : ¬ (s.task i).Writes) : s.Agrees := by
  rcases h.agrees with ha | ⟨j, hj⟩
  · exact ha
  · obtain rfl := h.eq_of_holds hi hj.refreshes.holds
    exact absurd hj hw

/-- With a fresh expiry nothing is being stored. -/
theorem Consistent.agrees_of_fresh (h : s.Consistent) (hf : ¬ s.Stale) : s.Agrees := by
  rcases h.agrees with ha | ⟨j, hj⟩
  · exact ha
  · exact absurd (hj.refreshes.stale (h.knows j)) hf

/-- A task moves on; nothing that the tasks share has changed. -/
theorem Consistent.setTask (h : s.Consistent) (hp : p.Knows s)
    (hh : p.Holds ↔ (s.task i).Holds) (hi : ¬ (s.task i).Writes) : (s.setTask i p).Consistent where
  lock j := by
    rcases eq_or_ne j i with rfl | hj
    · rw [setTask_task_self, hh]
      exact h.lock j
    · rw [setTask_task_ne s p hj]
      exact h.lock j
  knows j := by
    rcases eq_or_ne j i with rfl | hj
    · rw [setTask_task_self]
      exact hp
    · rw [setTask_task_ne s p hj]
      exact h.knows j
  agrees := by
    rcases h.agrees with ha | ⟨j, hj⟩
    · exact .inl ha
    · have hne : j ≠ i := fun he => hi (he ▸ hj)
      exact .inr ⟨j, by rwa [setTask_task_ne s p hne]⟩

theorem Consistent.acquire (h : s.Consistent) (hl : s.refreshLock = none) :
    ({ s.setTask i .locked with refreshLock := some i } : CredentialClient).Consistent where
  lock j := by
    rcases eq_or_ne j i with rfl | hj
    · simp [EnsurePhase.Holds]
    · simp only [setTask_task_ne s .locked hj, h.lock j, hl, Option.some_inj]
      exact ⟨fun e => absurd e (by simp), fun e => absurd e hj.symm⟩
  knows j := by
    rcases eq_or_ne j i with rfl | hj
    · simp only [setTask_task_self]
      trivial
    · simp only [setTask_task_ne s .locked hj]
      exact h.knows j
  agrees := by
    rcases h.agrees with ha | ⟨j, hj⟩
    · exact .inl ha
    · exact absurd ((h.lock j).mp hj.refreshes.holds) (by simp [hl])

/-- The holder is done: the lock is free, and what is stored belongs together. -/
theorem Consistent.release {s' : CredentialClient} (h : s.Consistent) (hi : (s.task i).Holds)
    (hn : s'.now = s.now) (he : s'.credentialExpiresAt = s.credentialExpiresAt ∨ s.Stale)
    (ht : s'.task = Function.update s.task i .idle) (hl : s'.refreshLock = none)
    (ha : s'.Agrees) : s'.Consistent where
  lock j := by
    rw [hl, ht]
    rcases eq_or_ne j i with rfl | hj
    · simp [EnsurePhase.Holds]
    · rw [Function.update_of_ne hj]
      exact ⟨fun hh => absurd (h.eq_of_holds hh hi) hj, fun e => absurd e (by simp)⟩
  knows j := by
    rw [ht]
    rcases eq_or_ne j i with rfl | hj
    · rw [Function.update_self]
      trivial
    · rw [Function.update_of_ne hj]
      exact (h.knows j).of_not_holds (fun hh => hj (h.eq_of_holds hh hi)) hn he
  agrees := .inl ha

/-- The holder stores the credential or the header; no other task looks at them. -/
theorem Consistent.store {s' : CredentialClient} (h : s.Consistent) (hi : (s.task i).Holds)
    (hn : s'.now = s.now) (he : s'.credentialExpiresAt = s.credentialExpiresAt)
    (ht : s'.task = Function.update s.task i p) (hl : s'.refreshLock = s.refreshLock)
    (hp : p.Knows s') (hw : p.Writes) : s'.Consistent where
  lock j := by
    rw [hl, ht]
    rcases eq_or_ne j i with rfl | hj
    · rw [Function.update_self]
      exact ⟨fun _ => (h.lock j).mp hi, fun _ => hw.refreshes.holds⟩
    · rw [Function.update_of_ne hj]
      exact h.lock j
  knows j := by
    rw [ht]
    rcases eq_or_ne j i with rfl | hj
    · rw [Function.update_self]
      exact hp
    · rw [Function.update_of_ne hj]
      exact (h.knows j).of_not_holds (fun hh => hj (h.eq_of_holds hh hi)) hn (.inl he)
  agrees := .inr ⟨i, by rwa [ht, Function.update_self]⟩

theorem Consistent.finish (h : s.Consistent) (hi : (s.task i).Holds)
    (hw : ¬ (s.task i).Writes) (result : Except String Unit) :
    (s.finish i result).2.Consistent :=
  h.release hi rfl (.inl rfl) rfl rfl (h.agrees_of_not_writes hi hw)

theorem Consistent.tick (h : s.Consistent) (seconds : ℕ) :
    ({ s with now := s.now + seconds } : CredentialClient).Consistent :=
  ⟨h.lock, fun j => (h.knows j).tick seconds, h.agrees⟩

theorem Consistent.advances {env : ExchangeEnvironment} {o : Option CredentialEvent}
    {s' : CredentialClient} (h : s.Consistent) (ha : Advances L s i env o s') :
    s'.Consistent := by
  cases ha with
  | check ht => exact h.setTask (.inl rfl) (by rw [ht]; exact Iff.rfl) (by rw [ht]; exact id)
  | fresh ht | wait ht =>
    exact h.setTask trivial (by rw [ht]; exact Iff.rfl) (by rw [ht]; exact id)
  | blocked => exact h
  | acquire _ hl => exact h.acquire hl
  | recheck ht => exact h.setTask rfl (by rw [ht]; exact Iff.rfl) (by rw [ht]; exact id)
  | refresh ht hstale =>
    obtain rfl := h.knows_of ht
    exact h.setTask hstale (by rw [ht]; exact Iff.rfl) (by rw [ht]; exact id)
  | settled ht => exact h.finish (by rw [ht]; trivial) (by rw [ht]; exact id) _
  | fail hh hw => exact h.finish hh hw _
  | send ht | obtain ht =>
    have hk : s.Stale := h.knows_of ht
    exact h.setTask hk (by rw [ht]; exact Iff.rfl) (by rw [ht]; exact id)
  | store ht =>
    have hk : s.Stale := h.knows_of ht
    exact h.store (by rw [ht]; trivial) rfl rfl rfl rfl ⟨hk, rfl⟩ trivial
  | @storeHeader newCred ht =>
    obtain ⟨hk, hc⟩ : s.Stale ∧ s.credential = newCred := h.knows_of ht
    exact h.store (by rw [ht]; trivial) rfl rfl rfl rfl ⟨hk, hc, rfl⟩ trivial
  | @publish newCred ht =>
    obtain ⟨hk, hc, ha⟩ : s.Stale ∧ s.credential = newCred ∧ s.authHeader = newCred.bearer :=
      h.knows_of ht
    refine h.release (by rw [ht]; trivial) rfl (.inr hk) rfl rfl ⟨?_, ?_⟩
    · exact ha.trans (congrArg GitHubCredential.bearer hc.symm)
    · exact congrArg GitHubCredential.expiresAtUnix hc.symm

theorem Consistent.dropTask (h : s.Consistent) (i : ℕ) : (s.dropTask i).2.Consistent := by
  unfold CredentialClient.dropTask
  cases ht : s.task i with
  | waiting =>
    exact h.setTask trivial (by rw [ht]; exact Iff.rfl) (by rw [ht]; exact id)
  | exchanging =>
    exact h.finish (by rw [ht]; trivial) (by rw [ht]; exact id) (.ok ())
  | obtained newCred =>
    exact h.finish (by rw [ht]; trivial) (by rw [ht]; exact id) (.ok ())
  | _ => exact h

theorem consistent_step (h : s.Consistent) (input : CredentialInput) :
    ((credentialMachine L).step s input).2.Consistent := by
  cases input with
  | tick seconds => exact h.tick seconds
  | advance i env => exact h.advances (advances L s i env)
  | drop i => exact h.dropTask i

theorem new_eq {credential : GitHubCredential} {baseUrl : String}
    {appConfig : Option GitHubAppConfig} {now : ℕ}
    (hs : new L credential baseUrl appConfig now = .ok s) :
    s = ⟨baseUrl, appConfig, credential.bearer, credential, credential.expiresAtUnix, none, now,
      fun _ => .idle⟩ := by
  unfold new at hs
  split at hs
  · exact (Except.ok.inj hs).symm
  · cases hs

theorem consistent_new {credential : GitHubCredential} {baseUrl : String}
    {appConfig : Option GitHubAppConfig} {now : ℕ}
    (hs : new L credential baseUrl appConfig now = .ok s) : s.Consistent := by
  rw [new_eq hs]
  refine ⟨fun i => ⟨fun h => absurd h id, fun h => ?_⟩, fun _ => trivial, .inl ⟨rfl, rfl⟩⟩
  cases h

/-! ## What the answers say -/

/-- What a check that ends well, and an exchange that is sent, say about the client. -/
structure Sound (L : TokenLibraries) (s : CredentialClient) (input : CredentialInput) : Prop where
  agrees : ∀ i, ((credentialMachine L).step s input).1 = some (.finished i (.ok ())) →
    ((credentialMachine L).step s input).2.Agrees
  fresh : ∀ i, ((credentialMachine L).step s input).1 = some (.finished i (.ok ())) →
    ¬ ((credentialMachine L).step s input).2.Stale ∨ ∃ newCred, s.task i = .headed newCred
  stale : ∀ url, ((credentialMachine L).step s input).1 = some (.exchangeSent url) → s.Stale
  single : ∀ i j, (s.task i).Refreshes → (s.task j).Refreshes → i = j

theorem Consistent.agrees_of_unlocked (h : s.Consistent) (hl : s.refreshLock = none) :
    s.Agrees := by
  rcases h.agrees with ha | ⟨j, hj⟩
  · exact ha
  · exact absurd ((h.lock j).mp hj.refreshes.holds) (by simp [hl])

/-- A check ends well with a fresh reading, or with the last store. -/
theorem Consistent.finished_ok {env : ExchangeEnvironment} {s' : CredentialClient}
    (h : s.Consistent) (ha : Advances L s j env (some (.finished i (.ok ()))) s') :
    ¬ s'.Stale ∨ (s'.refreshLock = none ∧ ∃ newCred, s.task i = .headed newCred) := by
  cases ha with
  | @fresh exp ht hf =>
    have hk : exp = s.credentialExpiresAt ∨ needsRefresh exp s.now = true := h.knows_of ht
    obtain rfl := hk.resolve_right hf
    exact .inl hf
  | settled ht hf =>
    obtain rfl := h.knows_of ht
    exact .inl hf
  | publish ht => exact .inr ⟨rfl, _, ht⟩

/-- An exchange is sent by the task that has read a stale expiry under the lock. -/
theorem Consistent.stale_of_sent {env : ExchangeEnvironment} {url : String} {s' : CredentialClient}
    (h : s.Consistent) (ha : Advances L s j env (some (.exchangeSent url)) s') : s.Stale := by
  cases ha with
  | send ht => exact h.knows_of ht

theorem dropTask_fst (s : CredentialClient) (i : ℕ) :
    (s.dropTask i).1 = none ∨ (s.dropTask i).1 = some .dropped := by
  unfold CredentialClient.dropTask
  cases s.task i with
  | waiting | exchanging | obtained => exact .inr rfl
  | _ => exact .inl rfl

theorem sound_step (h : s.Consistent) (input : CredentialInput) : Sound L s input := by
  have hsingle : ∀ i j, (s.task i).Refreshes → (s.task j).Refreshes → i = j :=
    fun _ _ hi hj => h.eq_of_holds hi.holds hj.holds
  cases input with
  | tick seconds =>
    refine ⟨fun _ ho => ?_, fun _ ho => ?_, fun _ ho => ?_, hsingle⟩
    · cases ho
    · cases ho
    · cases ho
  | drop i =>
    have hne : ∀ o, (s.dropTask i).1 = some o → o = .dropped := by
      intro o ho
      rcases dropTask_fst s i with hd | hd
      · rw [hd] at ho
        cases ho
      · exact (Option.some_inj.mp (hd.symm.trans ho)).symm
    refine ⟨fun _ ho => ?_, fun _ ho => ?_, fun _ ho => ?_, hsingle⟩
    · cases hne _ ho
    · cases hne _ ho
    · cases hne _ ho
  | advance j env =>
    have ha := advances L s j env
    have hs' : (s.advance L j env).2.Consistent := h.advances ha
    refine ⟨fun i ho => ?_, fun i ho => ?_, fun url ho => ?_, hsingle⟩
    · rcases h.finished_ok (ho ▸ ha) with hf | ⟨hl, _⟩
      · exact hs'.agrees_of_fresh hf
      · exact hs'.agrees_of_unlocked hl
    · exact (h.finished_ok (ho ▸ ha)).imp_right And.right
    · exact h.stale_of_sent (ho ▸ ha)

/--
Whatever the order in which the tasks advance, while the clock does not go back: a check that ends
well leaves a header that belongs to the credential and its expiry, which is beyond the buffer
unless the check has just stored it; an exchange is sent only for a stale expiry; at most one task
refreshes.
-/
theorem ensure_credential_sound {credential : GitHubCredential} {baseUrl : String}
    {appConfig : Option GitHubAppConfig} {now : ℕ}
    (hs : new L credential baseUrl appConfig now = .ok s) (inputs : List CredentialInput) :
    (credentialMachine L).Along (Sound L) s inputs :=
  Machine.along_of_invariant (G := fun _ _ => True)
    (fun _ input hc _ => ⟨consistent_step hc input, sound_step hc input⟩)
    (consistent_new hs) (Machine.along_of_forall (fun _ _ => trivial) s inputs)

theorem exampleClient_new : new exampleTokenLibraries exampleCredential "https://api.github.com"
    (some ⟨1, "", 2⟩) 3590 = .ok exampleClient :=
  rfl

theorem ensure_credential_sound_example :
    (credentialMachine exampleTokenLibraries).Along (Sound exampleTokenLibraries)
      exampleClient exampleChecks :=
  ensure_credential_sound exampleClient_new exampleChecks

/-! ## How many exchanges are sent -/

end CredentialClient

namespace EnsurePhase

/-- The exchange is sent, and its credential is not published yet. -/
def inFlight : EnsurePhase → Bool
  | exchanging | obtained _ | stored _ | headed _ => true
  | _ => false

/-- The credential that the task has obtained and not published yet. -/
def newCred : EnsurePhase → Option GitHubCredential
  | obtained c | stored c | headed c => some c
  | _ => none

end EnsurePhase

/-- An exchange was sent. -/
def CredentialEvent.isSent : CredentialInput × Option CredentialEvent → Bool
  | (_, some (.exchangeSent _)) => true
  | _ => false

/-- A check failed, or its task was dropped. -/
def CredentialEvent.isLost : CredentialInput × Option CredentialEvent → Bool
  | (_, some (.finished _ (.error _))) | (_, some .dropped) => true
  | _ => false

namespace CredentialClient

variable {L : TokenLibraries} {s : CredentialClient} {i : ℕ} {p : EnsurePhase} {last : ℕ}

/-- The credentials that tasks have obtained are fresh until the end. -/
def ObtainedFresh (s : CredentialClient) (last : ℕ) : Prop :=
  ∀ i, ∀ c ∈ (s.task i).newCred, needsRefresh c.expiresAtUnix last = false

/-- Whether one more exchange can be sent before the end without a loss. -/
def pending (s : CredentialClient) (last : ℕ) : ℕ :=
  if needsRefresh s.credentialExpiresAt last then
    match s.refreshLock with
    | some i => (!(s.task i).inFlight).toNat
    | none => 1
  else 0

/-- Every answer that makes a credential makes one that is fresh until the end. -/
def AnswersFresh (L : TokenLibraries) (last : ℕ) : CredentialInput → Prop
  | .advance _ env =>
    ∀ c, obtainCredential L env.sent = .ok c → needsRefresh c.expiresAtUnix last = false
  | _ => True

theorem pending_le_one (s : CredentialClient) (last : ℕ) : s.pending last ≤ 1 := by
  unfold pending
  split
  · split
    · exact Bool.toNat_le _
    · exact le_rfl
  · exact Nat.zero_le _

theorem pending_setTask (hp : p.inFlight = (s.task i).inFlight) :
    (s.setTask i p).pending last = s.pending last := by
  have htask : ∀ j, ((s.setTask i p).task j).inFlight = (s.task j).inFlight := by
    intro j
    rcases eq_or_ne j i with rfl | hj
    · rw [setTask_task_self, hp]
    · rw [setTask_task_ne s p hj]
  unfold pending
  simp only [htask]
  rfl

theorem pending_of_holds (h : s.Consistent) (hi : (s.task i).Holds) :
    s.pending last =
      if needsRefresh s.credentialExpiresAt last then (!(s.task i).inFlight).toNat else 0 := by
  unfold pending
  rw [(h.lock i).mp hi]

/-- A check that ends before anything is sent costs nothing. -/
theorem pending_finish (h : s.Consistent) (hi : (s.task i).Holds)
    (hf : (s.task i).inFlight = false) (result : Except String Unit) :
    (s.finish i result).2.pending last = s.pending last := by
  rw [pending_of_holds h hi, hf]
  rfl

theorem pending_acquire (hl : s.refreshLock = none) :
    ({ s.setTask i .locked with refreshLock := some i } : CredentialClient).pending last =
      s.pending last := by
  simp [pending, hl, CredentialClient.setTask, EnsurePhase.inFlight]

/-- An exchange in flight is not pending any more. -/
theorem pending_send (h : s.Consistent) (hi : (s.task i).Holds) :
    (s.setTask i .exchanging).pending last = 0 := by
  have hlock : (s.setTask i .exchanging).refreshLock = some i := (h.lock i).mp hi
  unfold pending
  rw [hlock]
  simp [EnsurePhase.inFlight]

/-- A token that is fresh until the end leaves nothing pending. -/
theorem pending_publish {newCred : GitHubCredential}
    (hfresh : needsRefresh newCred.expiresAtUnix last = false) :
    ({ s with credentialExpiresAt := newCred.expiresAtUnix }.finish i (.ok ())).2.pending last
      = 0 := by
  unfold pending
  exact if_neg (by simp [CredentialClient.finish, CredentialClient.setTask, hfresh])

/-- An exchange is paid for by the one that was pending. -/
theorem pending_advances {env : ExchangeEnvironment} {o : Option CredentialEvent}
    {s' : CredentialClient} (h : s.Consistent) (hl : s.now ≤ last) (ho : s.ObtainedFresh last)
    (ha : Advances L s i env o s') (input : CredentialInput) :
    (CredentialEvent.isSent (input, o)).toNat + s'.pending last ≤
      s.pending last + (CredentialEvent.isLost (input, o)).toNat := by
  have same : s'.pending last = s.pending last →
      0 + s'.pending last ≤ s.pending last + 0 := fun he => by omega
  cases ha with
  | check ht | fresh ht | wait ht | recheck ht | refresh ht | obtain ht =>
    exact same (pending_setTask (by rw [ht]; rfl))
  | blocked => exact same rfl
  | acquire _ hl => exact same (pending_acquire hl)
  | settled ht => exact same (pending_finish h (by rw [ht]; trivial) (by rw [ht]; rfl) _)
  | fail =>
    -- a check that fails gives back what it may have cost
    exact (Nat.zero_add _).trans_le ((pending_le_one _ _).trans (Nat.le_add_left 1 _))
  | send ht =>
    have hh : (s.task i).Holds := by rw [ht]; trivial
    have hstale : needsRefresh s.credentialExpiresAt last = true :=
      needsRefresh_mono (h.knows_of ht) hl
    rw [pending_send h hh, pending_of_holds h hh, if_pos hstale, ht]
    exact le_rfl
  | @store newCred ht =>
    exact same (pending_setTask (s := { s with credential := newCred }) (by rw [ht]; rfl))
  | @storeHeader newCred ht =>
    exact same (pending_setTask (s := { s with authHeader := newCred.bearer }) (by rw [ht]; rfl))
  | publish ht =>
    rw [pending_publish (ho i _ (by rw [ht]; rfl))]
    exact Nat.zero_le _

theorem ObtainedFresh.update {s' : CredentialClient} (h : s.ObtainedFresh last)
    (ht : s'.task = Function.update s.task i p)
    (hp : ∀ c ∈ p.newCred, needsRefresh c.expiresAtUnix last = false) :
    s'.ObtainedFresh last := by
  intro j c hc
  rw [ht] at hc
  rcases eq_or_ne j i with rfl | hj
  · rw [Function.update_self] at hc
    exact hp c hc
  · rw [Function.update_of_ne hj] at hc
    exact h j c hc

theorem ObtainedFresh.setTask (h : s.ObtainedFresh last) (hp : p.newCred = none) :
    (s.setTask i p).ObtainedFresh last :=
  h.update rfl fun c hc => by simp [hp] at hc

theorem ObtainedFresh.finish (h : s.ObtainedFresh last) (i : ℕ) (result : Except String Unit) :
    (s.finish i result).2.ObtainedFresh last :=
  h.update (p := .idle) rfl fun _ hc => by cases hc

theorem ObtainedFresh.advances {env : ExchangeEnvironment} {o : Option CredentialEvent}
    {s' : CredentialClient} (h : s.ObtainedFresh last) (ha : Advances L s i env o s')
    (hf : ∀ c, obtainCredential L env.sent = .ok c → needsRefresh c.expiresAtUnix last = false) :
    s'.ObtainedFresh last := by
  cases ha with
  | blocked => exact h
  | check | fresh | wait | acquire | recheck | refresh | send => exact h.setTask rfl
  | settled | fail => exact h.finish i _
  | obtain _ hn => exact h.update rfl fun c hc => hf c (Option.some_inj.mp hc ▸ hn)
  | @store newCred ht =>
    exact h.update (p := .stored newCred) rfl fun c hc => h i c (by rw [ht]; exact hc)
  | @storeHeader newCred ht =>
    exact h.update (p := .headed newCred) rfl fun c hc => h i c (by rw [ht]; exact hc)
  | publish => exact h.update (p := .idle) rfl fun _ hc => by cases hc

theorem Advances.now_eq {env : ExchangeEnvironment} {o : Option CredentialEvent}
    {s' : CredentialClient} (h : Advances L s i env o s') : s'.now = s.now := by
  cases h <;> rfl

theorem now_advance (env : ExchangeEnvironment) : (s.advance L i env).2.now = s.now :=
  (advances L s i env).now_eq

theorem now_dropTask : (s.dropTask i).2.now = s.now := by
  unfold CredentialClient.dropTask
  split <;> rfl

theorem now_le_step (s : CredentialClient) (input : CredentialInput) :
    s.now ≤ ((credentialMachine L).step s input).2.now := by
  cases input with
  | tick seconds => exact Nat.le_add_right _ _
  | advance i env => exact (now_advance env).ge
  | drop i => exact now_dropTask.ge

theorem pending_dropTask (ho : s.ObtainedFresh last) (i : ℕ)
    (input : CredentialInput) :
    (s.dropTask i).2.ObtainedFresh last ∧
      (CredentialEvent.isSent (input, (s.dropTask i).1)).toNat + (s.dropTask i).2.pending last ≤
        s.pending last + (CredentialEvent.isLost (input, (s.dropTask i).1)).toNat := by
  unfold CredentialClient.dropTask
  have hlost : ∀ s' : CredentialClient, 0 + s'.pending last ≤ s.pending last + 1 :=
    fun s' => (Nat.zero_add _).trans_le ((pending_le_one s' last).trans (Nat.le_add_left 1 _))
  cases s.task i with
  | waiting => exact ⟨ho.setTask rfl, hlost _⟩
  | exchanging | obtained => exact ⟨ho.finish i (.ok ()), hlost _⟩
  | _ => exact ⟨ho, (Nat.zero_add _).le⟩

theorem obtainedFresh_new {credential : GitHubCredential} {baseUrl : String}
    {appConfig : Option GitHubAppConfig} {now : ℕ}
    (hs : new L credential baseUrl appConfig now = .ok s) : s.ObtainedFresh last := by
  rw [new_eq hs]
  intro i c hc
  cases hc

theorem pending_new {credential : GitHubCredential} {baseUrl : String}
    {appConfig : Option GitHubAppConfig} {now : ℕ}
    (hs : new L credential baseUrl appConfig now = .ok s) :
    s.pending last = (needsRefresh credential.expiresAtUnix last).toNat := by
  rw [new_eq hs]
  cases hn : needsRefresh credential.expiresAtUnix last with
  | true => simp [pending, hn]
  | false => simp [pending, hn]

/--
Until the end of a run in which every token that is obtained is fresh to that end, the tasks
send at most one exchange, and one more for each check that fails or is dropped; they send none
without such a loss where the token of the start is fresh to the end itself.
-/
theorem exchanges_le {credential : GitHubCredential} {baseUrl : String}
    {appConfig : Option GitHubAppConfig} {now : ℕ}
    (hs : new L credential baseUrl appConfig now = .ok s) (inputs : List CredentialInput)
    (hlast : ((credentialMachine L).after s inputs).now ≤ last)
    (hfresh : ∀ input ∈ inputs, AnswersFresh L last input) :
    ((credentialMachine L).trace s inputs).countP CredentialEvent.isSent ≤
      (needsRefresh credential.expiresAtUnix last).toNat +
        ((credentialMachine L).trace s inputs).countP CredentialEvent.isLost := by
  have hstep : ∀ s input, s.Consistent ∧ s.ObtainedFresh last →
      ((credentialMachine L).step s input).2.now ≤ last ∧ AnswersFresh L last input →
      (((credentialMachine L).step s input).2.Consistent ∧
          ((credentialMachine L).step s input).2.ObtainedFresh last) ∧
        (CredentialEvent.isSent (input, ((credentialMachine L).step s input).1)).toNat
            + ((credentialMachine L).step s input).2.pending last ≤
          s.pending last
            + (CredentialEvent.isLost (input, ((credentialMachine L).step s input).1)).toNat := by
    rintro s input ⟨hc, ho⟩ ⟨hl, hf⟩
    cases input with
    | tick seconds => exact ⟨⟨hc.tick seconds, ho⟩, (Nat.zero_add _).le⟩
    | advance i env =>
      have hn : s.now ≤ last := (now_le_step (L := L) s (.advance i env)).trans hl
      have ha := advances L s i env
      exact ⟨⟨hc.advances ha, ho.advances ha hf⟩, pending_advances hc hn ho ha _⟩
    | drop i => exact ⟨⟨hc.dropTask i, (pending_dropTask ho i (.drop i)).1⟩,
        (pending_dropTask ho i _).2⟩
  have halong := Machine.along_and.mpr
    ⟨Machine.along_le_of_after_le now_le_step hlast, Machine.along_of_mem hfresh s⟩
  have hrun := Machine.countP_trace_le (I := fun s => s.Consistent ∧ s.ObtainedFresh last)
    (f := fun s => s.pending last) hstep ⟨consistent_new hs, obtainedFresh_new hs⟩ halong
  rwa [pending_new hs] at hrun

theorem exchanges_le_example :
    ((credentialMachine exampleTokenLibraries).trace exampleClient exampleChecks).countP
        CredentialEvent.isSent ≤
      1 + ((credentialMachine exampleTokenLibraries).trace exampleClient exampleChecks).countP
        CredentialEvent.isLost := by
  have hlast :
      ((credentialMachine exampleTokenLibraries).after exampleClient exampleChecks).now ≤ 3592 := by
    simp [exampleChecks, exampleClient, credentialMachine, now_advance]
  have hobtained : ∀ c, obtainCredential exampleTokenLibraries exampleExchange.sent = .ok c →
      needsRefresh c.expiresAtUnix 3592 = false := by
    intro c hc
    obtain ⟨token, text, expiresAt, he, rfl⟩ := obtainCredential_ok _ hc
    obtain rfl : 10800 = expiresAt := Except.ok.inj he
    rfl
  have hfresh : ∀ input ∈ exampleChecks, AnswersFresh exampleTokenLibraries 3592 input := by
    intro input hi
    simp only [exampleChecks, List.mem_append, List.mem_cons, List.mem_replicate,
      List.not_mem_nil, or_false] at hi
    rcases hi with ((((rfl | rfl | rfl | rfl) | ⟨-, rfl⟩) | rfl) | ⟨-, rfl⟩) | ⟨-, rfl⟩
    any_goals exact hobtained
    trivial
  exact exchanges_le exampleClient_new exampleChecks hlast hfresh

end CredentialClient

end GhReport.GitHub

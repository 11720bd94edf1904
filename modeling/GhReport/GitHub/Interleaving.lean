import GhReport.GitHub.RateHalt

/-! # Interleaved calls

The calls of many tasks take their steps in any order, and each sees a halt that another has
noted. What a call returns is still what its request returns alone, from a server that says what
the task was sent: everything that is known of a single request holds of the calls as they run.
-/

namespace GhReport.GitHub

/-! ## Loops that are resumed -/

theorem paginate_unfolds (C : Client) :
    Loop.Unfolds (fun server => paginate C server) (fun pages => pages.pageCount + 1) where
  step_eq _ _ := rfl
  place_lt := by
    intro server s s' h
    simp only [paginate] at h
    split at h
    · cases h
    · split at h
      · cases h
      · have hcount := PageLoop.receive_inr C h
        simp only at hcount ⊢
        omega

namespace RequestCall

variable (S : DetailSource) (call : RequestCall)

/-- The attempts of a call that was let through. -/
def loop (attempts : ℕ → CallAttempt) : Loop AttemptLoop RequestRun :=
  callLoop S call.paginate call.path ⟨false, ⟨none, .ok ()⟩, true, attempts⟩ call.attempts

theorem loop_unfolds : Loop.Unfolds (call.loop S) AttemptLoop.attempt where
  step_eq _ _ := rfl
  place_lt := by
    intro attempts s s' h
    simp only [loop, callLoop] at h
    split at h
    · split at h
      · cases h
      · split at h
        · split at h
          · cases h
          · cases h
            exact Nat.lt_succ_self _
        · split at h
          · cases h
            exact Nat.lt_succ_self _
          · cases h
    · cases h

variable (heard : PageEnvironment → Prop)

/-- The call made its way to the attempt. -/
def Attempting (loop : AttemptLoop) : Prop :=
  Relation.ReflTransGen
    (Loop.Goes (call.loop S) fun attempt => ∀ n url, heard (attempt.server n url)) ⟨0, false⟩ loop

/-- The listing made its way to the page. -/
def Paging (pages : PageLoop) : Prop :=
  Relation.ReflTransGen
    (Loop.Goes (fun server => GitHub.paginate S.client server) fun page => ∀ url, heard (page url))
    ⟨S.client.baseUrl ++ call.path, 0, []⟩ pages

/-- What an attempt returns, with such pages. -/
def Returns (result : AttemptResult) : Prop :=
  ∃ server, (∀ n url, heard (server n url)) ∧ ∀ shouldHalt refresh,
    CallAttempt.run S call.path ⟨server, shouldHalt, refresh⟩ call.paginate = result

/-- The run is one that the request of the call returns, with such pages. -/
def Answers (run : RequestRun) : Prop :=
  ∃ env, (∀ k n url, heard ((env.attempts k).server n url)) ∧
    run = requestRun S call.paginate call.path env call.retries

variable {S call heard} {heard' : PageEnvironment → Prop}

theorem Attempting.mono {loop : AttemptLoop} (h : call.Attempting S heard loop)
    (hmono : ∀ page, heard page → heard' page) : call.Attempting S heard' loop :=
  Relation.ReflTransGen.mono
    (fun _ _ hs => hs.mono fun _ hattempt n url => hmono _ (hattempt n url)) _ _ h

theorem Paging.mono {pages : PageLoop} (h : call.Paging S heard pages)
    (hmono : ∀ page, heard page → heard' page) : call.Paging S heard' pages :=
  Relation.ReflTransGen.mono (fun _ _ hs => hs.mono fun _ hpage url => hmono _ (hpage url)) _ _ h

theorem Returns.mono {result : AttemptResult} (h : call.Returns S heard result)
    (hmono : ∀ page, heard page → heard' page) : call.Returns S heard' result := by
  obtain ⟨server, hserver, hresult⟩ := h
  exact ⟨server, fun n url => hmono _ (hserver n url), hresult⟩

theorem Answers.mono {run : RequestRun} (h : call.Answers S heard run)
    (hmono : ∀ page, heard page → heard' page) : call.Answers S heard' run := by
  obtain ⟨env, henv, hrun⟩ := h
  exact ⟨env, fun k n url => hmono _ (henv k n url), hrun⟩

theorem Attempting.answers {loop : AttemptLoop} (h : call.Attempting S heard loop)
    {attempt : CallAttempt} (hattempt : ∀ n url, heard (attempt.server n url)) {run : RequestRun}
    (hs : (call.loop S fun _ => attempt).step loop = .inl run) : call.Answers S heard run := by
  obtain ⟨attempts, hattempts, hexec⟩ :=
    (call.loop_unfolds S).exists_exec_eq (fun _ => hattempt) h hs
  exact ⟨⟨false, ⟨none, .ok ()⟩, true, attempts⟩, hattempts, hexec.symm⟩

theorem Paging.returns (hlisting : call.paginate = true) {pages : PageLoop}
    (h : call.Paging S heard pages) {page : PageEnvironment} (hpage : heard page)
    {result : AttemptResult}
    (hs : (GitHub.paginate S.client fun _ _ => page).step pages = .inl result) :
    call.Returns S heard result := by
  obtain ⟨server, hserver, hexec⟩ :=
    (paginate_unfolds S.client).exists_exec_eq (fun _ _ => hpage) h hs
  refine ⟨server, hserver, fun shouldHalt refresh => ?_⟩
  rw [hlisting]
  exact hexec

end RequestCall

/-! ## What a task was sent -/

/-- The responses of the page were sent to the task. -/
def Heard (events : List HaltEvent) (i : ℕ) (page : PageEnvironment) : Prop :=
  ∀ response, page.sent = .ok response → .sent i (.ok response) ∈ events

/-- A page that is not asked for. -/
def silentPage : PageEnvironment := ⟨true, false, .error ("", false)⟩

section Heard

variable {S : DetailSource} {events events' : List HaltEvent} {i : ℕ}

theorem heard_silentPage : Heard events i silentPage := by
  intro response h
  cases h

theorem heard_mono (hsub : events ⊆ events') :
    ∀ page, Heard events i page → Heard events' i page :=
  fun _ h response hsent => hsub (h response hsent)

variable (S events i) (call : RequestCall)

theorem answers_halted :
    call.Answers S (Heard events i) ⟨.neverDispatched .haltedBeforeDispatch, false⟩ :=
  ⟨⟨true, ⟨none, .ok ()⟩, true, fun _ => ⟨fun _ _ => silentPage, false, ⟨none, .ok ()⟩⟩⟩,
    fun _ _ _ => heard_silentPage, rfl⟩

theorem answers_refreshFailed (cause : String) : call.Answers S (Heard events i)
    ⟨.neverDispatched (.credentialRefreshFailed cause), false⟩ :=
  ⟨⟨false, ⟨none, .error cause⟩, true, fun _ => ⟨fun _ _ => silentPage, false, ⟨none, .ok ()⟩⟩⟩,
    fun _ _ _ => heard_silentPage, rfl⟩

theorem answers_cancelled :
    call.Answers S (Heard events i) ⟨.neverDispatched .budgetAcquireCancelled, false⟩ :=
  ⟨⟨false, ⟨none, .ok ()⟩, false, fun _ => ⟨fun _ _ => silentPage, false, ⟨none, .ok ()⟩⟩⟩,
    fun _ _ _ => heard_silentPage, rfl⟩

end Heard

/-! ## Phases -/

/-- The phase is one that a call comes to on its way. -/
def CallPhase.OnWay (S : DetailSource) (heard : PageEnvironment → Prop) : CallPhase → Prop
  | sending call loop =>
    call.paginate = false ∧ loop.attempt < call.attempts ∧ call.Attempting S heard loop
  | paging call _ loop pages =>
    loop.attempt < call.attempts ∧ call.Attempting S heard loop ∧ call.Paging S heard pages
  | turned call _ loop pages =>
    loop.attempt < call.attempts ∧ call.Attempting S heard loop ∧
      ∃ before, call.Paging S heard before ∧
        pages = { before with pageCount := before.pageCount + 1 } ∧
        pages.pageCount ≤ maxPaginationPages
  | answered call loop result =>
    loop.attempt < call.attempts ∧ call.Attempting S heard loop ∧ call.Returns S heard result
  | _ => True

theorem CallPhase.OnWay.mono {S : DetailSource} {heard heard' : PageEnvironment → Prop}
    {phase : CallPhase} (h : phase.OnWay S heard) (hmono : ∀ page, heard page → heard' page) :
    phase.OnWay S heard' := by
  cases phase with
  | sending call loop => exact ⟨h.1, h.2.1, h.2.2.mono hmono⟩
  | paging call listing loop pages => exact ⟨h.1, h.2.1.mono hmono, h.2.2.mono hmono⟩
  | turned call listing loop pages =>
    obtain ⟨hattempt, hloop, before, hbefore, hpages⟩ := h
    exact ⟨hattempt, hloop.mono hmono, before, hbefore.mono hmono, hpages⟩
  | answered call loop result => exact ⟨h.1, h.2.1.mono hmono, h.2.2.mono hmono⟩
  | idle | entered | admitted | revalidating | conditional => trivial

/-- The call whose run is told returned what its request returns alone. -/
def HaltEvent.Answered (S : DetailSource) (events : List HaltEvent) : HaltEvent → Prop
  | finished i call run => call.Answers S (Heard events i) run
  | _ => True

theorem HaltEvent.Answered.mono {S : DetailSource} {events events' : List HaltEvent}
    {e : HaltEvent} (h : e.Answered S events) (hsub : events ⊆ events') :
    e.Answered S events' := by
  cases e with
  | finished i call run => exact RequestCall.Answers.mono h (heard_mono hsub)
  | checked | noted | cleared | sent | served => trivial

namespace HaltClient

variable {S : DetailSource} {s : HaltClient} {i : ℕ} {events said : List HaltEvent}
  {phase : CallPhase} {call : RequestCall} {loop : AttemptLoop}

/-- Every task is on its way, and every call that is told was answered. -/
structure Ways (S : DetailSource) (events : List HaltEvent) (s : HaltClient) : Prop where
  onWay : ∀ i, (s.task i).OnWay S (Heard events i)
  answered : ∀ e ∈ events, e.Answered S events

theorem ways_init : Ways S [] init := ⟨fun _ => trivial, List.forall_mem_nil _⟩

/-- A task says something and goes on; what the others were sent stays as it was. -/
theorem Ways.says (h : Ways S events s) (hphase : phase.OnWay S (Heard (events ++ said) i))
    (hsaid : ∀ e ∈ said, e.Answered S (events ++ said)) :
    Ways S (events ++ said) (s.setTask i phase) where
  onWay j := by
    rcases eq_or_ne j i with rfl | hne
    · rwa [setTask_task_self]
    · rw [setTask_task_ne phase hne]
      exact (h.onWay j).mono (heard_mono (List.subset_append_left ..))
  answered e he := by
    rcases List.mem_append.mp he with he | he
    · exact (h.answered e he).mono (List.subset_append_left ..)
    · exact hsaid e he

theorem Ways.silent (h : Ways S events s) (hphase : phase.OnWay S (Heard events i)) :
    Ways S (events ++ []) (s.setTask i phase) := by
  refine h.says ?_ (List.forall_mem_nil _)
  rwa [List.append_nil]

/-- A task looks at the halt, or tells what a revalidation serves. -/
theorem Ways.told {e : HaltEvent} (h : Ways S events s) (hphase : phase.OnWay S (Heard events i))
    (he : e.Answered S (events ++ [e])) : Ways S (events ++ [e]) (s.setTask i phase) :=
  h.says (hphase.mono (heard_mono (List.subset_append_left ..))) (List.forall_mem_singleton.mpr he)

theorem ways_start (h : Ways S events s) (hphase : phase.OnWay S (Heard events i)) :
    Ways S (events ++ (s.start i phase).1) (s.start i phase).2 := by
  unfold start
  split
  · exact h.silent hphase
  · rwa [List.append_nil]

theorem ways_finish {run : RequestRun} (h : Ways S events s)
    (hrun : call.Answers S (Heard events i) run) :
    Ways S (events ++ (s.finish i call run).1) (s.finish i call run).2 :=
  h.told trivial (hrun.mono (heard_mono (List.subset_append_left ..)))

theorem ways_attempt (h : Ways S events s) (hattempt : loop.attempt < call.attempts)
    (hloop : call.Attempting S (Heard events i) loop) :
    Ways S (events ++ (s.attempt S i call loop).1) (s.attempt S i call loop).2 := by
  rw [attempt, if_pos hattempt]
  split
  · exact h.silent ⟨hattempt, hloop, Relation.ReflTransGen.refl⟩
  · rename_i hsingle
    exact h.silent ⟨Bool.eq_false_iff.mpr hsingle, hattempt, hloop⟩

/-- What an attempt comes to that the server answered, as the request alone has it. -/
theorem ways_conclude {result : AttemptResult} (env : StepEnvironment) (h : Ways S events s)
    (hattempt : loop.attempt < call.attempts) (hloop : call.Attempting S (Heard events i) loop)
    (hresult : call.Returns S (Heard events i) result) :
    Ways S (events ++ (s.conclude S i call loop result env).1)
      (s.conclude S i call loop result env).2 := by
  obtain ⟨server, hheard, hserver⟩ := hresult
  -- the loop of the request alone decides by the same result
  have hstep : (call.loop S fun _ => ⟨server, env.shouldHalt, ⟨none, env.credential⟩⟩).step loop =
    _ := if_pos hattempt
  dsimp only at hstep
  rw [hserver env.shouldHalt ⟨none, env.credential⟩] at hstep
  unfold conclude
  split
  · rename_i hhalt
    rw [if_pos hhalt] at hstep
    have hidle : Ways S
        (events ++ [.noted env.haltUntil, .finished i call (.fromAttempt result loop.attempt true)])
        (s.setTask i .idle) := by
      refine h.says trivial (List.forall_mem_cons.mpr ⟨trivial, ?_⟩)
      refine List.forall_mem_singleton.mpr ((hloop.answers hheard hstep).mono ?_)
      exact heard_mono (List.subset_append_left ..)
    exact ⟨hidle.onWay, hidle.answered⟩
  · rename_i hhalt
    rw [if_neg hhalt] at hstep
    split
    · rename_i hstale
      rw [if_pos hstale] at hstep
      cases hcredential : env.credential with
      | error cause =>
        rw [hcredential] at hstep
        exact ways_finish h (hloop.answers hheard hstep)
      | ok u =>
        rw [hcredential] at hstep
        have hnext : loop.attempt + 1 < call.attempts := by
          have hleft := hstale.2.2
          omega
        exact ways_attempt h hnext (hloop.tail ⟨_, fun _ => hheard, hstep⟩)
    · rename_i hstale
      rw [if_neg hstale] at hstep
      split
      · rename_i hretry
        rw [if_pos hretry] at hstep
        have hnext : loop.attempt + 1 < call.attempts := by
          have hleft := hretry.2
          omega
        exact ways_attempt h hnext (hloop.tail ⟨_, fun _ => hheard, hstep⟩)
      · rename_i hretry
        rw [if_neg hretry] at hstep
        exact ways_finish h (hloop.answers hheard hstep)

/-- A page that was asked for, as the sequential loop goes on after it. -/
theorem onWay_receivePage {heard : PageEnvironment → Prop} {before : PageLoop}
    {page : PageEnvironment} (listing : call.paginate = true)
    (hattempt : loop.attempt < call.attempts) (hloop : call.Attempting S heard loop)
    (hbefore : call.Paging S heard before) (hpage : heard page)
    (hstops : page.stops (before.pageCount + 1) = false) :
    (receivePage S call listing loop { before with pageCount := before.pageCount + 1 }
      page.sent).OnWay S heard := by
  have hstep : (paginate S.client fun _ _ => page).step before = _ :=
    if_neg (Bool.eq_false_iff.mp hstops)
  unfold receivePage
  cases hsent : page.sent with
  | error e =>
    rw [hsent] at hstep
    exact ⟨hattempt, hloop, hbefore.returns listing hpage hstep⟩
  | ok response =>
    rw [hsent] at hstep
    dsimp only at hstep ⊢
    cases hreceive : PageLoop.receive S.client
        { before with pageCount := before.pageCount + 1 } response with
    | inl result =>
      rw [hreceive] at hstep
      exact ⟨hattempt, hloop, hbefore.returns listing hpage hstep⟩
    | inr pages =>
      rw [hreceive] at hstep
      exact ⟨hattempt, hloop, hbefore.tail ⟨_, fun _ _ => hpage, hstep⟩⟩

/-- A page that is not asked for ends the listing, as the sequential loop has it. -/
theorem returns_done {before : PageLoop} (listing : call.paginate = true)
    (hbefore : call.Paging S (Heard events i) before) :
    call.Returns S (Heard events i)
      (PageLoop.done { before with pageCount := before.pageCount + 1 } true) := by
  have hstops : silentPage.stops (before.pageCount + 1) = true := by
    simp [PageEnvironment.stops, silentPage]
  have hstep : (paginate S.client fun _ _ => silentPage).step before =
      .inl (PageLoop.done { before with pageCount := before.pageCount + 1 } true) :=
    if_pos hstops
  exact hbefore.returns listing heard_silentPage hstep

theorem ways_advance (env : StepEnvironment) (h : Ways S events s) :
    Ways S (events ++ (s.advance S i env).1) (s.advance S i env).2 := by
  have hway := h.onWay i
  have hsent : ∀ halted acquired, Heard (events ++ [.sent i env.response]) i
      ⟨halted, acquired, env.response⟩ := by
    intro _ _ response hresponse
    dsimp only at hresponse
    rw [hresponse]
    exact List.mem_append_right _ (List.mem_singleton_self _)
  have hmono : ∀ page, Heard events i page → Heard (events ++ [.sent i env.response]) i page :=
    heard_mono (List.subset_append_left ..)
  unfold advance
  cases hphase : s.task i with
  | idle => rwa [List.append_nil]
  | entered call =>
    dsimp only
    split
    · refine h.says trivial (List.forall_mem_cons.mpr ⟨trivial, ?_⟩)
      exact List.forall_mem_singleton.mpr (answers_halted ..)
    · exact h.told trivial trivial
  | admitted call =>
    dsimp only
    split
    · exact ways_finish h (answers_refreshFailed ..)
    · split
      · exact ways_finish h (answers_cancelled ..)
      · exact ways_attempt h (Nat.succ_pos _) Relation.ReflTransGen.refl
  | sending call loop =>
    rw [hphase] at hway
    obtain ⟨hsingle, hattempt, hloop⟩ := hway
    refine h.says ⟨hattempt, hloop.mono hmono, ?_⟩ (List.forall_mem_singleton.mpr trivial)
    refine ⟨fun _ _ => ⟨false, true, env.response⟩, fun _ _ => hsent _ _, fun _ _ => ?_⟩
    rw [hsingle]
    rfl
  | paging call listing loop pages =>
    rw [hphase] at hway
    obtain ⟨hattempt, hloop, hpages⟩ := hway
    have hdone := returns_done listing hpages
    dsimp only
    split
    · exact h.silent ⟨hattempt, hloop, hdone⟩
    · rename_i hcount
      split
      · exact h.told ⟨hattempt, hloop, hdone⟩ trivial
      · exact h.told ⟨hattempt, hloop, pages, hpages, rfl, not_lt.mp hcount⟩ trivial
  | turned call listing loop pages =>
    rw [hphase] at hway
    obtain ⟨hattempt, hloop, before, hbefore, rfl, hcount⟩ := hway
    dsimp only
    split
    · exact h.silent ⟨hattempt, hloop, returns_done listing hbefore⟩
    · rename_i hacquired
      refine h.says ?_ (List.forall_mem_singleton.mpr trivial)
      refine onWay_receivePage listing hattempt (hloop.mono hmono) (hbefore.mono hmono)
        (hsent false env.acquired) ?_
      simp only [PageEnvironment.stops, Bool.or_eq_false_iff, decide_eq_false_iff_not]
      exact ⟨⟨not_lt.mpr hcount, trivial⟩, Bool.eq_false_iff.mpr hacquired⟩
  | answered call loop result =>
    rw [hphase] at hway
    obtain ⟨hattempt, hloop, hresult⟩ := hway
    exact ways_conclude env h hattempt hloop hresult
  | revalidating path cached =>
    dsimp only
    split
    · exact h.silent trivial
    · split
      · exact h.told trivial trivial
      · exact h.told trivial trivial
  | conditional path cached =>
    dsimp only
    split
    · exact h.silent trivial
    · split
      · refine h.says trivial (List.forall_mem_cons.mpr ⟨trivial, ?_⟩)
        exact List.forall_mem_singleton.mpr trivial
      · exact h.told trivial trivial

theorem ways_step (input : HaltInput) (h : Ways S events s) :
    Ways S (events ++ ((haltMachine S).step s input).1) ((haltMachine S).step s input).2 := by
  cases input with
  | request i call => exact ways_start h trivial
  | revalidate i path cached =>
    refine ways_start h ?_
    split <;> trivial
  | advance i env => exact ways_advance env h
  | drop i => exact h.silent trivial
  | resetHalt =>
    refine ⟨fun i => (h.onWay i).mono (heard_mono (List.subset_append_left ..)), fun e he => ?_⟩
    rcases List.mem_append.mp he with he | he
    · exact (h.answered e he).mono (List.subset_append_left ..)
    · obtain rfl := List.mem_singleton.mp he
      trivial

theorem ways_history (S : DetailSource) (inputs : List HaltInput) :
    Ways S ((haltMachine S).history init inputs) ((haltMachine S).after init inputs) :=
  Machine.history_invariant (I := Ways S) (fun _ _ input h => ways_step input h) ways_init inputs

end HaltClient

/-! ## Runs -/

section Runs

variable {S : DetailSource} {inputs : List HaltInput} {i : ℕ} {call : RequestCall}
  {run : RequestRun}

/--
Every run of a call, in any order of steps, is one that its request returns alone, where the
server answers what the task was sent.
-/
theorem finished_requestRun (h : .finished i call run ∈ (haltMachine S).history .init inputs) :
    ∃ env : CallEnvironment,
      (∀ k n url, Heard ((haltMachine S).history .init inputs) i ((env.attempts k).server n url)) ∧
        run = requestRun S call.paginate call.path env call.retries :=
  (HaltClient.ways_history S inputs).answered _ h

/-- A listing that is not truncated is all that the task was sent, whatever the others do. -/
theorem finished_listed (h : .finished i call run ∈ (haltMachine S).history .init inputs)
    (hlisting : call.paginate = true) {status : UInt16} {data : Option Json}
    (hrun : run.outcome = .success status data false) :
    ∃ items, data = some (.array items) ∧ ∃ server,
      (∀ n url, Heard ((haltMachine S).history .init inputs) i (server n url)) ∧
        EndsNaturally S.client server 1 (S.client.baseUrl ++ call.path) items := by
  obtain ⟨env, hheard, rfl⟩ := finished_requestRun h
  rw [hlisting, requestRun_paginated] at hrun
  obtain ⟨items, hdata, attempt, hends⟩ := request_listed hrun
  exact ⟨items, hdata, _, hheard attempt, hends⟩

end Runs

end GhReport.GitHub

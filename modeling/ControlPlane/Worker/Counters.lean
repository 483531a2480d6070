import ControlPlane.Lib.Tally
import ControlPlane.Worker.Budget
import ControlPlane.Worker.Executions

/-! # The counters of the workers

A worker counts an attempt that it finished after the completion was applied, in a
branch of its own for each way to finish. The counters carry no task and no attempt,
yet what the workers count is what the ledger shows: no attempt is counted twice, none
that a worker finished is missing unless the worker was cut off between the commit and
the count, and none that another party ended is counted. -/

namespace ControlPlane
open Keyed Fallible Runs

/-- An increment of a counter of `obs/metrics`, by its labels. -/
inductive Increment where
  | taskAttemptsFinished (taskType : String) (outcome : AttemptOutcome)
  | tasksTerminal (taskType : String) (state : State)
  | tasksRetried (taskType errorClass : String)
  | staleWritesRejected (rejection : String)
  deriving DecidableEq

/-- `_record_outcome`. -/
def recordOutcome (taskType : String) (outcome : Outcome) (failureClass : FailureClass)
    (cancelRequested : Bool) (decision : Option RetryDecision) : List Increment :=
  let both (attemptOutcome : AttemptOutcome) (taskState : State) : List Increment :=
    [.taskAttemptsFinished taskType attemptOutcome, .tasksTerminal taskType taskState]
  if cancelRequested then both .cancelled .cancelled
  else match outcome with
  | .succeeded _ => both .succeeded .succeeded
  | .failed _ =>
    if decision.any RetryDecision.shouldRetry then
      -- the attempt finished, the task has not
      [.tasksRetried taskType failureClass.value, .taskAttemptsFinished taskType .failed]
    else both .failed .failed

/-- The class and the decision that `_finalize` starts from. -/
def finalizeDecision (row : Task) (rng : Draws) : Outcome → FailureClass × Option RetryDecision
  | .succeeded _ => (.unknown, none)
  | .failed detail =>
    let failureClass := classify detail
    (failureClass,
      some (decideRetry failureClass row.attempt row.maxAttempts (retryAfterOf detail) rng))

/-- What `_finalize` counts once its transaction has returned. -/
def finalizeCounts (row : Task) (outcome : Outcome) (cancelRequested : Bool) (rng : Draws) :
    Except Raised Reply → List Increment
  | .ok (.completed (.applied _)) =>
    let decided := finalizeDecision row rng outcome
    recordOutcome row.taskType outcome decided.1 cancelRequested decided.2
  | .ok (.completed (.rejected why _)) => [.staleWritesRejected why.value]
  | _ => []

/-- What a completion that was applied is to be counted as. -/
def Ending.increments (taskType : String) : Ending → List Increment
  | success _ => [.taskAttemptsFinished taskType .succeeded, .tasksTerminal taskType .succeeded]
  | retry errorClass _ _ =>
    [.tasksRetried taskType errorClass, .taskAttemptsFinished taskType .failed]
  | failed .. => [.taskAttemptsFinished taskType .failed, .tasksTerminal taskType .failed]
  | cancelled => [.taskAttemptsFinished taskType .cancelled, .tasksTerminal taskType .cancelled]
  | abandoned _ => []

/-- `_record_outcome` has the branches of `_finalize`. -/
theorem recordOutcome_mirrors {row : Task} {outcome : Outcome} {c : Bool} {rng : Draws} {e : Ending}
    (h : finalizeEnding row outcome c rng = some e) :
    recordOutcome row.taskType outcome (finalizeDecision row rng outcome).1 c
        (finalizeDecision row rng outcome).2 = e.increments row.taskType := by
  unfold finalizeEnding at h
  unfold recordOutcome
  cases c with
  | true =>
    cases h
    rfl
  | false =>
    cases outcome with
    | succeeded result =>
      obtain ⟨d, -, rfl⟩ := Option.map_eq_some_iff.mp h
      rfl
    | failed detail =>
      by_cases hretry : (decideRetry (classify detail) row.attempt row.maxAttempts
          (retryAfterOf detail) rng).shouldRetry = true
      · simp only [Bool.false_eq_true, if_false, hretry, if_true, Option.some.injEq] at h
        subst h
        simp [finalizeDecision, Ending.increments, hretry]
      · simp only [Bool.false_eq_true, if_false, hretry, Option.some.injEq] at h
        subst h
        simp [finalizeDecision, Ending.increments, hretry]

/-- What the ledger's row of an attempt calls for: how the attempt ended, and whether that
was the end of its task. -/
def AttemptRow.increments (t : Task) (r : AttemptRow) : List Increment :=
  match r.outcome with
  | some .succeeded =>
    [.taskAttemptsFinished t.taskType .succeeded, .tasksTerminal t.taskType .succeeded]
  | some .cancelled =>
    [.taskAttemptsFinished t.taskType .cancelled, .tasksTerminal t.taskType .cancelled]
  | some .failed =>
    if t.state = .failed ∧ t.attempt = r.attempt then
      [.taskAttemptsFinished t.taskType .failed, .tasksTerminal t.taskType .failed]
    else [.tasksRetried t.taskType (r.errorClass.getD ""), .taskAttemptsFinished t.taskType .failed]
  | _ => []

/-- An increment of `_record_outcome`. -/
def Increment.isOutcome : Increment → Bool
  | staleWritesRejected _ => false
  | _ => true

variable [PyText]

/-- What the transaction of a step is to be counted as, once its COMMIT has returned; under
the attempt that it is about. -/
def System.due (s : System) : Action → List ((TaskId × Int) × Increment)
  | .worker w (.attempt k .finalize) =>
    (((s.workers w).bind fun p => p.inflight[k]?).elim [] fun x => match x.phase with
      | .finalizing outcome c rng => (finalizeEnding x.row outcome c rng).elim [] fun e =>
        (finalizeCounts x.row outcome c rng ((perform s.db s.clock
          (.complete e x.row.id x.row.attempt w)).map Prod.snd)).map fun i => (x.key, i)
      | _ => [])
  | _ => []

omit [PyText] in
/-- The value of a counter, over all workers. -/
def counterValue (c : Increment) (log : List ((TaskId × Int) × Increment)) : Nat :=
  (log.map Prod.snd).count c

/-! ## One transaction -/

/-- The increments of an attempt are those that its task's share of the database calls for. -/
structure TaskView.Owes (v : TaskView) (n : Int) (incs : List Increment) : Prop where
  row : ∀ t, v.row = some t → ∀ r ∈ v.attempts, r.attempt = n → incs = r.increments t
  unknown : (∀ r ∈ v.attempts, r.attempt ≠ n) → incs = []

omit [PyText] in
theorem AttemptRow.increments_congr {t t' : Task} {r : AttemptRow} (htype : t'.taskType = t.taskType)
    (ht : t.state = .failed → t.attempt ≠ r.attempt) (ht' : t'.state = .failed → t'.attempt ≠ r.attempt) :
    r.increments t' = r.increments t := by
  unfold increments
  rw [htype, if_neg (fun h => ht' h.1 h.2), if_neg (fun h => ht h.1 h.2)]

omit [PyText] in
/-- A step that leaves the ledger alone and neither comes from FAILED nor leads there. -/
theorem TaskView.Owes.kept {v : TaskView} {n : Int} {incs : List Increment} (h : v.Owes n incs)
    {t t' : Task} {events : List TaskEvent} (hrow : v.row = some t) (htype : t'.taskType = t.taskType)
    (ht : t.state ≠ .failed) (ht' : t'.state ≠ .failed) :
    TaskView.Owes ⟨some t', v.attempts, events⟩ n incs := by
  refine ⟨fun u hu r hr hn => ?_, h.unknown⟩
  obtain rfl := Option.some.inj hu
  rw [AttemptRow.increments_congr htype (fun hf => absurd hf ht) fun hf => absurd hf ht']
  exact h.row t hrow r hr hn

omit [PyText] in
/-- The end of the running attempt. -/
theorem TaskView.Owes.closed {v : TaskView} {n : Int} {incs more : List Increment} (h : v.Owes n incs)
    (hv : v.Ledgered) {t t' : Task} {events : List TaskEvent} {now : Time} {o : AttemptOutcome}
    {ec em : Option String} (hrow : v.row = some t) (htype : t'.taskType = t.taskType)
    (hrun : t.state = .running) (hatt : t'.attempt = t.attempt)
    (hmore : ∀ r : AttemptRow, r.attempt = t.attempt →
      (finishedAttempt now o ec em r).increments t' = more) :
    TaskView.Owes ⟨some t', closeAttempt now t.attempt o ec em v.attempts, events⟩ n
      (incs ++ if n = t.attempt then more else []) := by
  have hledger := hv.ledger hrow
  have hnotfailed : t.state ≠ .failed := by
    rw [hrun]
    decide
  refine ⟨fun u hu r' hr' hn => ?_, fun hnone => ?_⟩
  · obtain rfl := Option.some.inj hu
    obtain ⟨r, hr, rfl⟩ := List.mem_map.mp hr'
    by_cases he : r.attempt = t.attempt
    · rw [if_pos he] at hn ⊢
      obtain rfl : r.attempt = n := hn
      -- the row was open until now
      have hopen : r.outcome = none := (hledger.latest_open r hr he).mpr hrun
      rw [h.row t hrow r hr rfl, if_pos he, hmore r he]
      simp [AttemptRow.increments, hopen]
    · rw [if_neg he] at hn ⊢
      obtain rfl : r.attempt = n := hn
      rw [if_neg he, List.append_nil, AttemptRow.increments_congr htype
        (fun hf => absurd hf hnotfailed) fun _ => by rw [hatt]; exact fun heq => he heq.symm]
      exact h.row t hrow r hr rfl
  · have hnone' : ∀ r ∈ v.attempts, r.attempt ≠ n := by
      intro r hr hn
      refine hnone _ (List.mem_map_of_mem hr) ?_
      split <;> exact hn
    have hne : n ≠ t.attempt := by
      rintro rfl
      have hpos := hledger.started (by rw [hrun]; decide) (by rw [hrun]; decide)
      obtain ⟨r, hr, hn⟩ := hledger.mem_attempts.mpr ⟨hpos, le_refl _⟩
      exact hnone' r hr hn
    rw [if_neg hne, List.append_nil]
    exact h.unknown hnone'

omit [PyText] in
theorem completed_owes {v : TaskView} {n a : Int} {incs : List Increment} {w : WorkerId} {t : Task}
    (now : Time) (e : Ending) (hv : v.Ledgered) (hn : v.Owes n incs) (hrow : v.row = some t)
    (hheld : t.HeldBy a w) :
    (e.view now w t v).Owes n (incs ++ if n = a then e.increments t.taskType else []) := by
  have hpin : (e.row now t).pinned = t.pinned := (transitionWrite ..).pinned t
  have htype : (e.row now t).taskType = t.taskType := congrArg Task.Pinned.taskType hpin
  obtain ⟨hst, hatt, -⟩ := e.row_fields now t
  rw [← hheld.2.1]
  refine hn.closed hv hrow htype hheld.1 hatt fun r hra => ?_
  unfold AttemptRow.increments
  rw [htype, hst, hatt]
  cases e <;> simp [finishedAttempt, Ending.outcome, Ending.increments, Ending.toState,
    Ending.errorClass, hra]

/-- One case for each kind of step: only completions are counted. -/
theorem TaskStep.owes {c : Call} {i : TaskId} {v v' : TaskView} {n : Int} {incs : List Increment}
    (h : TaskStep c i v v') (hv : v.Ledgered) (hn : v.Owes n incs) : v'.Owes n incs ∨
      ∃ e a w t, c.op = .complete e i a w ∧ v.row = some t ∧ t.HeldBy a w ∧
        v' = e.view c.now w t v := by
  have htype : ∀ {t t' : Task}, v.row = some t → v'.row = some t' → t'.taskType = t.taskType := by
    intro t t' ht ht'
    obtain ⟨u, hu, hpin⟩ := h.row_pinned ht
    obtain rfl := Option.eq_some_unique ht' hu
    exact congrArg Task.Pinned.taskType hpin
  have hq : ∀ {s : State}, s = .queued → s ≠ .failed := fun hs => by rw [hs]; decide
  have hr : ∀ {s : State}, s = .running → s ≠ .failed := fun hs => by rw [hs]; decide
  cases h with
  | skip => exact .inl hn
  | noted e => exact .inl ⟨hn.row, hn.unknown⟩
  | submitted hop hv' =>
    subst hv'
    exact .inl ⟨fun t ht r hr => (nomatch hr), fun _ => hn.unknown nofun⟩
  | @claimed args scans t hop hrow hc =>
    have hqueued := (Task.claimable_iff.mp hc).1
    have hledger := hv.ledger hrow
    have hsame : ∀ r ∈ v.attempts, r.attempt = n →
        incs = r.increments ((claimWrite c.now args.workerId args.leaseTtlS).row t) := by
      intro r hr' hrn
      rw [AttemptRow.increments_congr (htype hrow rfl) (fun hf => absurd hf (hq hqueued))
        fun hf => by cases hf]
      exact hn.row t hrow r hr' hrn
    refine .inl ⟨fun u hu r hr' hrn => ?_, fun hnone => ?_⟩
    · obtain rfl := Option.some.inj hu
      rcases List.mem_append.mp hr' with hr' | hr'
      · exact hsame r hr' hrn
      · obtain rfl := List.mem_singleton.mp hr'
        refine hn.unknown fun r hr'' hrn' => ?_
        have hle := hledger.attempt_le hr''
        have hnew : t.attempt + 1 = n := hrn
        omega
    · exact hn.unknown fun r hr' => hnone r (List.mem_append_left _ hr')
  | @renewed w a ttl t hop hrow hf =>
    exact .inl (hn.kept hrow (htype hrow rfl) (hr hf.1.1) (hr hf.1.1))
  | @completed e a w t hop hrow hheld => exact .inr ⟨e, a, w, t, hop, hrow, hheld, rfl⟩
  | @reaped o limit scan t hop hrow hrun hov =>
    refine .inl ?_
    have hclosed : (o.view c.now t v).Owes n (incs ++ if n = t.attempt then [] else []) :=
      hn.closed hv hrow (htype hrow rfl) hrun (o.row_fields c.now t).2.1 fun r _ => rfl
    simpa using hclosed
  | @cancelled t t' e hop hrow hq' hc =>
    exact .inl (hn.kept hrow (htype hrow rfl) (hq hq') (by rw [(cancelled_fields hc).1]; decide))
  | @flagged t e hop hrow hrun hf =>
    exact .inl (hn.kept hrow (htype hrow rfl) (hr hrun) (hr hrun))

/-! ## One step of the system -/

omit [PyText] in
/-- The increments of an attempt, those of rejected completions apart. -/
def attemptIncrements (i : TaskId) (n : Int) (log : List ((TaskId × Int) × Increment)) :
    List Increment :=
  Tally.entries (i, n) (log.filter fun e => e.2.isOutcome)

/-- The log and the ledger agree, and what is in flight is the task it was claimed as. -/
structure Counted (log : List ((TaskId × Int) × Increment)) (s : System) : Prop where
  ledgered : ∀ i, (s.db.view i).Ledgered
  claimed : Remembers Claimed s
  owes : ∀ i n, (s.db.view i).Owes n (attemptIncrements i n log)

omit [PyText] in
theorem attemptIncrements_append (i : TaskId) (n : Int) (log more : List ((TaskId × Int) × Increment)) :
    attemptIncrements i n (log ++ more) =
      attemptIncrements i n log ++ attemptIncrements i n more := by
  unfold attemptIncrements
  rw [List.filter_append, Tally.entries_append]

omit [PyText] in
theorem Ending.increments_outcome (taskType : String) (e : Ending) :
    ∀ c ∈ e.increments taskType, c.isOutcome = true := by
  cases e <;> simp [increments, Increment.isOutcome]

omit [PyText] in
theorem attemptIncrements_tagged (key : TaskId × Int) {cs : List Increment}
    (hcs : ∀ c ∈ cs, c.isOutcome = true) {i : TaskId} {n : Int} :
    attemptIncrements i n (cs.map fun c => (key, c)) = if key = (i, n) then cs else [] := by
  unfold attemptIncrements
  rw [List.filter_eq_self.mpr]
  · split
    · rename_i he
      rw [he, Tally.entries_tagged]
    · rename_i hne
      exact Tally.entries_other hne cs
  · intro e he
    obtain ⟨c, hc, rfl⟩ := List.mem_map.mp he
    exact hcs c hc

/-- What `_finalize` counts is what the completion was, if it was applied. -/
theorem finalize_counts {s : System} {w : WorkerId} {p : Worker} {k : Nat} {x : Attempt}
    {outcome : Outcome} {c : Bool} {rng : Draws} {e : Ending} (hp : s.workers w = some p)
    (hx : p.inflight[k]? = some x) (hphase : x.phase = .finalizing outcome c rng)
    (hending : finalizeEnding x.row outcome c rng = some e) :
    (Holds x.row.id x.row.attempt w s.db → s.due (.worker w (.attempt k .finalize)) =
      (e.increments x.row.taskType).map fun i => (x.key, i)) ∧
    (¬ Holds x.row.id x.row.attempt w s.db → ∃ why, s.due (.worker w (.attempt k .finalize)) =
      [.staleWritesRejected why].map fun i => (x.key, i)) := by
  have hcounts : s.due (.worker w (.attempt k .finalize)) =
      (finalizeCounts x.row outcome c rng ((perform s.db s.clock
        (.complete e x.row.id x.row.attempt w)).map Prod.snd)).map fun i => (x.key, i) := by
    unfold System.due
    dsimp only
    rw [hp, Option.bind_some, hx, Option.elim_some, hphase]
    dsimp only
    rw [hending, Option.elim_some]
  obtain ⟨db', res, h⟩ := completeAttempt_returns s.db s.clock e x.row.id x.row.attempt w
  have hreply : (perform s.db s.clock (.complete e x.row.id x.row.attempt w)).map Prod.snd =
      .ok (.completed res) := by
    show ((completeAttempt s.db s.clock _ _ _ _).map _).map Prod.snd = _
    rw [h]
    rfl
  rw [hcounts, hreply]
  obtain ⟨-, ⟨t, ht, hheld, rfl, -⟩ | ⟨hno, hres, -⟩⟩ := completeAttempt_ok h
  · refine ⟨fun _ => ?_, fun hnot => absurd ⟨t, ht, hheld⟩ hnot⟩
    rw [← recordOutcome_mirrors hending]
    rfl
  · refine ⟨fun hheld => ?_, fun _ => ?_⟩
    · obtain ⟨t, ht, hheld⟩ := hheld
      exact absurd hheld (hno t ht)
    · cases res with
      | applied t => cases hres
      | rejected why t => exact ⟨why.value, rfl⟩

/-- Nothing else counts. -/
theorem due_nil {s : System} {a : Action} (h : ∀ w k p x outcome c rng e,
    a = .worker w (.attempt k .finalize) → s.workers w = some p → p.inflight[k]? = some x →
      x.phase = .finalizing outcome c rng → finalizeEnding x.row outcome c rng ≠ some e) :
    s.due a = [] := by
  unfold System.due
  split
  · rename_i w k
    cases hx : (s.workers w).bind fun p => p.inflight[k]? with
    | none => rfl
    | some x =>
      obtain ⟨p, hp, hx⟩ := Option.bind_eq_some_iff.mp hx
      rw [Option.elim_some]
      split
      · rename_i outcome c rng hphase
        cases hending : finalizeEnding x.row outcome c rng with
        | none => rfl
        | some e => exact absurd hending (h w k p x _ _ _ _ rfl hp hx hphase)
      · rfl
  · rfl

/-- **A finalisation** that is applied counts what it did to the row, and one that is
refused nothing about it. -/
theorem Counted.finalized {log : List ((TaskId × Int) × Increment)} {s : System} (hs : Counted log s)
    {w : WorkerId} {p : Worker} {k : Nat} {x : Attempt} {outcome : Outcome} {c : Bool} {rng : Draws}
    {e : Ending} (hp : s.workers w = some p) (hx : p.inflight[k]? = some x)
    (hphase : x.phase = .finalizing outcome c rng)
    (hending : finalizeEnding x.row outcome c rng = some e) (i : TaskId) (n : Int) :
    ((commit s.db ⟨s.clock, .complete e x.row.id x.row.attempt w⟩).view i).Owes n
      (attemptIncrements i n log ++
        attemptIncrements i n (s.due (.worker w (.attempt k .finalize)))) := by
  have howes := hs.owes i n
  have hledgered := hs.ledgered i
  obtain ⟨happlied, hrejected⟩ := finalize_counts hp hx hphase hending
  have hstep := (commit_step s.db ⟨s.clock, .complete e x.row.id x.row.attempt w⟩ i).owes hledgered
    howes
  by_cases hheld : Holds x.row.id x.row.attempt w s.db
  · rw [happlied hheld, attemptIncrements_tagged _ (Ending.increments_outcome _ _)]
    by_cases hi : x.row.id = i
    · subst hi
      obtain ⟨t, ht, hheld⟩ := hheld
      obtain ⟨u, hu, hpin⟩ := hs.claimed w p hp x (List.mem_of_getElem? hx)
      obtain rfl : t = u := Option.eq_some_unique ht hu
      have htype : t.taskType = x.row.taskType := congrArg Task.Pinned.taskType hpin
      rw [commit_completed ht hheld, ← htype]
      have hdone := completed_owes s.clock e hledgered howes ht hheld
      by_cases hn : n = x.row.attempt
      · rw [if_pos hn] at hdone
        rw [if_pos (by rw [hn]; rfl)]
        exact hdone
      · rw [if_neg hn] at hdone
        have hkey : x.key ≠ (x.row.id, n) := fun he => hn (Prod.mk.inj he).2.symm
        rw [if_neg hkey]
        exact hdone
    · have hkey : x.key ≠ (i, n) := fun he => hi (Prod.mk.inj he).1
      rw [if_neg hkey, List.append_nil]
      rcases hstep with hkept | ⟨e', b, v, t, hop, -⟩
      · exact hkept
      · cases hop
        exact absurd rfl hi
  · obtain ⟨why, hcounts⟩ := hrejected hheld
    rw [hcounts]
    show TaskView.Owes _ n (attemptIncrements i n log ++ [])
    rw [List.append_nil]
    rcases hstep with hkept | ⟨e', b, v, t, hop, ht, hheld', -⟩
    · exact hkept
    · cases hop
      exact absurd ⟨t, ht, hheld'⟩ hheld

theorem Counted.step {log : List ((TaskId × Int) × Increment)} {s s' : System} {a : Action}
    (hs : Counted log s) (h : SystemStep s a s') : Counted (log ++ s.due a) s' := by
  refine ⟨step_keeps commit_ledgered h hs.ledgered, claimed_invariant.system h hs.claimed,
    fun i n => ?_⟩
  have howes := hs.owes i n
  have hledgered := hs.ledgered i
  rw [attemptIncrements_append]
  by_cases hfinal : ∃ w k p x outcome c rng e, a = .worker w (.attempt k .finalize) ∧
    s.workers w = some p ∧ p.inflight[k]? = some x ∧ x.phase = .finalizing outcome c rng ∧
    finalizeEnding x.row outcome c rng = some e
  · obtain ⟨w, k, p, x, outcome, c, rng, e, rfl, hp, hx, hphase, hending⟩ := hfinal
    rw [step_db h, op?_finalize hp hx hphase, hending]
    exact hs.finalized hp hx hphase hending i n
  · rw [due_nil fun w k p x outcome c rng e ha hp hx hphase hending =>
      hfinal ⟨w, k, p, x, outcome, c, rng, e, ha, hp, hx, hphase, hending⟩]
    show TaskView.Owes _ n (attemptIncrements i n log ++ [])
    rw [List.append_nil, step_db h]
    split
    · exact howes
    rename_i op hop
    rcases (commit_step s.db ⟨s.clock, op⟩ i).owes hledgered howes with
      hkept | ⟨e, b, v, t, he, ht, hheld, hview⟩
    · exact hkept
    -- the other completion is a hand-back, which no branch counts
    obtain rfl : op = .complete e i b v := he
    obtain ⟨p, b', rfl, hp, hissues⟩ := step_completes h hop
    obtain ⟨-, ⟨k, x, outcome, c, rng, rfl, hx, hphase, hending, -⟩ | ⟨rest, -, -, rfl⟩⟩ :=
      hissues.completes
    · exact absurd ⟨v, k, p, x, outcome, c, rng, e, rfl, hp, hx, hphase, hending⟩ hfinal
    · rw [hview]
      have hdone := completed_owes s.clock (.abandoned "worker_shutdown") hledgered howes ht hheld
      simpa [Ending.increments] using hdone

/-! ## Totals -/

/-- The task of a row, with the row, has the property. -/
def Database.ofRow (db : Database) (p : Task → AttemptRow → Bool) (r : AttemptRow) : Bool :=
  (db.task? r.taskId).any fun t => p t r

/-- What the workers owe the counters for a row of the ledger. -/
def Database.owed (db : Database) (r : AttemptRow) : List Increment :=
  (db.task? r.taskId).elim [] r.increments

omit [PyText] in
theorem Counted.settles {log : List ((TaskId × Int) × Increment)} {s : System} (hs : Counted log s) :
    Tally.Settles AttemptRow.key s.db.owed s.db.attempts.rows
      (log.filter fun e => e.2.isOutcome) where
  nodup := s.db.attempts.nodup
  paid r hr := by
    obtain ⟨t, ht⟩ := Option.isSome_iff_exists.mp (s.db.attempts_task r hr)
    have ht' : s.db.task? r.taskId = some t := ht
    unfold Database.owed
    rw [ht', Option.elim_some]
    exact (hs.owes r.taskId r.attempt).row t ht' r (mem_view_attempts.mp hr) rfl
  only e he := by
    by_contra hnone
    have hnil := (hs.owes e.1.1 e.1.2).unknown fun r hr hn => by
      have hid : r.taskId = e.1.1 := by
        simpa [Database.view] using (List.mem_filter.mp hr).2
      exact hnone ⟨r, (List.mem_filter.mp hr).1, Prod.ext hid hn⟩
    have hmem : e.2 ∈ attemptIncrements e.1.1 e.1.2 log :=
      List.mem_map_of_mem (List.mem_filter.mpr ⟨he, decide_eq_true rfl⟩)
    rw [hnil] at hmem
    cases hmem

omit [PyText] in
theorem counterValue_outcome {c : Increment} (hc : c.isOutcome = true)
    (log : List ((TaskId × Int) × Increment)) :
    counterValue c log = ((log.filter fun e => e.2.isOutcome).map Prod.snd).count c := by
  have hmap : (log.filter fun e => e.2.isOutcome).map Prod.snd =
      (log.map Prod.snd).filter Increment.isOutcome := by
    rw [List.filter_map]
    rfl
  rw [hmap, List.count_filter hc]
  rfl

omit [PyText] in
/-- A counter is the number of the ledger's rows that call for it. -/
theorem Counted.value {log : List ((TaskId × Int) × Increment)} {s : System} (hs : Counted log s)
    {c : Increment} (hc : c.isOutcome = true) (p : Task → AttemptRow → Bool)
    (hp : ∀ t r, (r.increments t).count c = if p t r then 1 else 0) :
    counterValue c log = (s.db.attempts.rows.filter (s.db.ofRow p)).length := by
  rw [counterValue_outcome hc, hs.settles.perm.count_eq]
  refine Tally.count_flatMap c _ fun r _ => ?_
  unfold Database.owed Database.ofRow
  cases s.db.task? r.taskId with
  | none => simp
  | some t => simpa using hp t r

/-- A completion that has committed, on its way back to the worker. -/
structure Returning where
  workerId : WorkerId
  due : List ((TaskId × Int) × Increment)

/-- The system, and what its workers have counted. -/
structure Counting where
  sys : System
  counted : List ((TaskId × Int) × Increment) := []
  returning : List Returning := []
  lost : List ((TaskId × Int) × Increment) := []

inductive CountingAction where
  | act (a : Action)
  /-- the COMMIT has returned, and `_finalize` counts -/
  | returns (k : Nat)
  /-- the attempt is cancelled at its COMMIT, or its connection or process is gone: the row
  is written, and nobody counts it -/
  | cutOff (k : Nat)

def Counting.initial : Counting := { sys := .initial }

def Action.completing (s : System) : Action → Option Returning
  | .worker w (.attempt k .finalize) => some ⟨w, s.due (.worker w (.attempt k .finalize))⟩
  | _ => none

def Stage.isExited : Stage → Bool
  | exited => true
  | _ => false

/-- The process is still there. -/
def Counting.runs (g : Counting) (w : WorkerId) : Bool :=
  (g.sys.workers w).any fun p => !p.stage.isExited

def Counting.step (g : Counting) : CountingAction → Option Counting
  | .act a => (ControlPlane.step g.sys a).map fun s =>
    { g with sys := s, returning := g.returning ++ (a.completing g.sys).toList }
  | .returns k => ((g.returning[k]?).filter fun r => g.runs r.workerId).map fun r =>
    { g with counted := g.counted ++ r.due, returning := g.returning.eraseIdx k }
  | .cutOff k => (g.returning[k]?).map fun r =>
    { g with lost := g.lost ++ r.due, returning := g.returning.eraseIdx k }

omit [PyText] in
/-- What a counter says, over all workers. -/
def Counting.value (g : Counting) (c : Increment) : Nat := counterValue c g.counted

section
omit [PyText]

end

end ControlPlane

import ControlPlane.Server.Fencing
import ControlPlane.Worker.Loop

/-! # The whole system

The API, the reaper and any number of workers around one database, their steps
interleaved in any order, with the clock advancing as it likes between them. A
worker that pauses is one whose steps do not come. Every run leaves a database
that a history of transactions leaves, so what holds of all histories holds
here; what is new is what the workers remember between their transactions. -/

namespace ControlPlane
open Keyed Fallible Runs

structure System where
  clock : Time
  db : Database
  workers : WorkerId → Option Worker

/-- Nothing submitted, no worker started. -/
def System.initial : System := ⟨0, .empty, fun _ => none⟩

/-- The transactions of the API and the reaper. -/
def Op.external : Op → Bool
  | createTenant .. => true
  | submitTask .. => true
  | cancelTask _ => true
  | cancelAgentTasks .. => true
  | reap .. => true
  | markDeadWorkers _ => true
  | _ => false

inductive Action where
  | advance (d : Time)
  | external (op : Op)
  /-- a process starts and registers under a fresh id -/
  | start (w : WorkerId) (config : WorkerConfig)
  | worker (w : WorkerId) (a : WorkerAction)

variable [PyText]

def step (s : System) : Action → Option System
  | .advance d => if 0 ≤ d then some { s with clock := s.clock + d } else none
  | .external op =>
    if op.external then some { s with db := commit s.db ⟨s.clock, op⟩ } else none
  | .start w config =>
    if (s.workers w).isSome then none
    else
      -- the constructor normalises what the machine offers
      let config := { config with capabilities := normalised config.capabilities }
      let op := Op.registerWorker w config.capacity config.capabilities
      match perform s.db s.clock op with
      | .ok (db, _) => some { s with db, workers := Function.update s.workers w (some { config }) }
      | .error _ => none
  | .worker w a =>
    (s.workers w).bind fun p => (runForever w p a).map fun m =>
      { s with
        db := (m.run s.db s.clock).1
        workers := Function.update s.workers w (some (m.run s.db s.clock).2) }

/-- A step as a relation. -/
def SystemStep (s : System) (a : Action) (s' : System) : Prop := step s a = some s'

/-! ## Steps and transactions -/

/-- The transaction of a step. -/
def System.op? (s : System) : Action → Option Op
  | .advance _ => none
  | .external op => some op
  | .start w config =>
    some (.registerWorker w config.capacity (normalised config.capabilities))
  | .worker w a => (s.workers w).bind fun p => (runForever w p a).bind Move.op?

theorem Move.run_db {α : Type} (m : Move α) (db : Database) (now : Time) :
    (m.run db now).1 = match m.op? with
      | none => db
      | some op => commit db ⟨now, op⟩ := by
  cases m <;> rfl

/-- **A step commits its transaction**, if it has one, at the time of the clock,
and writes nothing else. -/
theorem step_db {s s' : System} {a : Action} (h : SystemStep s a s') :
    s'.db = match s.op? a with
      | none => s.db
      | some op => commit s.db ⟨s.clock, op⟩ := by
  unfold SystemStep step at h
  cases a with
  | advance d =>
    dsimp only at h
    split at h <;> cases h
    rfl
  | external op =>
    dsimp only at h
    split at h <;> cases h
    rfl
  | start w config =>
    dsimp only at h
    split at h
    · cases h
    · split at h
      · rename_i db r hok
        cases h
        exact (commit_of_ok hok).symm
      · cases h
  | worker w a =>
    dsimp only at h
    obtain ⟨p, hp, h⟩ := Option.bind_eq_some_iff.mp h
    obtain ⟨m, hm, rfl⟩ := Option.map_eq_some_iff.mp h
    have hop : s.op? (.worker w a) = m.op? := by
      simp only [System.op?, hp, Option.bind_some, hm]
    rw [hop]
    exact m.run_db s.db s.clock

/-- The transaction of `_finalize`. -/
theorem op?_finalize {s : System} {w : WorkerId} {k : Nat} {p : Worker} {x : Attempt}
    {outcome : Outcome} {c : Bool} {rng : Draws} (hp : s.workers w = some p)
    (hx : p.inflight[k]? = some x) (hphase : x.phase = .finalizing outcome c rng) :
    s.op? (.worker w (.attempt k .finalize)) =
      (finalizeEnding x.row outcome c rng).map fun e => .complete e x.row.id x.row.attempt w := by
  unfold System.op?
  dsimp only
  rw [hp, Option.bind_some, runForever_attempt, hx, Option.bind_some]
  unfold runAttempt
  rw [hphase]
  dsimp only
  cases finalizeEnding x.row outcome c rng <;> rfl

theorem step_clock {s s' : System} {a : Action} (h : SystemStep s a s') : s.clock ≤ s'.clock := by
  unfold SystemStep step at h
  cases a with
  | advance d =>
    dsimp only at h
    split at h
    · rename_i hd
      cases h
      exact le_add_of_nonneg_right hd
    · cases h
  | external op =>
    dsimp only at h
    split at h <;> cases h
    exact le_refl _
  | start w config =>
    dsimp only at h
    split at h
    · cases h
    · split at h <;> cases h
      exact le_refl _
  | worker w b =>
    dsimp only at h
    obtain ⟨p, -, h⟩ := Option.bind_eq_some_iff.mp h
    obtain ⟨m, -, rfl⟩ := Option.map_eq_some_iff.mp h
    exact le_refl _

/-- What every transaction keeps of the database, every step keeps. -/
theorem step_keeps {I : Database → Prop} (hI : ∀ db c, I db → I (commit db c)) {s s' : System}
    {a : Action} (h : SystemStep s a s') (hs : I s.db) : I s'.db := by
  rw [step_db h]
  split
  · exact hs
  · exact hI _ _ hs

/-- **Every run of the system is a history of its database**, so the results about
histories are results about the system. -/
theorem system_history {acts : List Action} {s : System}
    (h : Run SystemStep .initial acts s) : ∃ calls, s.db = history .empty calls := by
  have hstep : ∀ {s a s'}, SystemStep s a s' → ∃ calls, Run Step s.db calls s'.db := by
    intro s a s' hst
    have hdb := step_db hst
    split at hdb
    · exact ⟨[], hdb ▸ .nil _⟩
    · exact ⟨[_], .single hdb.symm⟩
  obtain ⟨calls, hcalls⟩ := Run.simulate (f := System.db) hstep h
  exact ⟨calls, run_history hcalls⟩

/-! ## What the workers remember -/

omit [PyText] in
theorem Move.op?_map {α β : Type} (f : α → β) (m : Move α) : (m.map f).op? = m.op? := by
  cases m <;> rfl

theorem Move.run_map {α β : Type} (f : α → β) (m : Move α) (db : Database) (now : Time) :
    (m.map f).run db now = ((m.run db now).1, f (m.run db now).2) := by
  cases m <;> rfl

theorem reply_ok {db : Database} {now : Time} {op : Op} {r : Reply}
    (h : (perform db now op).map Prod.snd = .ok r) :
    perform db now op = .ok (commit db ⟨now, op⟩, r) := by
  obtain ⟨q, hp, he⟩ := map_ok h
  cases he
  rw [commit_of_ok (c := ⟨now, op⟩) hp]
  exact hp

/-- The renewal coroutine leaves the row and the other coroutine alone. -/
theorem renewUntilStopped_kept {w : WorkerId} {ttl : Int} {x : Attempt} {b : RenewalAction}
    {n : Move Attempt} (h : renewUntilStopped w ttl x b = some n) (db : Database) (now : Time) :
    (n.run db now).2.row = x.row ∧ (n.run db now).2.phase = x.phase := by
  unfold renewUntilStopped at h
  split at h
  · split at h <;> cases h
    exact ⟨rfl, rfl⟩
  · split at h <;> cases h
    exact ⟨rfl, rfl⟩
  · cases h
    dsimp only [Move.run]
    split <;> exact ⟨rfl, rfl⟩
  all_goals cases h
  all_goals exact ⟨rfl, rfl⟩

/-- An attempt keeps the row it was claimed with. -/
theorem AttemptMove.row {w : WorkerId} {ttl : Int} {x : Attempt} {owned : Owned} {a : AttemptAction}
    {m : Move (Attempt × Owned)} (h : AttemptMove w ttl x owned a m) (db : Database) (now : Time) :
    (m.run db now).2.1.row = x.row := by
  cases h with
  | @renewal b n hphase hn =>
    rw [Move.run_map]
    exact (renewUntilStopped_kept hn db now).1
  | silent hlike hreport => exact hlike.row
  | noted hnext => exact (hnext _).1.row
  | finalized hphase hending hnext => exact (hnext _).1.row

/-- A property of the database and an attempt in flight that a claim establishes
and every transaction and every step of the attempt keeps. -/
structure AttemptInvariant (A : WorkerId → Database → Attempt → Prop) : Prop where
  commit : ∀ {w db x} c, A w db x → A w (commit db c) x
  claimed : ∀ {w now args scans db db' rows}, args.workerId = w →
    claimTasks db now args scans = .ok (db', rows) → ∀ row ∈ rows, A w db' { row }
  step : ∀ {w db now ttl x owned a m}, AttemptMove w ttl x owned a m → A w db x →
    A w (m.run db now).1 (m.run db now).2.1

/-- All attempts in flight have the property. -/
def Remembers (A : WorkerId → Database → Attempt → Prop) (s : System) : Prop :=
  ∀ w p, s.workers w = some p → ∀ x ∈ p.inflight, A w s.db x

/-- The attempts of the worker whose step it is. -/
theorem AttemptInvariant.worker {A : WorkerId → Database → Attempt → Prop} (hA : AttemptInvariant A)
    {w : WorkerId} {p : Worker} {a : WorkerAction} {m : Move Worker} (h : WorkerMove w p a m)
    {db : Database} (now : Time) (hp : ∀ x ∈ p.inflight, A w db x) :
    ∀ x ∈ (m.run db now).2.inflight, A w (m.run db now).1 x := by
  cases h with
  | silent hin => exact fun x hx => hp x (hin hx)
  | liveness hop hin =>
    intro x hx
    exact hA.commit _ (hp x (hin _ ▸ hx))
  | claimed =>
    intro x hx
    dsimp only [Move.run, Worker.dispatch] at hx ⊢
    split at hx
    · rename_i rows hreply
      rcases List.mem_append.mp hx with hx | hx
      · exact hA.commit _ (hp x hx)
      · obtain ⟨row, hrow, rfl⟩ := List.mem_map.mp hx
        obtain ⟨rows', hclaim, he⟩ := mapSnd_ok (reply_ok hreply)
        obtain rfl := Reply.claimed.inj he
        exact hA.claimed rfl hclaim row hrow
    · exact hA.commit _ (hp x hx)
  | handedBack hstage => exact fun x hx => hA.commit _ (hp x hx)
  | attempt hx hn =>
    intro y hy
    rw [Move.run_map] at hy ⊢
    rcases List.mem_or_eq_of_mem_set hy with hy | rfl
    · rw [Move.run_db]
      split
      · exact hp y hy
      · exact hA.commit _ (hp y hy)
    · exact hA.step hn (hp _ (List.mem_of_getElem? hx))

omit [PyText] in
theorem update_some {ws : WorkerId → Option Worker} {w v : WorkerId} {p q : Worker}
    (h : Function.update ws w (some p) v = some q) : (v = w ∧ q = p) ∨ ws v = some q := by
  by_cases hv : v = w
  · subst hv
    rw [Function.update_self] at h
    exact Or.inl ⟨rfl, (Option.some.inj h).symm⟩
  · rw [Function.update_of_ne hv] at h
    exact Or.inr h

/-- **What one attempt keeps, all attempts of the system keep**, at every step. -/
theorem AttemptInvariant.system {A : WorkerId → Database → Attempt → Prop} (hA : AttemptInvariant A)
    {s s' : System} {a : Action} (h : SystemStep s a s') (hs : Remembers A s) : Remembers A s' := by
  have hdb := step_db h
  -- the attempts of the other workers only see the transaction
  have hother : ∀ w x, A w s.db x → A w s'.db x := by
    intro w x hx
    rw [hdb]
    split
    · exact hx
    · exact hA.commit _ hx
  unfold SystemStep ControlPlane.step at h
  cases a with
  | advance d =>
    dsimp only at h
    split at h <;> cases h
    exact hs
  | external op =>
    dsimp only at h
    split at h <;> cases h
    exact fun w p hp x hx => hother w x (hs w p hp x hx)
  | start w config =>
    dsimp only at h
    split at h
    · cases h
    · split at h
      · cases h
        intro v p hp x hx
        rcases update_some hp with ⟨rfl, rfl⟩ | hp
        · cases hx
        · exact hother v x (hs v p hp x hx)
      · cases h
  | worker w a =>
    dsimp only at h
    obtain ⟨p, hp, h⟩ := Option.bind_eq_some_iff.mp h
    obtain ⟨m, hm, rfl⟩ := Option.map_eq_some_iff.mp h
    intro v q hq x hx
    rcases update_some hq with ⟨rfl, rfl⟩ | hq
    · exact hA.worker (runForever_move hm) s.clock (hs v p hp) x hx
    · exact hother v x (hs v q hq x hx)

omit [PyText] in
theorem initial_remembers (A : WorkerId → Database → Attempt → Prop) :
    Remembers A .initial := fun _ _ hp => by cases hp

/-! ## Who issues which transaction -/

/-- The transactions of a worker. -/
inductive Issues (w : WorkerId) (p : Worker) : WorkerAction → Op → Prop
  | liveness {a : WorkerAction} {op : Op}
      (hop : op = .heartbeat w ∨ ∃ status, op = .setWorkerStatus w status) : Issues w p a op
  | claimed {scans : Nat → Scan} :
      Issues w p (.claim scans) (.claimTasks (p.claimArgs w) scans)
  | renewed {k : Nat} {a : AttemptAction} {x : Attempt} (hx : p.inflight[k]? = some x) :
      Issues w p (.attempt k a) (.renewLease x.row.id w x.row.attempt p.config.leaseTtlS)
  | noted {k : Nat} {a : AttemptAction} {x : Attempt} {ty : EventType} {data : Json}
      (hx : p.inflight[k]? = some x) :
      Issues w p (.attempt k a) (.recordEvent x.row.id ty (some x.row.attempt) (some w) data)
  | finalized {k : Nat} {x : Attempt} {outcome : Outcome} {cancelRequested : Bool} {rng : Draws}
      {ending : Ending} (hx : p.inflight[k]? = some x)
      (hphase : x.phase = .finalizing outcome cancelRequested rng)
      (hending : finalizeEnding x.row outcome cancelRequested rng = some ending) :
      Issues w p (.attempt k .finalize) (.complete ending x.row.id x.row.attempt w)
  | handedBack {taskId : TaskId} {attempt : Int} {rest : Owned}
      (hstage : p.stage = .handingBack ((taskId, attempt) :: rest)) :
      Issues w p .handBack (.complete (.abandoned "worker_shutdown") taskId attempt w)

omit [PyText] in
theorem renewUntilStopped_op {w : WorkerId} {ttl : Int} {x : Attempt} {b : RenewalAction}
    {n : Move Attempt} {op : Op} (h : renewUntilStopped w ttl x b = some n) (hop : n.op? = some op) :
    op = .renewLease x.row.id w x.row.attempt ttl := by
  unfold renewUntilStopped at h
  split at h
  · split at h <;> cases h
    cases hop
  · split at h <;> cases h
    cases hop
  · cases h
    exact (Option.some.inj hop).symm
  all_goals cases h
  all_goals cases hop

omit [PyText] in
theorem WorkerMove.issues {w : WorkerId} {p : Worker} {a : WorkerAction} {m : Move Worker} {op : Op}
    (h : WorkerMove w p a m) (hop : m.op? = some op) : Issues w p a op := by
  cases h with
  | silent hin => cases hop
  | liveness hlive hin => cases hop; exact .liveness hlive
  | claimed => cases hop; exact .claimed
  | handedBack hstage => cases hop; exact .handedBack hstage
  | attempt hx hn =>
    rw [Move.op?_map] at hop
    cases hn with
    | renewal hphase hb =>
      rw [Move.op?_map] at hop
      rw [renewUntilStopped_op hb hop]
      exact .renewed hx
    | silent hlike hreport => cases hop
    | noted hnext => cases hop; exact .noted hx
    | finalized hphase hending hnext => cases hop; exact .finalized hx hphase hending

omit [PyText] in
/-- A worker claims in one place, for itself. -/
theorem Issues.claims {w : WorkerId} {p : Worker} {a : WorkerAction} {args : ClaimArgs}
    {scans : Nat → Scan} (h : Issues w p a (.claimTasks args scans)) :
    a = .claim scans ∧ args = p.claimArgs w := by
  generalize hop : Op.claimTasks args scans = op at h
  cases h with
  | liveness hlive => obtain rfl | ⟨status, rfl⟩ := hlive <;> cases hop
  | claimed => cases hop; exact ⟨rfl, rfl⟩
  | renewed hx => cases hop
  | noted hx => cases hop
  | finalized hx hphase hending => cases hop
  | handedBack hstage => cases hop

omit [PyText] in
/-- A worker completes an attempt in two places: at its end and in the drain. -/
theorem Issues.completes {w v : WorkerId} {p : Worker} {a : WorkerAction} {e : Ending} {i : TaskId}
    {n : Int} (h : Issues w p a (.complete e i n v)) :
    v = w ∧ ((∃ k x outcome c rng, a = .attempt k .finalize ∧ p.inflight[k]? = some x ∧
        x.phase = .finalizing outcome c rng ∧ finalizeEnding x.row outcome c rng = some e ∧
        i = x.row.id ∧ n = x.row.attempt) ∨
      ∃ rest, a = .handBack ∧ p.stage = .handingBack ((i, n) :: rest) ∧
        e = .abandoned "worker_shutdown") := by
  generalize hop : Op.complete e i n v = op at h
  cases h with
  | liveness hlive => obtain rfl | ⟨status, rfl⟩ := hlive <;> cases hop
  | claimed => cases hop
  | renewed hx => cases hop
  | noted hx => cases hop
  | finalized hx hphase hending =>
    cases hop
    exact ⟨rfl, Or.inl ⟨_, _, _, _, _, rfl, hx, hphase, hending, rfl, rfl⟩⟩
  | handedBack hstage =>
    cases hop
    exact ⟨rfl, Or.inr ⟨_, rfl, hstage, rfl⟩⟩

/-- **The transactions of the system** are those of the API and the reaper, the
registration of a worker, and those its workers issue. -/
theorem step_issues {s s' : System} {a : Action} {op : Op} (h : SystemStep s a s')
    (hop : s.op? a = some op) :
    (a = .external op ∧ op.external = true) ∨ (∃ w capacity caps, op = .registerWorker w capacity caps) ∨
      ∃ w p b, a = .worker w b ∧ s.workers w = some p ∧ Issues w p b op := by
  unfold SystemStep step at h
  cases a with
  | advance d => cases hop
  | external op' =>
    obtain rfl := Option.some.inj hop
    dsimp only at h
    split at h
    · rename_i hext
      exact Or.inl ⟨rfl, hext⟩
    · cases h
  | start v config =>
    obtain rfl := Option.some.inj hop
    exact Or.inr (Or.inl ⟨_, _, _, rfl⟩)
  | worker v b =>
    dsimp only at h
    obtain ⟨p, hp, h⟩ := Option.bind_eq_some_iff.mp h
    obtain ⟨m, hm, -⟩ := Option.map_eq_some_iff.mp h
    simp only [System.op?, hp, Option.bind_some, hm] at hop
    exact Or.inr (Or.inr ⟨v, p, b, rfl, hp, (runForever_move hm).issues hop⟩)

/-- Only workers complete attempts. -/
theorem step_completes {s s' : System} {a : Action} {e : Ending} {i : TaskId} {n : Int}
    {w : WorkerId} (h : SystemStep s a s') (hop : s.op? a = some (.complete e i n w)) :
    ∃ p b, a = .worker w b ∧ s.workers w = some p ∧ Issues w p b (.complete e i n w) := by
  obtain ⟨-, hext⟩ | ⟨v, cap, caps, hreg⟩ | ⟨v, p, b, ha, hp, hissues⟩ := step_issues h hop
  · cases hext
  · cases hreg
  · obtain ⟨rfl, -⟩ := hissues.completes
    exact ⟨p, b, ha, hp, hissues⟩

end ControlPlane

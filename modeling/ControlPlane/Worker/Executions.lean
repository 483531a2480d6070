import ControlPlane.Server.Ledger
import ControlPlane.Worker.Fleet

/-! # What the adapters did

The database does not see an adapter start or end, only what the worker then writes.
The trace of a run lists the starts and ends in order. An attempt of a task is executed
at most once, by the worker that claimed it, and the result of a task that SUCCEEDED is
what the adapter returned in its last attempt. -/

namespace ControlPlane
open Keyed Fallible Runs

inductive AdapterEvent where
  | begun
  | ended (outcome : Outcome)

def AdapterEvent.isBegun : AdapterEvent → Bool
  | begun => true
  | ended _ => false

/-- What a worker did with the adapter of an attempt. -/
structure Mark where
  workerId : WorkerId
  taskId : TaskId
  attempt : Int
  what : AdapterEvent

def Attempt.mark? (w : WorkerId) (x : Attempt) : AttemptAction → Option Mark
  | .begin => match x.phase with
    | .dispatched => if x.row.spanOpens then some ⟨w, x.row.id, x.row.attempt, .begun⟩ else none
    | _ => none
  | .adapterEnds outcome => match x.phase with
    | .executing => some ⟨w, x.row.id, x.row.attempt, .ended outcome⟩
    | _ => none
  | _ => none

def System.mark? (s : System) : Action → Option Mark
  | .worker w (.attempt k b) =>
    (s.workers w).bind fun p => (p.inflight[k]?).bind fun x => x.mark? w b
  | _ => none

/-- The marks of one attempt of a task, in order. -/
def marks (i : TaskId) (n : Int) (trace : List Mark) : List (WorkerId × AdapterEvent) :=
  (trace.filter fun m => decide (m.taskId = i ∧ m.attempt = n)).map fun m => (m.workerId, m.what)

/-- What has become of the adapter of one attempt. -/
inductive Life : List (WorkerId × AdapterEvent) → Prop
  | unborn : Life []
  | running (w : WorkerId) : Life [(w, .begun)]
  | over (w : WorkerId) (outcome : Outcome) : Life [(w, .begun), (w, .ended outcome)]

/-- Where the coroutine of an attempt waits, what has become of its adapter. -/
def Phase.life (w : WorkerId) : Phase → Option (List (WorkerId × AdapterEvent))
  | dispatched => some []
  | executing => some [(w, .begun)]
  | unwinding => some [(w, .begun)]
  | joining outcome => some [(w, .begun), (w, .ended outcome)]
  | finalizing outcome _ _ => some [(w, .begun), (w, .ended outcome)]
  | rejected outcome _ => some [(w, .begun), (w, .ended outcome)]
  | ended => none

theorem marks_append (i : TaskId) (n : Int) (xs ys : List Mark) :
    marks i n (xs ++ ys) = marks i n xs ++ marks i n ys := by
  unfold marks
  rw [List.filter_append, List.map_append]

/-- The task of this view was claimed by the worker, as this attempt. -/
def TaskView.Ran (v : TaskView) (n : Int) (w : WorkerId) : Prop :=
  ∃ r ∈ v.attempts, r.attempt = n ∧ r.workerId = w

theorem TaskView.Ran.unique {v : TaskView} (hv : v.Ledgered) {n : Int} {w w' : WorkerId}
    (h : v.Ran n w) (h' : v.Ran n w') : w = w' := by
  obtain ⟨r, hr, hn, rfl⟩ := h
  obtain ⟨r', hr', hn', rfl⟩ := h'
  unfold Ledgered at hv
  split at hv
  · rw [hv] at hr
    cases hr
  · rw [hv.eq_of_attempt hr hr' (hn.trans hn'.symm)]

theorem TaskView.Ran.le {v : TaskView} (hv : v.Ledgered) {n : Int} {w : WorkerId} (h : v.Ran n w)
    {t : Task} (ht : v.row = some t) : n ≤ t.attempt := by
  obtain ⟨r, hr, rfl, -⟩ := h
  exact (hv.ledger ht).attempt_le hr

variable [PyText]

/-- What the adapters did in a run from this state. -/
def trace : System → List Action → List Mark :=
  outputs ControlPlane.step fun s a => (s.mark? a).toList

/-! ## One transaction -/

theorem TaskStep.ran {c : Call} {i : TaskId} {v v' : TaskView} (h : TaskStep c i v v') {n : Int}
    {w : WorkerId} (hv : v.Ran n w) : v'.Ran n w := by
  obtain ⟨r, hr, hn, hw⟩ := hv
  have hclose : ∀ {now a o ec em}, ∃ r' ∈ closeAttempt now a o ec em v.attempts,
      r'.attempt = n ∧ r'.workerId = w := by
    intro now a o ec em
    unfold closeAttempt
    refine ⟨_, List.mem_map_of_mem hr, ?_⟩
    split <;> exact ⟨hn, hw⟩
  cases h with
  | skip => exact ⟨r, hr, hn, hw⟩
  | noted e => exact ⟨r, hr, hn, hw⟩
  | submitted hop hv' =>
    rw [hv'] at hr
    cases hr
  | claimed hop hrow hc => exact ⟨r, List.mem_append_left _ hr, hn, hw⟩
  | renewed hop hrow hf => exact ⟨r, hr, hn, hw⟩
  | completed hop hrow hf => exact hclose
  | reaped hop hrow hs hov => exact hclose
  | cancelled hop hrow hq ht' => exact ⟨r, hr, hn, hw⟩
  | flagged hop hrow hs hf => exact ⟨r, hr, hn, hw⟩

/-- The worker claimed the attempt. -/
def Ran (w : WorkerId) (db : Database) (x : Attempt) : Prop := (db.view x.row.id).Ran x.row.attempt w

theorem commit_ran {w : WorkerId} {db : Database} {i : TaskId} {n : Int} (c : Call)
    (h : (db.view i).Ran n w) : ((commit db c).view i).Ran n w := (commit_step db c i).ran h

theorem ran_invariant : AttemptInvariant Ran where
  commit c h := commit_ran c h
  claimed hw hclaim row hrow := by
    subst hw
    obtain ⟨-, rfl, hin, -⟩ := claimTasks_ok hclaim
    obtain ⟨t, hi, ht, rfl⟩ := mem_grantedRows.mp hrow
    obtain ⟨u, hu, -, -, hv⟩ := hin t.id hi
    obtain rfl : t = u := Option.eq_some_unique ht hu
    show TaskView.Ran (Database.view _ t.id) _ _
    rw [hv]
    exact ⟨_, List.mem_append_right _ (List.mem_singleton_self _), rfl, rfl⟩
  step hmove h := by
    unfold Ran
    rw [hmove.row, Move.run_db]
    split
    · exact h
    · exact commit_ran _ h

/-! ## One step of an attempt -/

/-- A step of an attempt takes its adapter as far as the mark says. -/
theorem runAttempt_life {w : WorkerId} {ttl : Int} {x : Attempt} {owned : Owned} {b : AttemptAction}
    {n : Move (Attempt × Owned)} (h : runAttempt w ttl x owned b = some n) (db : Database)
    (now : Time) {l' : List (WorkerId × AdapterEvent)}
    (hl' : (n.run db now).2.1.phase.life w = some l') : ∃ l, x.phase.life w = some l ∧
      l' = l ++ (x.mark? w b).toList.map fun m => (m.workerId, m.what) := by
  have hsame : ∀ {phase : Phase}, x.phase = phase → x.mark? w b = none → phase.life w = some l' →
      ∃ l, x.phase.life w = some l ∧
        l' = l ++ (x.mark? w b).toList.map fun m => (m.workerId, m.what) := by
    intro phase hp hmark hl
    exact ⟨l', hp ▸ hl, by simp [hmark]⟩
  have hrenewal : ∀ {c : RenewalAction}, b = .renewal c →
      (renewUntilStopped w ttl x c).map (Move.map fun y => (y, owned)) = some n →
      ∃ l, x.phase.life w = some l ∧
        l' = l ++ (x.mark? w b).toList.map fun m => (m.workerId, m.what) := by
    intro c hb h
    obtain ⟨n', hn', rfl⟩ := Option.map_eq_some_iff.mp h
    rw [Move.run_map] at hl'
    dsimp only at hl'
    rw [(renewUntilStopped_kept hn' db now).2] at hl'
    exact hsame rfl (by subst hb; rfl) hl'
  unfold runAttempt at h
  dsimp only at h
  split at h
  · rename_i hp
    split at h <;> cases h
    · rename_i hopens
      cases hl'
      exact ⟨[], by rw [hp]; rfl, by simp [Attempt.mark?, hp, hopens]⟩
    · cases hl'
  · cases h; cases hl'
  · exact hrenewal rfl h
  · rename_i hp
    cases h
    exact hsame rfl rfl hl'
  · rename_i hp
    cases h
    cases hl'
    exact ⟨_, by rw [hp]; rfl, by simp [Attempt.mark?, hp]⟩
  · rename_i hp
    cases h
    exact hsame hp rfl hl'
  · exact hrenewal rfl h
  · rename_i hp
    split at h
    · cases h; cases hl'
    · split at h <;> cases h
      exact hsame hp rfl hl'
  · cases h; cases hl'
  · rename_i hp
    split at h <;> cases h
    · cases hl'
    dsimp only [Move.run] at hl'
    split at hl'
    · exact hsame hp rfl hl'
    · cases hl'
  · cases h; cases hl'
  · cases h; cases hl'
  · cases h; cases hl'
  · cases h; cases hl'
  · cases h; cases hl'
  · exact hrenewal rfl h
  · split at h
    · cases h; cases hl'
    · split at h <;> cases h
      cases hl'
  · cases h

omit [PyText] in
/-- What a mark adds is the next thing that can happen. -/
theorem Attempt.mark?_life {w : WorkerId} {x : Attempt} {b : AttemptAction} {m : Mark}
    (h : x.mark? w b = some m) : m.workerId = w ∧ m.taskId = x.row.id ∧ m.attempt = x.row.attempt ∧
      ∃ l, x.phase.life w = some l ∧ Life (l ++ [(m.workerId, m.what)]) := by
  unfold mark? at h
  split at h
  · split at h
    · rename_i hp
      split at h <;> cases h
      exact ⟨rfl, rfl, rfl, [], by rw [hp]; rfl, .running w⟩
    · cases h
  · split at h
    · rename_i hp
      cases h
      exact ⟨rfl, rfl, rfl, _, by rw [hp]; rfl, .over w _⟩
    · cases h
  · cases h

/-! ## The attempts in flight -/

def WorkerAction.isAttempt : WorkerAction → Bool
  | attempt .. => true
  | _ => false

/-- The steps of a worker, by what they do to its attempts in flight. -/
inductive InflightMove (db : Database) (now : Time) (w : WorkerId) (p : Worker) :
    WorkerAction → Worker → Prop
  | dropped {a : WorkerAction} {q : Worker} (hnot : a.isAttempt = false)
      (hsub : q.inflight.Sublist p.inflight) : InflightMove db now w p a q
  | claimed {scans : Nat → Scan} {q : Worker} {db' : Database} {rows : List Task}
      (hclaim : claimTasks db now (p.claimArgs w) scans = .ok (db', rows))
      (hq : q.inflight = p.inflight ++ rows.map ({ row := · })) :
      InflightMove db now w p (.claim scans) q
  | attempt {k : Nat} {b : AttemptAction} {x : Attempt} {n : Move (Attempt × Owned)} {q : Worker}
      (hx : p.inflight[k]? = some x) (h : runAttempt w p.config.leaseTtlS x p.owned b = some n)
      (hq : q.inflight = p.inflight.set k (n.run db now).2.1) :
      InflightMove db now w p (.attempt k b) q

theorem runForever_inflight {w : WorkerId} {p : Worker} {a : WorkerAction} {m : Move Worker}
    (h : runForever w p a = some m) (db : Database) (now : Time) :
    InflightMove db now w p a (m.run db now).2 := by
  have hsame : ∀ {a : WorkerAction} {q : Worker}, a.isAttempt = false →
      q.inflight = p.inflight → InflightMove db now w p a q :=
    fun hnot he => .dropped hnot (he ▸ List.Sublist.refl _)
  have hreply : ∀ {op : Op} {q : Worker}, ((Move.transact op fun _ => q).run db now).2 = q := rfl
  unfold runForever at h
  split at h
  · cases h; exact hsame rfl rfl
  · cases h; exact .dropped rfl (List.nil_sublist _)
  · split at h
    · cases h
    · obtain ⟨x, hx, h⟩ := Option.bind_eq_some_iff.mp h
      obtain ⟨n, hn, rfl⟩ := Option.map_eq_some_iff.mp h
      rw [Move.run_map]
      exact .attempt hx hn rfl
  · split at h <;> cases h
    refine hsame rfl ?_
    dsimp only [Move.run]
    split <;> rfl
  · split at h <;> cases h
    exact hsame rfl rfl
  · cases h; exact .dropped rfl List.filter_sublist
  · cases h; exact hsame rfl rfl
  · split at h <;> cases h
    exact hsame rfl rfl
  · cases h
    show InflightMove db now w p _
      (p.dispatch ((perform db now (.claimTasks (p.claimArgs w) _)).map Prod.snd))
    unfold Worker.dispatch
    split
    · rename_i rows hreply
      obtain ⟨rows', hclaim, he⟩ := mapSnd_ok (reply_ok hreply)
      obtain rfl := Reply.claimed.inj he
      exact .claimed hclaim rfl
    · exact hsame rfl rfl
  · cases h; exact hsame rfl rfl
  · split at h <;> cases h
    · exact hsame rfl rfl
    · rw [hreply]
      exact hsame rfl rfl
  · cases h; exact hsame rfl rfl
  · split at h <;> cases h
    exact hsame rfl rfl
  · cases h
    rw [hreply]
    exact hsame rfl rfl
  · cases h; exact hsame rfl rfl
  · cases h
    rw [hreply]
    exact hsame rfl rfl
  · cases h; exact hsame rfl rfl
  · cases h

/-- Which attempt of which task it is. -/
def Attempt.key (x : Attempt) : TaskId × Int := (x.row.id, x.row.attempt)

/-- Nothing in flight is in flight twice. -/
def Worker.Distinct (p : Worker) : Prop := (p.inflight.map Attempt.key).Nodup

omit [PyText] in
theorem map_key_set {xs : List Attempt} {k : Nat} {x y : Attempt} (hx : xs[k]? = some x)
    (hy : y.row = x.row) : (xs.set k y).map Attempt.key = xs.map Attempt.key := by
  have hrows := congrArg (List.map fun row : Task => (row.id, row.attempt)) (map_row_set hx hy)
  rwa [List.map_map, List.map_map] at hrows

/-! ## One step of the system -/

omit [PyText] in
/-- A mark is a step of an attempt in flight. -/
theorem mark_source {s : System} {a : Action} {m : Mark} (h : s.mark? a = some m) :
    ∃ w p k x b, a = .worker w (.attempt k b) ∧ s.workers w = some p ∧ p.inflight[k]? = some x ∧
      x.mark? w b = some m := by
  unfold System.mark? at h
  split at h
  · obtain ⟨p, hp, h⟩ := Option.bind_eq_some_iff.mp h
    obtain ⟨x, hx, h⟩ := Option.bind_eq_some_iff.mp h
    exact ⟨_, p, _, x, _, rfl, hp, hx, h⟩
  · cases h

omit [PyText] in
/-- The database does not see it. -/
theorem Attempt.mark?_silent {w : WorkerId} {ttl : Int} {x : Attempt} {owned : Owned}
    {b : AttemptAction} {m : Mark} {n : Move (Attempt × Owned)} (h : x.mark? w b = some m)
    (hn : runAttempt w ttl x owned b = some n) : n.op? = none := by
  unfold mark? at h
  split at h
  · split at h
    · rename_i hp
      unfold runAttempt at hn
      simp only [hp] at hn
      split at hn <;> cases hn <;> rfl
    · cases h
  · split at h
    · rename_i hp
      unfold runAttempt at hn
      simp only [hp] at hn
      cases hn
      rfl
    · cases h
  · cases h

theorem mark_silent {s s' : System} {a : Action} {m : Mark} (h : SystemStep s a s')
    (hm : s.mark? a = some m) : s.op? a = none := by
  obtain ⟨w, p, k, x, b, rfl, hp, hx, hmark⟩ := mark_source hm
  unfold SystemStep ControlPlane.step at h
  dsimp only at h
  rw [hp, Option.bind_some] at h
  obtain ⟨mv, hmv, -⟩ := Option.map_eq_some_iff.mp h
  unfold System.op?
  dsimp only
  rw [hp, Option.bind_some, hmv, Option.bind_some]
  rw [runForever_attempt, hx] at hmv
  split at hmv
  · cases hmv
  · rw [Option.bind_some] at hmv
    obtain ⟨n, hn, rfl⟩ := Option.map_eq_some_iff.mp hmv
    rw [Move.op?_map]
    exact Attempt.mark?_silent hmark hn

theorem step_ran {s s' : System} {a : Action} (h : SystemStep s a s') {i : TaskId} {n : Int}
    {w : WorkerId} (hr : (s.db.view i).Ran n w) : (s'.db.view i).Ran n w := by
  rw [step_db h]
  split
  · exact hr
  · exact commit_ran _ hr

omit [PyText] in
theorem marks_none {i : TaskId} {n : Int} {tr : List Mark} {m : Option Mark}
    (h : ∀ m', m = some m' → ¬ (m'.taskId = i ∧ m'.attempt = n)) :
    marks i n (tr ++ m.toList) = marks i n tr := by
  rw [marks_append]
  cases m with
  | none => simp [marks]
  | some m => simp [marks, h m rfl]

omit [PyText] in
theorem marks_some {tr : List Mark} (m : Mark) :
    marks m.taskId m.attempt (tr ++ [m]) = marks m.taskId m.attempt tr ++ [(m.workerId, m.what)] := by
  rw [marks_append]
  simp [marks]

/-- The trace agrees with what the workers have in flight and with the database. -/
structure Executed (tr : List Mark) (s : System) : Prop where
  ledgered : ∀ i, (s.db.view i).Ledgered
  ran : Remembers Ran s
  distinct : s.Each Worker.Distinct
  lives : ∀ i n, Life (marks i n tr)
  recorded : ∀ m ∈ tr, (s.db.view m.taskId).Ran m.attempt m.workerId
  inflight : ∀ w p, s.workers w = some p → ∀ x ∈ p.inflight, ∀ l, x.phase.life w = some l →
    marks x.row.id x.row.attempt tr = l
  returned : ∀ i t, s.db.task? i = some t → t.state = .succeeded → ∃ d w,
    t.result = some (Json.obj d).jsonb ∧
    marks i t.attempt tr = [(w, .begun), (w, .ended (.succeeded (some d)))]

/-- A new attempt is of a number not seen before. -/
theorem claim_fresh {db db' : Database} {now : Time} {args : ClaimArgs} {scans : Nat → Scan}
    {rows : List Task} (hclaim : claimTasks db now args scans = .ok (db', rows))
    (hdb : ∀ i, (db.view i).Ledgered) {row : Task} (hrow : row ∈ rows) {v : WorkerId} :
    ¬ (db.view row.id).Ran row.attempt v := by
  obtain ⟨-, rfl, -, -⟩ := claimTasks_ok hclaim
  obtain ⟨t, hi, ht, rfl⟩ := mem_grantedRows.mp hrow
  intro hran
  have hle : t.attempt + 1 ≤ t.attempt := hran.le (hdb t.id) ht
  omega

theorem claim_distinct {db db' : Database} {now : Time} {args : ClaimArgs} {scans : Nat → Scan}
    {rows : List Task} (hclaim : claimTasks db now args scans = .ok (db', rows)) :
    (rows.map Task.id).Nodup := by
  obtain ⟨-, rfl, hin, -⟩ := claimTasks_ok hclaim
  have hs := claimLoop_sound db now args scans
  rw [grantedRows_ids]
  · exact hs.nodup.sublist hs.claimed
  · intro i hi
    obtain ⟨t, ht, -⟩ := hin i hi
    rw [ht]
    rfl

theorem Executed.distinct_step {tr : List Mark} {s s' : System} {a : Action} (hs : Executed tr s)
    (h : SystemStep s a s') : s'.Each Worker.Distinct := by
  intro v q hq
  rcases step_workers h with ⟨he, -⟩ | ⟨w, config, row, -, -, -, -, he⟩ | ⟨w, p, b, m, rfl, hp, hm, he⟩
  · exact hs.distinct v q (he ▸ hq)
  · rw [he] at hq
    rcases update_some hq with ⟨rfl, rfl⟩ | hq
    · exact List.nodup_nil
    · exact hs.distinct v q hq
  · rw [he] at hq
    rcases update_some hq with ⟨rfl, rfl⟩ | hq
    swap
    · exact hs.distinct v q hq
    have hnodup := hs.distinct v p hp
    unfold Worker.Distinct at hnodup ⊢
    cases runForever_inflight hm s.db s.clock with
    | dropped hnot hsub => exact hnodup.sublist (hsub.map _)
    | @claimed scans q db' rows hclaim hin =>
      rw [hin, List.map_append, List.map_map]
      refine List.nodup_append.mpr ⟨hnodup, ?_, ?_⟩
      · have hids := claim_distinct hclaim
        refine List.Nodup.of_map Prod.fst ?_
        rw [List.map_map]
        exact hids
      · intro key hkey key' hkey' he
        obtain ⟨x, hx, rfl⟩ := List.mem_map.mp hkey
        obtain ⟨row, hrow, rfl⟩ := List.mem_map.mp hkey'
        obtain ⟨hid, hatt⟩ := Prod.mk.inj he
        have hran : (s.db.view x.row.id).Ran x.row.attempt v := hs.ran v p hp x hx
        rw [hid, hatt] at hran
        exact claim_fresh hclaim hs.ledgered hrow hran
    | attempt hx hn hin =>
      rw [hin, map_key_set hx ((runAttempt_move hn).row s.db s.clock)]
      exact hnodup

omit [PyText] in
/-- A mark extends what is known of its attempt. -/
theorem Executed.extends {tr : List Mark} {s : System} {a : Action} {m : Mark} (hs : Executed tr s)
    (hm : s.mark? a = some m) : Life (marks m.taskId m.attempt tr ++ [(m.workerId, m.what)]) ∧
      (s.db.view m.taskId).Ran m.attempt m.workerId := by
  obtain ⟨w, p, k, x, b, -, hp, hx, hmark⟩ := mark_source hm
  obtain ⟨hw, hi, hn, l, hl, hlife⟩ := Attempt.mark?_life hmark
  have hmem : x ∈ p.inflight := List.mem_of_getElem? hx
  refine ⟨?_, ?_⟩
  · rw [hi, hn, hs.inflight w p hp x hmem l hl]
    exact hlife
  · rw [hw, hi, hn]
    exact hs.ran w p hp x hmem

omit [PyText] in
theorem Executed.lives_step {tr : List Mark} {s : System} {a : Action} (hs : Executed tr s)
    (i : TaskId) (n : Int) : Life (marks i n (tr ++ (s.mark? a).toList)) := by
  by_cases hm : ∃ m, s.mark? a = some m ∧ m.taskId = i ∧ m.attempt = n
  · obtain ⟨m, hm, rfl, rfl⟩ := hm
    rw [hm]
    show Life (marks m.taskId m.attempt (tr ++ [m]))
    rw [marks_some]
    exact (hs.extends hm).1
  · rw [marks_none fun m hm' hkey => hm ⟨m, hm', hkey⟩]
    exact hs.lives i n

theorem Executed.recorded_step {tr : List Mark} {s s' : System} {a : Action} (hs : Executed tr s)
    (h : SystemStep s a s') :
    ∀ m ∈ tr ++ (s.mark? a).toList, (s'.db.view m.taskId).Ran m.attempt m.workerId := by
  intro m hm
  refine step_ran h ?_
  rcases List.mem_append.mp hm with hm | hm
  · exact hs.recorded m hm
  · exact (hs.extends (Option.mem_toList.mp hm)).2

omit [PyText] in
/-- An attempt in flight that is not the one whose step it is. -/
theorem Executed.unmarked {tr : List Mark} {s : System} {a : Action} (hs : Executed tr s)
    {v : WorkerId} {q : Worker} {y : Attempt} (hq : s.workers v = some q) (hy : y ∈ q.inflight)
    (hother : ∀ k b x, a = .worker v (.attempt k b) → q.inflight[k]? = some x → x.key ≠ y.key) :
    marks y.row.id y.row.attempt (tr ++ (s.mark? a).toList) = marks y.row.id y.row.attempt tr := by
  refine marks_none fun m hm hkey => ?_
  obtain ⟨w, p, k, x, b, rfl, hp, hx, hmark⟩ := mark_source hm
  obtain ⟨-, hi, hn, -⟩ := Attempt.mark?_life hmark
  have hsame : x.key = y.key := Prod.ext (hi.symm.trans hkey.1) (hn.symm.trans hkey.2)
  -- the ledger names one worker for each attempt
  have hran : (s.db.view x.row.id).Ran x.row.attempt w := hs.ran w p hp x (List.mem_of_getElem? hx)
  obtain ⟨hid, hatt⟩ := Prod.mk.inj hsame
  rw [hid, hatt] at hran
  obtain rfl := hran.unique (hs.ledgered _) (hs.ran v q hq y hy)
  obtain rfl := Option.eq_some_unique hp hq
  exact hother k b x rfl hx hsame

omit [PyText] in
theorem Worker.Distinct.key_inj {p : Worker} (h : p.Distinct) {j k : Nat} {x y : Attempt}
    (hx : p.inflight[k]? = some x) (hy : p.inflight[j]? = some y) (he : x.key = y.key) : k = j := by
  obtain ⟨hk, rfl⟩ := List.getElem?_eq_some_iff.mp hx
  obtain ⟨hj, rfl⟩ := List.getElem?_eq_some_iff.mp hy
  have hk' : k < (p.inflight.map Attempt.key).length := by simpa using hk
  have hj' : j < (p.inflight.map Attempt.key).length := by simpa using hj
  have hkeys : (p.inflight.map Attempt.key)[k] = (p.inflight.map Attempt.key)[j] := by simpa using he
  exact (List.Nodup.getElem_inj_iff h).mp hkeys

/-- Attempts just claimed have no marks. -/
theorem Executed.unborn {tr : List Mark} {s : System} (hs : Executed tr s) {now : Time}
    {args : ClaimArgs} {scans : Nat → Scan} {db' : Database} {rows : List Task}
    (hclaim : claimTasks s.db now args scans = .ok (db', rows)) {row : Task} (hrow : row ∈ rows) :
    marks row.id row.attempt tr = [] := by
  unfold marks
  rw [List.map_eq_nil_iff, List.filter_eq_nil_iff]
  intro m hm hkey
  obtain ⟨hi, hn⟩ := of_decide_eq_true hkey
  have hran := hs.recorded m hm
  rw [hi, hn] at hran
  exact claim_fresh hclaim hs.ledgered hrow hran

/-- The attempts of the worker whose step it is. -/
theorem Executed.inflight_moved {tr : List Mark} {s : System} (hs : Executed tr s) {w : WorkerId}
    {p q : Worker} {b : WorkerAction} (hp : s.workers w = some p)
    (hmove : InflightMove s.db s.clock w p b q) {y : Attempt} (hy : y ∈ q.inflight)
    {l : List (WorkerId × AdapterEvent)} (hl : y.phase.life w = some l) :
    marks y.row.id y.row.attempt (tr ++ (s.mark? (.worker w b)).toList) = l := by
  cases hmove with
  | dropped hnot hsub =>
    have hy' : y ∈ p.inflight := hsub.subset hy
    rw [hs.unmarked hp hy' fun k b x he => ?_]
    · exact hs.inflight w p hp y hy' l hl
    · cases he
      cases hnot
  | @claimed scans q db' rows hclaim hin =>
    rw [hin] at hy
    rcases List.mem_append.mp hy with hy' | hy'
    · rw [hs.unmarked hp hy' fun k b x he => by cases he]
      exact hs.inflight w p hp y hy' l hl
    · obtain ⟨row, hrow, rfl⟩ := List.mem_map.mp hy'
      cases hl
      show marks row.id row.attempt (tr ++ []) = []
      rw [List.append_nil, hs.unborn hclaim hrow]
  | @attempt k b x n q hx hn hin =>
    rw [hin] at hy
    obtain ⟨j, hj⟩ := List.mem_iff_getElem?.mp hy
    by_cases hjk : k = j
    · subst hjk
      rw [List.getElem?_set_self (List.getElem?_eq_some_iff.mp hx).1] at hj
      obtain rfl := Option.some.inj hj
      obtain ⟨l₀, hl₀, rfl⟩ := runAttempt_life hn s.db s.clock hl
      have hrow := (runAttempt_move hn).row s.db s.clock
      have hmark : s.mark? (.worker w (.attempt k b)) = x.mark? w b := by
        unfold System.mark?
        dsimp only
        rw [hp, Option.bind_some, hx, Option.bind_some]
      rw [hrow, hmark, marks_append, hs.inflight w p hp x (List.mem_of_getElem? hx) l₀ hl₀]
      cases hm : x.mark? w b with
      | none => rfl
      | some m =>
        obtain ⟨-, hi, hatt, -⟩ := Attempt.mark?_life hm
        simp [marks, hi, hatt]
    · rw [List.getElem?_set_ne hjk] at hj
      have hy' : y ∈ p.inflight := List.mem_of_getElem? hj
      rw [hs.unmarked hp hy' fun k' b' x' he hx' hkey => ?_]
      · exact hs.inflight w p hp y hy' l hl
      · cases he
        exact hjk ((hs.distinct w p hp).key_inj hx' hj hkey)

theorem Executed.inflight_step {tr : List Mark} {s s' : System} {a : Action} (hs : Executed tr s)
    (h : SystemStep s a s') : ∀ v q, s'.workers v = some q → ∀ y ∈ q.inflight, ∀ l,
      y.phase.life v = some l → marks y.row.id y.row.attempt (tr ++ (s.mark? a).toList) = l := by
  intro v q hq y hy l hl
  have hkept : s.workers v = some q → (∀ b, a ≠ .worker v b) →
      marks y.row.id y.row.attempt (tr ++ (s.mark? a).toList) = l := by
    intro hq hne
    rw [hs.unmarked hq hy fun k b x he => absurd he (hne _)]
    exact hs.inflight v q hq y hy l hl
  rcases step_workers h with
    ⟨he, hne⟩ | ⟨w, config, row, rfl, -, -, -, he⟩ | ⟨w, p, b, m, rfl, hp, hm, he⟩
  · exact hkept (he ▸ hq) (hne v)
  · rw [he] at hq
    rcases update_some hq with ⟨rfl, rfl⟩ | hq
    · cases hy
    · exact hkept hq nofun
  · rw [he] at hq
    by_cases hv : v = w
    · subst hv
      rw [Function.update_self] at hq
      obtain rfl := Option.some.inj hq
      exact hs.inflight_moved hp (runForever_inflight hm s.db s.clock) hy hl
    · rw [Function.update_of_ne hv] at hq
      exact hkept hq fun b he => hv (by cases he; rfl)

/-! ## Results -/

/-- A task SUCCEEDS by the report of the worker that holds it, which writes the result. -/
theorem TaskStep.succeeded {c : Call} {i : TaskId} {v v' : TaskView} {t' : Task}
    (h : TaskStep c i v v') (ht' : v'.row = some t') (hs : t'.state = .succeeded) :
    v.row = some t' ∨ ∃ r a w t, c.op = .complete (.success r) i a w ∧ v.row = some t ∧
      t.HeldBy a w ∧ t'.result = some r.jsonb ∧ t'.attempt = a := by
  cases h with
  | skip => exact .inl ht'
  | noted e => exact .inl ht'
  | submitted hop hv => cases ht'; cases hs
  | claimed hop hr hc => cases ht'; cases hs
  | renewed hop hr hren =>
    cases ht'
    cases hs.symm.trans hren.1.1
  | @completed e a w t hop hr hheld =>
    cases ht'
    obtain ⟨hst, hatt, -⟩ := e.row_fields c.now t
    rw [hst] at hs
    cases e with
    | success r => exact .inr ⟨r, a, w, t, hop, hr, hheld, rfl, hatt.trans hheld.2.1⟩
    | _ => cases hs
  | @reaped o limit scan t hop hr hrun hov =>
    cases ht'
    rw [(o.row_fields c.now t).1] at hs
    rcases reapToState_cases t.attempt t.maxAttempts with ⟨-, h⟩ | ⟨-, h⟩ <;> rw [h] at hs <;> cases hs
  | cancelled hop hr hq hc =>
    cases ht'
    cases hs.symm.trans (cancelled_fields hc).1
  | flagged hop hr hrun hf =>
    cases ht'
    cases hs.symm.trans hrun

omit [PyText] in
/-- The worker reports a success where the adapter returned. -/
theorem finalizeEnding_success {row : Task} {outcome : Outcome} {c : Bool} {rng : Draws} {r : Json}
    (h : finalizeEnding row outcome c rng = some (.success r)) :
    ∃ d, outcome = .succeeded (some d) ∧ r = .obj d := by
  unfold finalizeEnding at h
  split at h
  · cases h
  · split at h
    · obtain ⟨d, rfl, he⟩ := Option.map_eq_some_iff.mp h
      exact ⟨d, rfl, (Ending.success.inj he).symm⟩
    · dsimp only at h
      split at h <;> cases h

omit [PyText] in
theorem Life.over_last {w : WorkerId} {outcome : Outcome} {m : WorkerId × AdapterEvent} :
    ¬ Life ([(w, .begun), (w, .ended outcome)] ++ [m]) := by
  intro h
  cases h

theorem Executed.returned_step {tr : List Mark} {s s' : System} {a : Action} (hs : Executed tr s)
    (h : SystemStep s a s') : ∀ i t, s'.db.task? i = some t → t.state = .succeeded →
      ∃ d w, t.result = some (Json.obj d).jsonb ∧ marks i t.attempt (tr ++ (s.mark? a).toList) =
        [(w, .begun), (w, .ended (.succeeded (some d)))] := by
  intro i t ht hst
  have hkept : s.db.task? i = some t → ∃ d w, t.result = some (Json.obj d).jsonb ∧
      marks i t.attempt (tr ++ (s.mark? a).toList) =
        [(w, .begun), (w, .ended (.succeeded (some d)))] := by
    intro ht
    obtain ⟨d, w, hr, hmarks⟩ := hs.returned i t ht hst
    refine ⟨d, w, hr, ?_⟩
    rw [marks_none fun m hm hkey => ?_]
    · exact hmarks
    · -- an adapter that has ended does nothing any more
      obtain ⟨rfl, hn⟩ := hkey
      have hlife := (hs.extends hm).1
      rw [hn, hmarks] at hlife
      exact Life.over_last hlife
  rw [step_db h] at ht
  split at ht
  · exact hkept ht
  rename_i op hop
  have hunmarked : s.mark? a = none := by
    by_contra hm
    obtain ⟨m, hm⟩ := Option.ne_none_iff_exists'.mp hm
    rw [mark_silent h hm] at hop
    cases hop
  rcases (commit_step s.db ⟨s.clock, op⟩ i).succeeded ht hst with ht | ⟨r, n, w, u, he, -, -, hr, hn⟩
  · exact hkept ht
  obtain rfl : op = .complete (.success r) i n w := he
  obtain ⟨p, b, rfl, hp, hissues⟩ := step_completes h hop
  obtain ⟨-, ⟨k, x, outcome, c, rng, -, hx, hphase, hending, rfl, rfl⟩ | ⟨rest, -, -, he⟩⟩ :=
    hissues.completes
  · obtain ⟨d, rfl, rfl⟩ := finalizeEnding_success hending
    refine ⟨d, w, hr, ?_⟩
    rw [hunmarked, hn]
    show marks x.row.id x.row.attempt (tr ++ []) = _
    rw [List.append_nil]
    exact hs.inflight w p hp x (List.mem_of_getElem? hx) _ (by rw [hphase]; rfl)
  · cases he

theorem Executed.step {tr : List Mark} {s s' : System} {a : Action} (hs : Executed tr s)
    (h : SystemStep s a s') : Executed (tr ++ (s.mark? a).toList) s' where
  ledgered := step_keeps commit_ledgered h hs.ledgered
  ran := ran_invariant.system h hs.ran
  distinct := hs.distinct_step h
  lives := hs.lives_step
  recorded := hs.recorded_step h
  inflight := hs.inflight_step h
  returned := hs.returned_step h

omit [PyText] in
theorem initial_executed : Executed [] .initial where
  ledgered := empty_ledgered
  ran := initial_remembers Ran
  distinct w p hp := by cases hp
  lives i n := .unborn
  recorded m hm := by cases hm
  inflight w p hp := by cases hp
  returned i t ht := by cases ht

theorem run_executed {acts : List Action} {s : System} (h : Run SystemStep .initial acts s) :
    Executed (trace .initial acts) s :=
  h.audited (fun hs hst => Executed.step hs hst) initial_executed

/-- The attempts of the task whose adapters were started. -/
def starts (i : TaskId) (tr : List Mark) : List Int :=
  (tr.filter fun m => decide (m.taskId = i) && m.what.isBegun).map Mark.attempt

omit [PyText] in
theorem count_starts (i : TaskId) (n : Int) (tr : List Mark) :
    (starts i tr).count n = ((marks i n tr).filter fun e => e.2.isBegun).length := by
  unfold starts marks
  rw [List.count_eq_length_filter, List.filter_map, List.filter_map, List.length_map,
    List.length_map, List.filter_filter, List.filter_filter]
  refine congrArg List.length (List.filter_congr fun m _ => ?_)
  by_cases hi : m.taskId = i <;> by_cases hn : m.attempt = n <;> simp [hi, hn]

omit [PyText] in
theorem Life.starts_le {l : List (WorkerId × AdapterEvent)} (h : Life l) :
    (l.filter fun e => e.2.isBegun).length ≤ 1 := by
  cases h <;> simp [AdapterEvent.isBegun]

omit [PyText] in
theorem Executed.starts_nodup {tr : List Mark} {s : System} (hs : Executed tr s) (i : TaskId) :
    (starts i tr).Nodup := by
  refine List.nodup_iff_count_le_one.mpr fun n => ?_
  rw [count_starts]
  exact (hs.lives i n).starts_le

omit [PyText] in
theorem Executed.starts_length {tr : List Mark} {s : System} (hs : Executed tr s) {i : TaskId}
    {t : Task} (ht : s.db.task? i = some t) : ((starts i tr).length : Int) ≤ t.attempt := by
  have hledger := (hs.ledgered i).ledger ht
  have hsub : starts i tr ⊆ (List.range t.attempt.toNat).map fun k : Nat => (k : Int) + 1 := by
    intro n hn
    obtain ⟨m, hm, rfl⟩ := List.mem_map.mp hn
    obtain ⟨htr, hkey⟩ := List.mem_filter.mp hm
    obtain ⟨rfl, -⟩ : m.taskId = i ∧ m.what.isBegun = true := by simpa using hkey
    obtain ⟨r, hr, hatt, -⟩ := hs.recorded m htr
    rw [← hledger.numbered, ← hatt]
    exact List.mem_map_of_mem hr
  have hlen := ((hs.starts_nodup i).subperm hsub).length_le
  rw [List.length_map, List.length_range] at hlen
  have hnonneg := hledger.nonneg
  omega

/-- **An attempt is executed at most once**, whatever becomes of its lease: in every run
its adapter is started at most once and ends at most once after that, with one worker,
and a task's adapter is started no more often than the task was claimed. -/
theorem executed_at_most_once {acts : List Action} {s : System}
    (h : Run SystemStep .initial acts s) (i : TaskId) :
    (∀ n, Life (marks i n (trace .initial acts))) ∧ (starts i (trace .initial acts)).Nodup ∧
      ∀ t, s.db.task? i = some t → ((starts i (trace .initial acts)).length : Int) ≤ t.attempt :=
  have hs := run_executed h
  ⟨hs.lives i, hs.starts_nodup i, fun _ ht => hs.starts_length ht⟩

/-- **The result of a task is what its adapter returned**, as JSONB keeps it: where a task
SUCCEEDED, the adapter of its last attempt was started and returned a mapping once, in the
worker that the ledger names, and the row keeps that mapping. -/
theorem result_was_returned {acts : List Action} {s : System}
    (h : Run SystemStep .initial acts s) {i : TaskId} {t : Task} (ht : s.db.task? i = some t)
    (hst : t.state = .succeeded) : ∃ d w, t.result = some (Json.obj d).jsonb ∧
      marks i t.attempt (trace .initial acts) = [(w, .begun), (w, .ended (.succeeded (some d)))] ∧
      ∃ row ∈ (s.db.view i).attempts, row.attempt = t.attempt ∧ row.workerId = w := by
  have hs := run_executed h
  obtain ⟨d, w, hr, hmarks⟩ := hs.returned i t ht hst
  refine ⟨d, w, hr, hmarks, ?_⟩
  have hmem : (w, AdapterEvent.begun) ∈ marks i t.attempt (trace .initial acts) := by
    rw [hmarks]
    exact List.mem_cons_self
  obtain ⟨m, hm, he⟩ := List.mem_map.mp hmem
  obtain ⟨htr, hkey⟩ := List.mem_filter.mp hm
  obtain ⟨rfl, hn⟩ := of_decide_eq_true hkey
  obtain ⟨rfl, -⟩ := Prod.mk.inj he
  exact hn ▸ hs.recorded m htr

/-- One task is executed, and its worker reports the result. -/
def oneSuccess : List Action :=
  [.external (.createTenant 1 "tenant" 10 1000),
    .external (.submitTask 7 { tenantId := 1, taskType := "demo", payload := [] }),
    .start "worker" { capacity := 1, capabilities := [] }, .worker "worker" .poll,
    .worker "worker" (.claim fun _ => {}), .worker "worker" (.attempt 0 .begin),
    .worker "worker" (.attempt 0 (.adapterEnds (.succeeded (some [("answer", .str "done")])))),
    .worker "worker" (.attempt 0 (.renewal .stop)), .worker "worker" (.attempt 0 (.join .lowest)),
    .worker "worker" (.attempt 0 .finalize)]

omit [PyText] in
theorem executed_at_most_once_oneSuccess : ∃ s, Run (@SystemStep PyText.plain) .initial oneSuccess s ∧
    (@trace PyText.plain .initial oneSuccess).length = 2 ∧
    (starts 7 (@trace PyText.plain .initial oneSuccess)).Nodup := by
  have hrun : ((exec (@step PyText.plain) .initial oneSuccess).map fun _ => ()) = some () := by
    decide +kernel
  obtain ⟨s, hs, -⟩ := Option.map_eq_some_iff.mp hrun
  have h : Run (@SystemStep PyText.plain) .initial oneSuccess s := Run.of_exec hs
  exact ⟨s, h, by decide +kernel, (@executed_at_most_once PyText.plain _ s h 7).2.1⟩

omit [PyText] in
theorem result_was_returned_oneSuccess : ∃ s t d w,
    Run (@SystemStep PyText.plain) .initial oneSuccess s ∧ s.db.task? 7 = some t ∧
    t.state = .succeeded ∧ t.result = some (Json.obj d).jsonb ∧
    marks 7 t.attempt (@trace PyText.plain .initial oneSuccess) =
      [(w, .begun), (w, .ended (.succeeded (some d)))] := by
  have hrun : ((exec (@step PyText.plain) .initial oneSuccess).bind fun s =>
      (s.db.task? 7).map Task.state) = some .succeeded := by decide +kernel
  obtain ⟨s, hs, hrun⟩ := Option.bind_eq_some_iff.mp hrun
  obtain ⟨t, ht, hst⟩ := Option.map_eq_some_iff.mp hrun
  have h : Run (@SystemStep PyText.plain) .initial oneSuccess s := Run.of_exec hs
  obtain ⟨d, w, hr, hmarks, -⟩ := @result_was_returned PyText.plain _ s h 7 t ht hst
  exact ⟨s, t, d, w, h, ht, hst, hr, hmarks⟩

end ControlPlane

import Mathlib.Algebra.Order.Archimedean.Basic
import ControlPlane.Config
import ControlPlane.Worker.Fleet

/-! # Heartbeats on a clock

A turn of a worker's main loop beats only when its last heartbeat is an interval old, and
the transaction that tells the database comes later in that turn, so two heartbeats can be
an interval and two turns apart. Whether a worker that is in its loop can be declared DEAD
is decided by that sum (`heartbeats_suffice_iff`); one that has been goes on claiming for
an interval and a turn at most (`declared_dead_stops`). -/

namespace ControlPlane
open Keyed Fallible Runs

/-- The clock of a worker's main loop. -/
structure LoopClock where
  /-- `_last_heartbeat_at`, `none` for minus infinity -/
  lastHeartbeatAt : Option Time := none
  /-- when the present turn began, or when it registered -/
  turnedAt : Time
  /-- the transaction of this turn's heartbeat has yet to run -/
  beating : Bool := false

structure TimedFleet where
  sys : System
  loops : WorkerId → LoopClock

def TimedFleet.initial : TimedFleet := ⟨.initial, fun _ => { turnedAt := 0 }⟩

inductive TimedAction where
  /-- a turn of the main loop begins: `_maybe_heartbeat` looks at the clock -/
  | turn (w : WorkerId)
  /-- the transaction of the heartbeat -/
  | beat (w : WorkerId)
  | other (a : Action)

/-- `_maybe_heartbeat` returns at once. -/
def LoopClock.throttled (heartbeatIntervalS : Int) (now : Time) (c : LoopClock) : Bool :=
  c.lastHeartbeatAt.any fun t => decide (now - t < seconds heartbeatIntervalS)

/-- `_maybe_heartbeat` up to its transaction. -/
def LoopClock.turn (heartbeatIntervalS : Int) (now : Time) (c : LoopClock) : LoopClock :=
  if c.throttled heartbeatIntervalS now then { c with turnedAt := now }
  else { lastHeartbeatAt := some now, turnedAt := now, beating := true }

/-- The loop goes round again. -/
def Worker.turns (p : Worker) : Bool :=
  !p.stopping && match p.stage with
  | .polling => true
  | _ => false

/-- Heartbeats come with the turns of the loop and nowhere else. -/
def Action.isHeartbeat : Action → Bool
  | .worker _ .heartbeat => true
  | _ => false

/-- Whose main coroutine goes on with the rest of its turn. -/
def Action.resumes? : Action → Option WorkerId
  | .worker w .poll | .worker w .harvest | .worker w .drain => some w
  | _ => none

variable [PyText]

def TimedFleet.step (heartbeatIntervalS : Int) (f : TimedFleet) : TimedAction → Option TimedFleet
  | .turn w =>
    (f.sys.workers w).bind fun p =>
      if !p.turns || (f.loops w).beating then none
      else some ⟨f.sys,
        Function.update f.loops w ((f.loops w).turn heartbeatIntervalS f.sys.clock)⟩
  | .beat w =>
    if !(f.loops w).beating then none
    else (ControlPlane.step f.sys (.worker w .heartbeat)).map fun sys =>
      ⟨sys, Function.update f.loops w { f.loops w with beating := false }⟩
  | .other a =>
    -- the coroutine waits for its heartbeat, the attempts do not
    if a.isHeartbeat || a.resumes?.any fun w => (f.loops w).beating then none
    else (ControlPlane.step f.sys a).map fun sys => match a with
      | .start w _ => ⟨sys, Function.update f.loops w { turnedAt := f.sys.clock }⟩
      | _ => { f with sys }

omit [PyText] in
/-- No turn of a loop takes longer than `gap`. -/
def TimedFleet.Timely (gap : Time) (f : TimedFleet) : Prop :=
  ∀ w p, f.sys.workers w = some p → p.stage.inLoop = true →
    f.sys.clock ≤ (f.loops w).turnedAt + gap

/-- A step of a run in which the loops turn in time and the reapers use the setting. -/
structure InTime (s : Settings) (gap : Time) (f : TimedFleet) (a : TimedAction) (f' : TimedFleet) :
    Prop where
  step : f.step s.heartbeatIntervalS a = some f'
  timely : f.Timely gap
  sweeps : ∀ n, a = .other (.external (.markDeadWorkers n)) → n = s.workerDeadAfterS

/-! ## One step -/

/-- What a step does to the system. -/
inductive SystemMove (f : TimedFleet) : TimedAction → System → Prop
  | turn {w : WorkerId} : SystemMove f (.turn w) f.sys
  | beat {w : WorkerId} {sys : System} (h : SystemStep f.sys (.worker w .heartbeat) sys) :
      SystemMove f (.beat w) sys
  | other {a : Action} {sys : System} (hidle : ∀ w, a.resumes? = some w → (f.loops w).beating = false)
      (h : SystemStep f.sys a sys) : SystemMove f (.other a) sys

omit [PyText] in
/-- What it does to the clock of one loop. -/
inductive ClockMove (interval : Int) (f : TimedFleet) (v : WorkerId) : TimedAction → LoopClock → Prop
  | kept {a : TimedAction} (hbeat : a ≠ .beat v) (hstart : ∀ config, a ≠ .other (.start v config)) :
      ClockMove interval f v a (f.loops v)
  | throttled {t : Time} (hidle : (f.loops v).beating = false)
      (ht : (f.loops v).lastHeartbeatAt = some t) (hearly : f.sys.clock - t < seconds interval) :
      ClockMove interval f v (.turn v) { f.loops v with turnedAt := f.sys.clock }
  /-- the turn has a heartbeat to send -/
  | due {p : Worker} (hp : f.sys.workers v = some p) (hstage : p.stage = .polling)
      (hidle : (f.loops v).beating = false) :
      ClockMove interval f v (.turn v) ⟨some f.sys.clock, f.sys.clock, true⟩
  | beaten : ClockMove interval f v (.beat v) { f.loops v with beating := false }
  | started {config : WorkerConfig} :
      ClockMove interval f v (.other (.start v config)) { turnedAt := f.sys.clock }

structure TimedMove (interval : Int) (f : TimedFleet) (a : TimedAction) (f' : TimedFleet) : Prop where
  sys : SystemMove f a f'.sys
  clock : ∀ v, ClockMove interval f v a (f'.loops v)

omit [PyText] in
theorem Worker.turns_polling {p : Worker} (h : p.turns = true) : p.stage = .polling := by
  unfold Worker.turns at h
  split at h
  · assumption
  · simp at h

theorem TimedFleet.step_move {interval : Int} {f f' : TimedFleet} {a : TimedAction}
    (h : f.step interval a = some f') : TimedMove interval f a f' := by
  cases a with
  | turn w =>
    obtain ⟨p, hp, h⟩ := Option.bind_eq_some_iff.mp h
    split at h
    · cases h
    rename_i hgo
    simp only [Bool.or_eq_true, Bool.not_eq_true', not_or, Bool.not_eq_false,
      Bool.not_eq_true] at hgo
    cases h
    refine ⟨.turn, fun v => ?_⟩
    by_cases hv : v = w
    · subst hv
      dsimp only
      rw [Function.update_self]
      unfold LoopClock.turn
      split
      · rename_i hthrottled
        obtain ⟨t, ht, hearly⟩ := (Option.any_eq_true ..).mp hthrottled
        exact .throttled hgo.2 ht (of_decide_eq_true hearly)
      · exact .due hp (Worker.turns_polling hgo.1) hgo.2
    · dsimp only
      rw [Function.update_of_ne hv]
      exact .kept nofun nofun
  | beat w =>
    unfold TimedFleet.step at h
    dsimp only at h
    split at h
    · cases h
    obtain ⟨sys, hsys, rfl⟩ := Option.map_eq_some_iff.mp h
    refine ⟨.beat hsys, fun v => ?_⟩
    by_cases hv : v = w
    · subst hv
      dsimp only
      rw [Function.update_self]
      exact .beaten
    · dsimp only
      rw [Function.update_of_ne hv]
      exact .kept (fun he => hv (TimedAction.beat.inj he).symm) nofun
  | other a =>
    unfold TimedFleet.step at h
    dsimp only at h
    split at h
    · cases h
    rename_i hgo
    simp only [Bool.or_eq_true, not_or, Bool.not_eq_true] at hgo
    have hidle : ∀ w, a.resumes? = some w → (f.loops w).beating = false := by
      intro w hw
      have hnone := hgo.2
      rw [hw] at hnone
      exact hnone
    obtain ⟨sys, hsys, rfl⟩ := Option.map_eq_some_iff.mp h
    split
    · rename_i w config
      refine ⟨.other hidle hsys, fun v => ?_⟩
      by_cases hv : v = w
      · subst hv
        dsimp only
        rw [Function.update_self]
        exact .started
      · dsimp only
        rw [Function.update_of_ne hv]
        refine .kept nofun fun config he => hv ?_
        cases he
        rfl
    · rename_i hstart
      exact ⟨.other hidle hsys, fun v => .kept nofun fun config he =>
        hstart v config (TimedAction.other.inj he)⟩

theorem SystemMove.later {f : TimedFleet} {a : TimedAction} {sys : System}
    (h : SystemMove f a sys) : f.sys.clock ≤ sys.clock := by
  cases h with
  | turn => exact le_refl _
  | beat h => exact step_clock h
  | other hidle h => exact step_clock h

omit [PyText] in
/-- A worker in its loop does not write its status. -/
theorem runForever_status {w v : WorkerId} {p : Worker} {a : WorkerAction} {m : Move Worker}
    {status : WorkerStatus} (h : runForever w p a = some m)
    (hop : m.op? = some (.setWorkerStatus v status)) : p.stage.inLoop = false := by
  unfold runForever at h
  split at h
  · cases h; cases hop
  · cases h; cases hop
  · split at h
    · cases h
    · obtain ⟨x, hx, h⟩ := Option.bind_eq_some_iff.mp h
      obtain ⟨n, hn, rfl⟩ := Option.map_eq_some_iff.mp h
      rw [Move.op?_map] at hop
      cases runAttempt_op hn hop
  · split at h <;> cases h
    cases hop
  · split at h <;> cases h
    cases hop
  · cases h; cases hop
  · cases h; cases hop
  · split at h <;> cases h
    cases hop
  · cases h; cases hop
  · cases h; cases hop
  · rename_i hstage
    rw [hstage]
    rfl
  · rename_i hstage
    rw [hstage]
    rfl
  · rename_i hstage
    rw [hstage]
    rfl
  · rename_i hstage
    rw [hstage]
    rfl
  · rename_i hstage
    rw [hstage]
    rfl
  · rename_i hstage
    rw [hstage]
    rfl
  · rename_i hstage
    rw [hstage]
    rfl
  · cases h

/-- Who is in its loop afterwards was there before, or has just started. -/
theorem OwnMove.stays {db : Database} {now : Time} {w : WorkerId} {p q : Worker} {a : WorkerAction}
    (h : OwnMove db now w p a q) (hq : q.stage.inLoop = true) : p.stage.inLoop = true := by
  cases h with
  | within hconfig hrows hstage hstopping hfenced => exact hstage ▸ hq
  | polled hstage hgoing hfree => rw [hstage]; rfl
  | claimed hstage => rw [hstage]; rfl
  | declaredDead hstage hreply => rw [hstage]; rfl
  | leaving hconfig hrows hfenced hstopping hloop hhanding =>
    rw [hloop] at hq
    cases hq

/-- What becomes of the row of a worker that is in its loop. -/
inductive LoopRow (s : System) (a : Action) (w : WorkerId) (r : WorkerRow) : WorkerRow → Prop
  | kept : LoopRow s a w r r
  | beat (halive : r.status ≠ .dead) : LoopRow s a w r { r with lastHeartbeatAt := s.clock }
  | died {n : Int} (ha : a = .external (.markDeadWorkers n))
      (hstale : stale s.clock n r = true) : LoopRow s a w r { r with status := .dead }

theorem step_loopRow {s s' : System} {a : Action} (h : SystemStep s a s') {w : WorkerId} {p : Worker}
    {r : WorkerRow} (hp : s.workers w = some p) (hloop : p.stage.inLoop = true)
    (hr : s.db.workers.find? w = some r) :
    ∃ r', s'.db.workers.find? w = some r' ∧ LoopRow s a w r r' := by
  obtain ⟨r', hr', rfl | ⟨op, hop, hrow⟩⟩ := step_row h hr
  · exact ⟨r', hr', .kept⟩
  refine ⟨r', hr', ?_⟩
  cases hrow with
  | kept => exact .kept
  | beat hbeat halive => exact .beat halive
  | @died n hmark hstale =>
    obtain rfl : op = .markDeadWorkers n := hmark
    obtain ⟨rfl, -⟩ | ⟨v, capacity, caps, hreg⟩ | ⟨v, p', b, -, -, hissues⟩ := step_issues h hop
    · exact .died rfl hstale
    · cases hreg
    · exact absurd hissues Issues.not_markDead
  | @marked status hmark =>
    obtain rfl : op = .setWorkerStatus w status := hmark
    obtain ⟨-, hext⟩ | ⟨v, capacity, caps, hreg⟩ | ⟨v, p', b, rfl, hp', hissues⟩ := step_issues h hop
    · cases hext
    · cases hreg
    · obtain rfl : w = v := hissues.status
      unfold System.op? at hop
      dsimp only at hop
      rw [hp, Option.bind_some] at hop
      obtain ⟨m, hm, hop⟩ := Option.bind_eq_some_iff.mp hop
      rw [runForever_status hm hop] at hloop
      cases hloop

/-- A heartbeat on a row that is not DEAD takes effect. -/
theorem step_heartbeat {s s' : System} {w : WorkerId} {r : WorkerRow}
    (h : SystemStep s (.worker w .heartbeat) s') (hr : s.db.workers.find? w = some r)
    (halive : r.status ≠ .dead) :
    s'.db.workers.find? w = some { r with lastHeartbeatAt := s.clock } := by
  have hid : r.id = w := Table.key_of_find? hr
  have hop : s.op? (.worker w .heartbeat) = some (.heartbeat w) := by
    have hstep := h
    unfold SystemStep ControlPlane.step at hstep
    dsimp only at hstep
    obtain ⟨p, hp, hstep⟩ := Option.bind_eq_some_iff.mp hstep
    obtain ⟨m, hm, -⟩ := Option.map_eq_some_iff.mp hstep
    unfold System.op?
    dsimp only
    rw [hp, Option.bind_some, hm, Option.bind_some, runForever_heartbeat hm]
  rw [step_db h, hop]
  show (heartbeat s.db s.clock w).1.workers.find? w = _
  unfold heartbeat
  rw [updateWorkers_find? hr, if_pos (by simp [beats, hid, halive])]

/-- Who is in its loop after a step of the system was in its loop, or has just started. -/
theorem step_inLoop {s s' : System} {a : Action} (h : SystemStep s a s') {w : WorkerId} {q : Worker}
    (hq : s'.workers w = some q) (hloop : q.stage.inLoop = true) :
    (∃ p, s.workers w = some p ∧ p.stage.inLoop = true ∧
        (q = p ∨ ∃ b, a = .worker w b ∧ OwnMove s.db s.clock w p b q)) ∨
      ∃ config row, a = .start w config ∧ q.fenced = false ∧ s'.db.workers.find? w = some row ∧
        row.lastHeartbeatAt = s.clock ∧ row.status = .alive := by
  rcases step_workers h with
    ⟨he, -⟩ | ⟨v, config, row, rfl, -, -, hreg, he⟩ | ⟨v, p, b, m, rfl, hp, hm, he⟩
  · exact .inl ⟨q, he ▸ hq, hloop, .inl rfl⟩
  · rw [he] at hq
    rcases update_some hq with ⟨rfl, rfl⟩ | hq
    · obtain ⟨-, hrow, hlast, halive⟩ := registerWorker_row hreg
      exact .inr ⟨config, row, rfl, rfl, hrow, hlast, halive⟩
    · exact .inl ⟨q, hq, hloop, .inl rfl⟩
  · rw [he] at hq
    rcases update_some hq with ⟨rfl, rfl⟩ | hq
    · have hown := runForever_own hm s.db s.clock
      exact .inl ⟨p, hp, hown.stays hloop, .inr ⟨b, rfl, hown⟩⟩
    · exact .inl ⟨q, hq, hloop, .inl rfl⟩

/-- Nobody starts twice. -/
theorem step_start_fresh {s s' : System} {w : WorkerId} {config : WorkerConfig} {p : Worker}
    (h : SystemStep s (.start w config) s') (hp : s.workers w = some p) : False := by
  unfold SystemStep ControlPlane.step at h
  dsimp only at h
  rw [hp] at h
  cases h

/-! ## Heartbeats in time -/

omit [PyText] in
theorem seconds_pos {n : Int} (hpos : 0 < n) : 0 < seconds n := by
  unfold seconds
  exact_mod_cast hpos

/-- The clock of a loop and the worker's row: the present turn began within an interval of
the last heartbeat, or a turn later if its own is under way. -/
structure LoopClock.Beating (interval : Int) (gap now : Time) (c : LoopClock) (r : WorkerRow) :
    Prop where
  turned : c.turnedAt ≤ now
  last : ∀ t, c.lastHeartbeatAt = some t → t ≤ now ∧ (c.beating = false → t ≤ r.lastHeartbeatAt)
  recent : c.beating = false → c.turnedAt < r.lastHeartbeatAt + seconds interval
  due : c.beating = true → c.turnedAt < r.lastHeartbeatAt + seconds interval + gap

namespace LoopClock.Beating

variable {interval : Int} {gap now now' : Time} {c : LoopClock} {r : WorkerRow}

omit [PyText] in
theorem later (h : c.Beating interval gap now r) (hle : now ≤ now') :
    c.Beating interval gap now' r :=
  ⟨h.turned.trans hle, fun t ht => ⟨(h.last t ht).1.trans hle, (h.last t ht).2⟩, h.recent, h.due⟩

omit [PyText] in
/-- A heartbeat from elsewhere only makes the row more recent. -/
theorem renewed (h : c.Beating interval gap now r) (hpos : 0 < interval)
    (ht : now ≤ c.turnedAt + gap) :
    c.Beating interval gap now { r with lastHeartbeatAt := now } := by
  have hinterval := seconds_pos hpos
  have hturned := h.turned
  refine ⟨hturned, fun t ht => ⟨(h.last t ht).1, fun _ => (h.last t ht).1⟩, fun _ => ?_,
    fun _ => ?_⟩
  · exact lt_of_le_of_lt hturned (lt_add_of_pos_right now hinterval)
  · show c.turnedAt < now + seconds interval + gap
    linarith

omit [PyText] in
theorem fresh {last : Option Time} {turned : Time} (hpos : 0 < interval)
    (hr : r.lastHeartbeatAt = now) (hturned : turned ≤ now) (hlast : ∀ t, last = some t → t ≤ now) :
    (LoopClock.mk last turned false).Beating interval gap now r := by
  have hinterval := seconds_pos hpos
  refine ⟨hturned, fun t ht => ⟨hlast t ht, fun _ => hr ▸ hlast t ht⟩, fun _ => ?_, nofun⟩
  show turned < r.lastHeartbeatAt + seconds interval
  linarith

omit [PyText] in
theorem throttled {t : Time} (h : c.Beating interval gap now r) (hidle : c.beating = false)
    (ht : c.lastHeartbeatAt = some t) (hearly : now - t < seconds interval) :
    LoopClock.Beating interval gap now { c with turnedAt := now } r := by
  refine ⟨le_refl now, h.last, fun _ => ?_, fun hbeating => ?_⟩
  · have hrow := (h.last t ht).2 hidle
    show now < r.lastHeartbeatAt + seconds interval
    linarith
  · rw [show c.beating = true from hbeating] at hidle
    cases hidle

omit [PyText] in
/-- A turn that has a heartbeat to send began when the one before it was over. -/
theorem started (h : c.Beating interval gap now r) (hidle : c.beating = false)
    (ht : now ≤ c.turnedAt + gap) :
    (LoopClock.mk (some now) now true).Beating interval gap now r := by
  refine ⟨le_refl now, fun t ht => ⟨(Option.some.inj ht).ge, nofun⟩, nofun, fun _ => ?_⟩
  have hrecent := h.recent hidle
  show now < r.lastHeartbeatAt + seconds interval + gap
  linarith

omit [PyText] in
/-- Its heartbeat is in the row. -/
theorem beaten (h : c.Beating interval gap now r) (hpos : 0 < interval) :
    LoopClock.Beating interval gap now { c with beating := false }
      { r with lastHeartbeatAt := now } :=
  fresh hpos rfl h.turned fun t ht => (h.last t ht).1

omit [PyText] in
/-- A worker that is beating and turns in time is not silent for as long as the setting. -/
theorem not_stale {n : Int} (h : c.Beating interval gap now r) (ht : now ≤ c.turnedAt + gap)
    (hfit : seconds interval + 2 * gap ≤ seconds n) : stale now n r = false := by
  have hturned := h.turned
  have hlast : ¬ r.lastHeartbeatAt < now - seconds n := by
    intro hlt
    cases hbeating : c.beating with
    | false => linarith [h.recent hbeating]
    | true => linarith [h.due hbeating]
  simp [stale, hlast]

end LoopClock.Beating

omit [PyText] in
/-- The worker is not DEAD and its heartbeats come in time. -/
def TimedFleet.Alive (interval : Int) (gap : Time) (f : TimedFleet) : Prop :=
  ∀ w p, f.sys.workers w = some p → p.stage.inLoop = true → p.fenced = false ∧
    ∃ r, f.sys.db.workers.find? w = some r ∧ r.status ≠ .dead ∧
      (f.loops w).Beating interval gap f.sys.clock r

/-- What a step of the system keeps of a worker that was in its loop. -/
theorem alive_kept {s : Settings} {gap : Time} {f : TimedFleet} {a : Action} {sys : System}
    (hpos : 0 < s.heartbeatIntervalS)
    (hfit : seconds s.heartbeatIntervalS + 2 * gap ≤ seconds s.workerDeadAfterS)
    (h : SystemStep f.sys a sys) (hf : f.Alive s.heartbeatIntervalS gap) (ht : f.Timely gap)
    (hsweeps : ∀ n, a = .external (.markDeadWorkers n) → n = s.workerDeadAfterS)
    {w : WorkerId} {p q : Worker} (hp : f.sys.workers w = some p) (hloop : p.stage.inLoop = true)
    (hq : q = p ∨ ∃ b, a = .worker w b ∧ OwnMove f.sys.db f.sys.clock w p b q) :
    q.fenced = false ∧ ∃ r, sys.db.workers.find? w = some r ∧ r.status ≠ .dead ∧
      (f.loops w).Beating s.heartbeatIntervalS gap sys.clock r := by
  obtain ⟨hunfenced, r, hr, halive, hbeating⟩ := hf w p hp hloop
  refine ⟨?_, ?_⟩
  · rcases hq with rfl | ⟨b, -, hown⟩
    · exact hunfenced
    · by_contra hfenced
      rcases hown.fenced (by simpa using hfenced) with hbefore | ⟨-, hrefused⟩
      · rw [hunfenced] at hbefore
        cases hbefore
      · exact halive (heartbeat_refused hr hrefused)
  · obtain ⟨r', hr', hrow⟩ := step_loopRow h hp hloop hr
    refine ⟨r', hr', ?_⟩
    have hclock := step_clock h
    cases hrow with
    | kept => exact ⟨halive, hbeating.later hclock⟩
    | beat _ => exact ⟨halive, (hbeating.renewed hpos (ht w p hp hloop)).later hclock⟩
    | @died n ha hstale =>
      obtain rfl := hsweeps n ha
      rw [hbeating.not_stale (ht w p hp hloop) hfit] at hstale
      cases hstale

theorem InTime.alive {s : Settings} {gap : Time} {f f' : TimedFleet} {a : TimedAction}
    (h : InTime s gap f a f') (hpos : 0 < s.heartbeatIntervalS)
    (hfit : seconds s.heartbeatIntervalS + 2 * gap ≤ seconds s.workerDeadAfterS)
    (hf : f.Alive s.heartbeatIntervalS gap) : f'.Alive s.heartbeatIntervalS gap := by
  obtain ⟨hsys, hclock⟩ := TimedFleet.step_move h.step
  obtain ⟨sys, loops⟩ := f'
  intro v q hq hloop
  have hmove := hclock v
  dsimp only at hsys hq hmove ⊢
  generalize loops v = c at hmove ⊢
  cases hsys with
  | turn =>
    obtain ⟨hunfenced, r, hr, halive, hbeating⟩ := hf v q hq hloop
    refine ⟨hunfenced, r, hr, halive, ?_⟩
    cases hmove with
    | kept hbeat hstart => exact hbeating
    | throttled hidle ht hearly => exact hbeating.throttled hidle ht hearly
    | due hp hstage hidle => exact hbeating.started hidle (h.timely v q hq hloop)
  | beat hsys =>
    rcases step_inLoop hsys hq hloop with ⟨p, hp, hploop, hown⟩ | ⟨config, row, ha, -⟩
    swap
    · cases ha
    obtain ⟨hunfenced, r', hr', halive', hbeating'⟩ :=
      alive_kept hpos hfit hsys hf h.timely (fun n hn => by cases hn) hp hploop hown
    cases hmove with
    | kept hbeat hstart => exact ⟨hunfenced, r', hr', halive', hbeating'⟩
    | beaten =>
      obtain ⟨-, r, hr, halive, hbeating⟩ := hf v p hp hploop
      exact ⟨hunfenced, _, step_heartbeat hsys hr halive, halive,
        (hbeating.beaten hpos).later (step_clock hsys)⟩
  | other hidle hsys =>
    rcases step_inLoop hsys hq hloop with
      ⟨p, hp, hploop, hown⟩ | ⟨config, row, rfl, hunfenced, hrow, hlast, halive⟩
    · obtain ⟨hunfenced, r', hr', halive', hbeating'⟩ := alive_kept hpos hfit hsys hf h.timely
        (fun n hn => h.sweeps n (congrArg _ hn)) hp hploop hown
      cases hmove with
      | kept hbeat hstart => exact ⟨hunfenced, r', hr', halive', hbeating'⟩
      | started => exact (step_start_fresh hsys hp).elim
    · refine ⟨hunfenced, row, hrow, by rw [halive]; decide, ?_⟩
      cases hmove with
      | kept hbeat hstart => exact absurd rfl (hstart config)
      | started =>
        have hfresh : LoopClock.Beating s.heartbeatIntervalS gap f.sys.clock
            { turnedAt := f.sys.clock } row :=
          .fresh hpos hlast (le_refl _) fun t ht => by cases ht
        exact hfresh.later (step_clock hsys)

/-- None of the workers in their loops is ever declared DEAD, whatever else happens. -/
def NeverDeclaredDead (s : Settings) (gap : Time) : Prop :=
  ∀ acts f, Run (InTime s gap) .initial acts f → ∀ w p, f.sys.workers w = some p →
    p.stage.inLoop = true → ¬ f.sys.db.Dead w

theorem never_declaredDead {s : Settings} {gap : Time} (hpos : 0 < s.heartbeatIntervalS)
    (hfit : seconds s.heartbeatIntervalS + 2 * gap ≤ seconds s.workerDeadAfterS) :
    NeverDeclaredDead s gap := by
  intro acts f h w p hp hloop hdead
  have halive : f.Alive s.heartbeatIntervalS gap :=
    h.invariant (fun hf hst => InTime.alive hst hpos hfit hf) fun w p hp => by cases hp
  obtain ⟨-, r, hr, hne, -⟩ := halive w p hp hloop
  obtain ⟨r', hr', hdead⟩ := hdead
  obtain rfl := Option.eq_some_unique hr hr'
  exact hne hdead

/-! ## A worker that is late -/

/-- The only worker is at the top of its loop; it last beat at `last`. -/
structure TimedFleet.Solo (w : WorkerId) (last turned : Time) (f : TimedFleet) : Prop where
  only : ∀ v p, f.sys.workers v = some p → v = w
  turns : ∃ p, f.sys.workers w = some p ∧ p.turns = true
  row : ∃ r, f.sys.db.workers.find? w = some r ∧ r.status = .alive ∧ r.lastHeartbeatAt = last
  clock : f.loops w = ⟨some last, turned, false⟩

namespace TimedFleet.Solo

variable {s : Settings} {gap d last turned : Time} {w : WorkerId} {f : TimedFleet}

omit [PyText] in
theorem timely (h : f.Solo w last turned) (ht : f.sys.clock ≤ turned + gap) : f.Timely gap := by
  intro v p hp _
  obtain rfl := h.only v p hp
  rw [h.clock]
  exact ht

/-- Time passes. -/
theorem later (h : f.Solo w last turned) (ht : f.sys.clock ≤ turned + gap) (hd : 0 ≤ d) :
    ∃ f', InTime s gap f (.other (.advance d)) f' ∧ f'.Solo w last turned ∧
      f'.sys.clock = f.sys.clock + d := by
  refine ⟨{ f with sys := { f.sys with clock := f.sys.clock + d } }, ?_, ?_, rfl⟩
  · refine ⟨?_, h.timely ht, nofun⟩
    simp [TimedFleet.step, Action.isHeartbeat, Action.resumes?, ControlPlane.step, hd]
  · exact ⟨h.only, h.turns, h.row, h.clock⟩

/-- A turn too early for a heartbeat. -/
theorem turn (h : f.Solo w last turned) (ht : f.sys.clock ≤ turned + gap)
    (hearly : f.sys.clock - last < seconds s.heartbeatIntervalS) :
    ∃ f', InTime s gap f (.turn w) f' ∧ f'.Solo w last f.sys.clock ∧ f'.sys = f.sys := by
  obtain ⟨p, hp, hturns⟩ := h.turns
  refine ⟨⟨f.sys, Function.update f.loops w ⟨some last, f.sys.clock, false⟩⟩,
    ⟨?_, h.timely ht, nofun⟩, ⟨h.only, h.turns, h.row, ?_⟩, rfl⟩
  · simp [TimedFleet.step, hp, hturns, h.clock, LoopClock.turn, LoopClock.throttled, hearly]
  · exact Function.update_self ..

/-- Any number of turns, each as late as may be, while no heartbeat is due. -/
theorem turning (h : f.Solo w last f.sys.clock) (hd : 0 ≤ d) (hgap : d ≤ gap) (n : ℕ)
    (hearly : f.sys.clock + n * d - last < seconds s.heartbeatIntervalS) :
    ∃ acts f', Run (InTime s gap) f acts f' ∧ f'.Solo w last f'.sys.clock ∧
      f'.sys.clock = f.sys.clock + n * d := by
  induction n with
  | zero => exact ⟨[], f, .nil f, h, by simp⟩
  | succ n ih =>
    push_cast at hearly ⊢
    obtain ⟨acts, f₁, hrun, hf₁, hclock⟩ := ih (by linarith)
    have hnow : f₁.sys.clock ≤ f₁.sys.clock + gap := by linarith
    obtain ⟨f₂, hlater, hf₂, hclock₂⟩ := hf₁.later (s := s) hnow hd
    have hturned : f₂.sys.clock ≤ f₁.sys.clock + gap := by linarith
    obtain ⟨f₃, hturn, hf₃, hsys⟩ := hf₂.turn (s := s) hturned (by linarith)
    rw [← hsys] at hf₃
    refine ⟨_, f₃, (hrun.snoc hlater).snoc hturn, hf₃, ?_⟩
    rw [hsys, hclock₂, hclock]
    ring

/-- A turn as late as may be, at whose start the heartbeat is due; a reaper comes at its end,
before the transaction of the heartbeat. -/
theorem declared (h : f.Solo w last f.sys.clock) (hgap : 0 ≤ gap)
    (hdue : last + seconds s.heartbeatIntervalS ≤ f.sys.clock + gap)
    (hlate : last + seconds s.workerDeadAfterS < f.sys.clock + 2 * gap) :
    ∃ acts f', Run (InTime s gap) f acts f' ∧ f'.sys.db.Dead w ∧
      ∃ p, f'.sys.workers w = some p ∧ p.turns = true := by
  have hnow : f.sys.clock ≤ f.sys.clock + gap := by linarith
  obtain ⟨f₁, hlater, hf₁, hclock⟩ := h.later (s := s) hnow hgap
  obtain ⟨p, hp, hturns⟩ := hf₁.turns
  obtain ⟨r, hr, halive, hlast⟩ := hf₁.row
  have hid : r.id = w := Table.key_of_find? hr
  let turned : LoopClock := ⟨some f₁.sys.clock, f₁.sys.clock, true⟩
  let f₂ : TimedFleet := ⟨f₁.sys, Function.update f₁.loops w turned⟩
  have hturn : InTime s gap f₁ (.turn w) f₂ := by
    have hlong : ¬ f₁.sys.clock - last < seconds s.heartbeatIntervalS := by linarith
    refine ⟨?_, hf₁.timely (by linarith), nofun⟩
    simp [TimedFleet.step, hp, hturns, hf₁.clock, LoopClock.turn, LoopClock.throttled, hlong, f₂,
      turned]
  have htimely : ∀ {sys : System}, sys.workers = f₁.sys.workers →
      sys.clock ≤ f₁.sys.clock + gap → TimedFleet.Timely gap ⟨sys, f₂.loops⟩ := by
    intro sys hworkers hclock v q hq _
    obtain rfl := hf₁.only v q (hworkers ▸ hq)
    dsimp only [f₂]
    rw [Function.update_self]
    exact hclock
  let sys : System := { f₁.sys with clock := f₁.sys.clock + gap }
  have hwait : InTime s gap f₂ (.other (.advance gap)) ⟨sys, f₂.loops⟩ := by
    refine ⟨?_, htimely rfl (by linarith), nofun⟩
    simp [TimedFleet.step, Action.isHeartbeat, Action.resumes?, ControlPlane.step, hgap, sys, f₂]
  have hstale : stale sys.clock s.workerDeadAfterS r = true := by
    simp [stale, halive, hlast, sys]
    linarith
  let op := Op.markDeadWorkers s.workerDeadAfterS
  have hsweep : InTime s gap ⟨sys, f₂.loops⟩ (.other (.external op))
      ⟨{ sys with db := commit sys.db ⟨sys.clock, op⟩ }, f₂.loops⟩ := by
    refine ⟨?_, htimely rfl (le_refl _), by simp [op]⟩
    simp [TimedFleet.step, Action.isHeartbeat, Action.resumes?, ControlPlane.step, Op.external, op]
  refine ⟨_, _, (((Run.single hlater).snoc hturn).snoc hwait).snoc hsweep,
    ⟨{ r with status := .dead }, ?_, rfl⟩, ⟨p, hp, hturns⟩⟩
  show (markDeadWorkers sys.db sys.clock s.workerDeadAfterS).1.workers.find? w = _
  unfold markDeadWorkers
  rw [updateWorkers_find? hr, if_pos hstale]

end TimedFleet.Solo

/-- A worker starts, and beats at once. -/
theorem started_solo {s : Settings} {gap : Time} (hgap : 0 ≤ gap) :
    ∃ acts f, Run (InTime s gap) .initial acts f ∧ f.Solo "worker" 0 0 ∧ f.sys.clock = 0 := by
  let config : WorkerConfig := { capacity := 1, capabilities := [] }
  let registered : TimedFleet :=
    ⟨(ControlPlane.step .initial (.start "worker" config)).getD .initial,
      Function.update TimedFleet.initial.loops "worker" { turnedAt := 0 }⟩
  let turned : TimedFleet :=
    ⟨registered.sys, Function.update registered.loops "worker" ⟨some 0, 0, true⟩⟩
  have honly : ∀ v p, registered.sys.workers v = some p → v = "worker" := by
    intro v p hp
    rcases update_some hp with ⟨rfl, -⟩ | hp
    · rfl
    · cases hp
  have htimely : ∀ c : LoopClock, c.turnedAt = 0 →
      TimedFleet.Timely gap ⟨registered.sys, Function.update registered.loops "worker" c⟩ := by
    intro c hc v p hp _
    obtain rfl := honly v p hp
    dsimp only
    rw [Function.update_self, hc]
    exact (zero_add gap).ge.trans' hgap
  have hstart : InTime s gap .initial (.other (.start "worker" config)) registered :=
    ⟨rfl, fun v p hp => (by cases hp), nofun⟩
  have hturn : InTime s gap registered (.turn "worker") turned :=
    ⟨rfl, by simpa [registered] using htimely { turnedAt := 0 } rfl, nofun⟩
  refine ⟨[.other (.start "worker" config), .turn "worker", .beat "worker"], _,
    .cons hstart (.cons hturn (.cons ⟨rfl, htimely ⟨some 0, 0, true⟩ rfl, nofun⟩ (.nil _))),
    ⟨?_, ⟨_, rfl, rfl⟩, ⟨_, rfl, rfl, rfl⟩, rfl⟩, rfl⟩
  intro v p hp
  rcases update_some hp with ⟨rfl, -⟩ | hp
  · rfl
  · exact honly v p hp

omit [PyText] in
/-- Some number of equal steps, none longer than `gap`, reach a given time. -/
theorem equal_steps {t gap : Time} (ht : 0 ≤ t) (hgap : 0 < gap) :
    ∃ (n : ℕ) (d : Time), 0 ≤ d ∧ d ≤ gap ∧ n * d = t := by
  rcases ht.eq_or_lt with rfl | hpos
  · exact ⟨0, 0, le_refl 0, hgap.le, by simp⟩
  obtain ⟨n, hn⟩ := exists_nat_ge (t / gap)
  have hnpos : (0 : Time) < n := (div_pos hpos hgap).trans_le hn
  refine ⟨n, t / n, (div_pos hpos hnpos).le, ?_, mul_div_cancel₀ t hnpos.ne'⟩
  rw [div_le_iff₀ hnpos, mul_comm]
  exact (div_le_iff₀ hgap).mp hn

/-- **Heartbeats suffice exactly when an interval and two turns fit the reaper's setting**:
then no worker in its loop is declared DEAD in any run, and otherwise some run has one
that is, though no turn of its loop took too long. -/
theorem heartbeats_suffice_iff {s : Settings} {gap : Time} (hpos : 0 < s.heartbeatIntervalS)
    (hgap : 0 < gap) : NeverDeclaredDead s gap ↔
      seconds s.heartbeatIntervalS + 2 * gap ≤ seconds s.workerDeadAfterS := by
  refine ⟨fun h => ?_, never_declaredDead hpos⟩
  by_contra hshort
  have hinterval := seconds_pos hpos
  -- the last turn before a heartbeat is due: the next one is late enough to have it to send,
  -- and the setting runs out before that turn is over
  have hroom : max (max (seconds s.workerDeadAfterS - 2 * gap) (seconds s.heartbeatIntervalS - gap))
      0 < seconds s.heartbeatIntervalS :=
    max_lt (max_lt (by linarith) (by linarith)) hinterval
  obtain ⟨t, hlow, ht⟩ := exists_between hroom
  obtain ⟨hlow, hpast⟩ := max_lt_iff.mp hlow
  obtain ⟨hdeadline, hdue⟩ := max_lt_iff.mp hlow
  obtain ⟨n, d, hd, hle, rfl⟩ := equal_steps hpast.le hgap
  obtain ⟨start, f, hstart, hf, hzero⟩ := started_solo (s := s) hgap.le
  rw [← hzero] at hf
  obtain ⟨turns, f₁, hturns, hf₁, hclock⟩ := hf.turning (s := s) hd hle n (by linarith)
  obtain ⟨last, f₂, hlast, hdead, p, hp, hloops⟩ :=
    hf₁.declared (s := s) hgap.le (by linarith) (by linarith)
  refine h _ f₂ ((hstart.append hturns).append hlast) "worker" p hp ?_ hdead
  rw [Worker.turns_polling hloops]
  rfl

omit [PyText] in
theorem heartbeats_suffice_iff_default :
    @NeverDeclaredDead PyText.plain {} 5 ∧ ¬ @NeverDeclaredDead PyText.plain {} 6 := by
  have h := @heartbeats_suffice_iff PyText.plain {} 5 (by decide) (by decide +kernel)
  have h' := @heartbeats_suffice_iff PyText.plain {} 6 (by decide) (by decide +kernel)
  exact ⟨h.mpr (by decide +kernel), fun hnever => absurd (h'.mp hnever) (by decide +kernel)⟩

/-- Settings that pass their own check leave a turn of the loop half an interval. -/
theorem validated_timing_suffices {s : Settings} {gap : Time} (hs : s.validateTiming = .ok ())
    (hpos : 0 < s.heartbeatIntervalS) (hgap : 2 * gap ≤ seconds s.heartbeatIntervalS) :
    NeverDeclaredDead s gap := by
  refine never_declaredDead hpos ?_
  have hfit : (2 * s.heartbeatIntervalS : ℚ) < s.workerDeadAfterS := by
    exact_mod_cast (Settings.validateTiming_ok.mp hs).2
  unfold seconds at hgap ⊢
  linarith

/-! ## After a declaration -/

theorem SystemMove.fencing {f : TimedFleet} {a : TimedAction} {sys : System}
    (h : SystemMove f a sys) (hf : f.sys.Fencing) : sys.Fencing := by
  cases h with
  | turn => exact hf
  | beat h => exact step_fencing h hf
  | other hidle h => exact step_fencing h hf

/-- The clocks of the loops show times gone by. -/
def TimedFleet.Past (f : TimedFleet) : Prop :=
  ∀ w, (f.loops w).turnedAt ≤ f.sys.clock ∧ ∀ t, (f.loops w).lastHeartbeatAt = some t → t ≤ f.sys.clock

theorem TimedMove.past {interval : Int} {f f' : TimedFleet} {a : TimedAction}
    (h : TimedMove interval f a f') (hf : f.Past) : f'.Past := by
  intro v
  have hlater := h.sys.later
  have hlast : ∀ t, (f.loops v).lastHeartbeatAt = some t → t ≤ f'.sys.clock :=
    fun t ht => ((hf v).2 t ht).trans hlater
  have hmove := h.clock v
  generalize f'.loops v = c at hmove ⊢
  cases hmove with
  | kept hbeat hstart => exact ⟨(hf v).1.trans hlater, hlast⟩
  | throttled hidle ht hearly => exact ⟨hlater, hlast⟩
  | due hp hstage hidle => exact ⟨hlater, fun t ht => (Option.some.inj ht).symm.trans_le hlater⟩
  | beaten => exact ⟨(hf v).1.trans hlater, hlast⟩
  | started => exact ⟨hlater, nofun⟩

/-- A main coroutine that waits for its heartbeat does nothing else. -/
def TimedFleet.Waits (f : TimedFleet) : Prop :=
  ∀ w p, f.sys.workers w = some p → p.stage.inLoop = true → (f.loops w).beating = true →
    p.stage = .polling

theorem TimedMove.waits {interval : Int} {f f' : TimedFleet} {a : TimedAction}
    (h : TimedMove interval f a f') (hf : f.Waits) : f'.Waits := by
  obtain ⟨hsys, hclock⟩ := h
  obtain ⟨sys, loops⟩ := f'
  intro v q hq hloop hbeating
  have hmove := hclock v
  dsimp only at hsys hq hmove hbeating
  generalize loops v = c at hmove hbeating
  cases hmove with
  | kept hbeat hstart =>
    cases hsys with
    | turn => exact hf v q hq hloop hbeating
    | beat hsys =>
      rcases step_inLoop hsys hq hloop with
        ⟨p, hp, hploop, rfl | ⟨b, ha, -⟩⟩ | ⟨config, row, ha, -⟩
      · exact hf v q hp hploop hbeating
      · cases ha
        exact absurd rfl hbeat
      · cases ha
    | other hidle hsys =>
      rcases step_inLoop hsys hq hloop with ⟨p, hp, hploop, hown⟩ | ⟨config, row, rfl, -⟩
      swap
      · exact absurd rfl (hstart config)
      have hpolling := hf v p hp hploop hbeating
      rcases hown with rfl | ⟨b, rfl, hown⟩
      · exact hpolling
      cases hown with
      | within hconfig hrows hstage hstopping hfenced => rw [hstage, hpolling]
      | polled hstage hgoing hfree => cases (hidle v rfl).symm.trans hbeating
      | claimed hstage =>
        rw [hstage] at hpolling
        cases hpolling
      | declaredDead hstage hreply => exact hstage
      | leaving hconfig hrows hfenced hstopping hleft hhanding =>
        rw [hleft] at hloop
        cases hloop
  | throttled hidle ht hearly => cases hidle.symm.trans hbeating
  | due hp hstage hidle =>
    cases hsys
    rw [Option.some.inj (hq.symm.trans hp), hstage]
  | beaten => cases hbeating
  | started => cases hbeating

/-- The heartbeat of a DEAD worker is refused. -/
theorem runForever_refused {w : WorkerId} {p : Worker} {m : Move Worker} {db : Database} {now : Time}
    (h : runForever w p .heartbeat = some m) (hdead : db.Dead w) :
    (m.run db now).2.fenced = true := by
  obtain ⟨r, hr, hdead⟩ := hdead
  have hrefused : (heartbeat db now w).2 = false := (heartbeat_dead hr hdead).1
  unfold runForever at h
  cases hstage : p.stage with
  | polling =>
    simp only [hstage] at h
    split at h <;> cases h
    simp [Move.run, perform, hrefused, Except.map]
  | _ =>
    simp only [hstage] at h
    cases h

/-- The worker was declared DEAD by the time `declared`: while it has not noticed, either its
heartbeat is under way or its last one is older and the next one is due. -/
structure TimedFleet.Declared (interval : Int) (w : WorkerId) (declared : Time) (f : TimedFleet) :
    Prop where
  fencing : f.sys.Fencing
  started : (f.sys.workers w).isSome = true
  unaware : ∀ p, f.sys.workers w = some p → p.stage.inLoop = true → p.fenced = false →
    f.sys.db.Dead w ∧ ((f.loops w).beating = false →
      (f.loops w).turnedAt < declared + seconds interval ∧
      ∀ t, (f.loops w).lastHeartbeatAt = some t → t ≤ declared)

theorem heartbeat_tells {s s' : System} {w : WorkerId} {q : Worker}
    (h : SystemStep s (.worker w .heartbeat) s') (hdead : s.db.Dead w)
    (hq : s'.workers w = some q) : q.fenced = true := by
  unfold SystemStep ControlPlane.step at h
  dsimp only at h
  obtain ⟨p, hp, h⟩ := Option.bind_eq_some_iff.mp h
  obtain ⟨m, hm, rfl⟩ := Option.map_eq_some_iff.mp h
  dsimp only at hq
  rw [Function.update_self] at hq
  obtain rfl := Option.some.inj hq
  exact runForever_refused hm hdead

/-- No worker goes away. -/
theorem step_present {s s' : System} {a : Action} (h : SystemStep s a s') {w : WorkerId}
    (hw : (s.workers w).isSome = true) : (s'.workers w).isSome = true := by
  rcases step_workers h with ⟨he, -⟩ | ⟨v, config, row, -, -, -, -, he⟩ | ⟨v, p, b, m, -, -, -, he⟩
  · rw [he, hw]
  all_goals
    rw [he]
    by_cases hv : w = v
    · simp [hv]
    · rw [Function.update_of_ne hv, hw]

/-- Who has not noticed after a step had not noticed before it. -/
theorem step_unaware {s s' : System} {a : Action} (h : SystemStep s a s') (hs : s.Fencing)
    {w : WorkerId} (hw : (s.workers w).isSome = true) {q : Worker} (hq : s'.workers w = some q)
    (hloop : q.stage.inLoop = true) (hunaware : q.fenced = false) :
    ∃ p, s.workers w = some p ∧ p.stage.inLoop = true ∧ p.fenced = false := by
  obtain ⟨p, hp⟩ := Option.isSome_iff_exists.mp hw
  rcases step_inLoop h hq hloop with ⟨p, hp, hploop, hown⟩ | ⟨config, row, rfl, -⟩
  swap
  · exact (step_start_fresh h hp).elim
  refine ⟨p, hp, hploop, ?_⟩
  rcases hown with rfl | ⟨b, -, hown⟩
  · exact hunaware
  · by_contra hfenced
    rw [(hown.still (hs.withdrawn w p hp) (by simpa using hfenced)).1] at hunaware
    cases hunaware

theorem step_claiming {s s' : System} {w : WorkerId} {scans : Nat → Scan}
    (h : SystemStep s (.worker w (.claim scans)) s') :
    ∃ p, s.workers w = some p ∧ p.stage = .claiming := by
  unfold SystemStep ControlPlane.step at h
  dsimp only at h
  obtain ⟨p, hp, h⟩ := Option.bind_eq_some_iff.mp h
  obtain ⟨m, hm, -⟩ := Option.map_eq_some_iff.mp h
  refine ⟨p, hp, ?_⟩
  unfold runForever at hm
  cases hstage : p.stage with
  | claiming => rfl
  | _ =>
    simp only [hstage] at hm
    cases hm

/-- A worker in its loop stays DEAD. -/
theorem step_dead {s s' : System} {a : Action} (h : SystemStep s a s') {w : WorkerId} {p : Worker}
    (hp : s.workers w = some p) (hloop : p.stage.inLoop = true) (hdead : s.db.Dead w) :
    s'.db.Dead w := by
  obtain ⟨r, hr, hdead⟩ := hdead
  obtain ⟨r', hr', hrow⟩ := step_loopRow h hp hloop hr
  refine ⟨r', hr', ?_⟩
  cases hrow with
  | kept => exact hdead
  | beat halive => exact absurd hdead halive
  | died ha hstale => rfl

theorem TimedMove.declared {interval : Int} {declared : Time} {w : WorkerId} {f f' : TimedFleet}
    {a : TimedAction} (h : TimedMove interval f a f') (hf : f.Declared interval w declared) :
    f'.Declared interval w declared := by
  obtain ⟨hsys, hmoves⟩ := h
  obtain ⟨sys, loops⟩ := f'
  have hmove := hmoves w
  dsimp only at hsys hmove
  have hstep : ∀ {b : Action}, SystemStep f.sys b sys → sys.Fencing ∧
      (sys.workers w).isSome = true ∧ ∀ q, sys.workers w = some q → q.stage.inLoop = true →
        q.fenced = false → f.sys.db.Dead w ∧ sys.db.Dead w ∧ ((f.loops w).beating = false →
          (f.loops w).turnedAt < declared + seconds interval ∧
          ∀ t, (f.loops w).lastHeartbeatAt = some t → t ≤ declared) := by
    intro b hsys
    refine ⟨step_fencing hsys hf.fencing, step_present hsys hf.started, fun q hq hloop hunaware => ?_⟩
    obtain ⟨p, hp, hploop, hpunaware⟩ :=
      step_unaware hsys hf.fencing hf.started hq hloop hunaware
    obtain ⟨hdead, hclock⟩ := hf.unaware p hp hploop hpunaware
    exact ⟨hdead, step_dead hsys hp hploop hdead, hclock⟩
  cases hsys with
  | turn =>
    refine ⟨hf.fencing, hf.started, fun q hq hloop hunaware => ?_⟩
    obtain ⟨hdead, hclock⟩ := hf.unaware q hq hloop hunaware
    refine ⟨hdead, ?_⟩
    dsimp only
    generalize loops w = c at hmove ⊢
    cases hmove with
    | kept hbeat hstart => exact hclock
    | throttled hidle ht hearly =>
      obtain ⟨-, hlast⟩ := hclock hidle
      have hbefore := hlast _ ht
      exact fun _ => ⟨by dsimp only; linarith, hlast⟩
    | due hp hstage hidle => exact nofun
  | beat hsys =>
    obtain ⟨hfencing, hstarted, hkept⟩ := hstep hsys
    refine ⟨hfencing, hstarted, fun q hq hloop hunaware => ?_⟩
    obtain ⟨hbefore, hdead, hclock⟩ := hkept q hq hloop hunaware
    refine ⟨hdead, ?_⟩
    dsimp only
    generalize loops w = c at hmove ⊢
    cases hmove with
    | kept hbeat hstart => exact hclock
    | beaten =>
      rw [heartbeat_tells hsys hbefore hq] at hunaware
      cases hunaware
  | other hidle hsys =>
    obtain ⟨hfencing, hstarted, hkept⟩ := hstep hsys
    refine ⟨hfencing, hstarted, fun q hq hloop hunaware => ?_⟩
    obtain ⟨-, hdead, hclock⟩ := hkept q hq hloop hunaware
    refine ⟨hdead, ?_⟩
    dsimp only
    generalize loops w = c at hmove ⊢
    cases hmove with
    | kept hbeat hstart => exact hclock
    | started =>
      obtain ⟨p, hp⟩ := Option.isSome_iff_exists.mp hf.started
      exact (step_start_fresh hsys hp).elim

/-- **A worker that was declared DEAD soon stops claiming**: in every continuation the
last of its claims comes before another interval and a turn are over. -/
theorem declared_dead_stops {s : Settings} {gap : Time} (hpos : 0 < s.heartbeatIntervalS)
    {acts : List TimedAction} {f : TimedFleet} (h : Run (InTime s gap) .initial acts f)
    {w : WorkerId} {p : Worker} (hp : f.sys.workers w = some p) (hdead : f.sys.db.Dead w)
    {more : List TimedAction} {f' : TimedFleet} (h' : Run (InTime s gap) f more f')
    {scans : Nat → Scan} {f'' : TimedFleet}
    (hclaim : InTime s gap f' (.other (.worker w (.claim scans))) f'') :
    f'.sys.clock < f.sys.clock + seconds s.heartbeatIntervalS + gap := by
  have hpast : f.Past ∧ f.sys.Fencing := by
    refine h.invariant (I := fun u => u.Past ∧ u.sys.Fencing) (fun hu hst => ?_)
      ⟨fun v => ⟨le_refl _, nofun⟩, initial_fencing⟩
    have hmove := TimedFleet.step_move hst.step
    exact ⟨hmove.past hu.1, hmove.sys.fencing hu.2⟩
  have hwaits : f'.Waits :=
    (h.append h').invariant (fun hu hst => (TimedFleet.step_move hst.step).waits hu) nofun
  have hdeclared : f.Declared s.heartbeatIntervalS w f.sys.clock := by
    refine ⟨hpast.2, by rw [hp]; rfl, fun p' hp' hloop hunaware => ⟨hdead, fun _ => ?_⟩⟩
    exact ⟨by linarith [(hpast.1 w).1, seconds_pos hpos], (hpast.1 w).2⟩
  have hend : f'.Declared s.heartbeatIntervalS w f.sys.clock :=
    h'.invariant (fun hu hst => (TimedFleet.step_move hst.step).declared hu) hdeclared
  cases (TimedFleet.step_move hclaim.step).sys with
  | other hidle hsys =>
    obtain ⟨q, hq, hstage⟩ := step_claiming hsys
    have hloop : q.stage.inLoop = true := by
      rw [hstage]
      rfl
    have hunaware : q.fenced = false := by
      by_contra hfenced
      have hclaiming := (hend.fencing.withdrawn w q hq (by simpa using hfenced)).2.1
      rw [hstage] at hclaiming
      cases hclaiming
    have hidle : (f'.loops w).beating = false := by
      by_contra hbeating
      have hpolling := hwaits w q hq hloop (by simpa using hbeating)
      rw [hstage] at hpolling
      cases hpolling
    linarith [hclaim.timely w q hq hloop, ((hend.unaware q hq hloop hunaware).2 hidle).1]

omit [PyText] in
/-- The check of a step of a fleet of one. -/
def TimedFleet.inTime (s : Settings) (gap : Time) (w : WorkerId) (f : TimedFleet) (a : TimedAction) :
    Bool :=
  decide (f.sys.clock ≤ (f.loops w).turnedAt + gap) && match a with
  | .other (.start v _) => v == w
  | .other (.external (.markDeadWorkers n)) => n == s.workerDeadAfterS
  | _ => true

/-- No worker runs but this one. -/
def TimedFleet.Only (w : WorkerId) (f : TimedFleet) : Prop :=
  ∀ v p, f.sys.workers v = some p → v = w

theorem InTime.of_check {s : Settings} {gap : Time} {w : WorkerId} {f f' : TimedFleet}
    {a : TimedAction} (h : f.step s.heartbeatIntervalS a = some f') (hf : f.Only w)
    (hcheck : f.inTime s gap w a = true) : InTime s gap f a f' ∧ f'.Only w := by
  obtain ⟨htimely, hcheck⟩ := (Bool.and_eq_true ..).mp hcheck
  refine ⟨⟨h, fun v p hp _ => ?_, fun n ha => ?_⟩, fun v p hp => ?_⟩
  · obtain rfl := hf v p hp
    exact of_decide_eq_true htimely
  · subst ha
    exact beq_iff_eq.mp hcheck
  · have hmoved : ∀ {b : Action} {sys : System}, SystemStep f.sys b sys →
        (∀ v config, b = .start v config → v = w) → sys.workers v = some p → v = w := by
      intro b sys hsys hstart hp
      rcases step_workers hsys with
        ⟨he, -⟩ | ⟨x, config, row, hb, -, -, -, he⟩ | ⟨x, p', b', m, -, hp', -, he⟩
      · exact hf v p (he ▸ hp)
      · rw [he] at hp
        rcases update_some hp with ⟨rfl, -⟩ | hp
        · exact hstart v config hb
        · exact hf v p hp
      · rw [he] at hp
        rcases update_some hp with ⟨rfl, -⟩ | hp
        · exact hf v p' hp'
        · exact hf v p hp
    have hsys := (TimedFleet.step_move h).sys
    obtain ⟨sys, loops⟩ := f'
    dsimp only at hsys hp
    cases hsys with
    | turn => exact hf v p hp
    | beat hsys => exact hmoved hsys (fun _ _ he => by cases he) hp
    | other hidle hsys =>
      refine hmoved hsys (fun v config he => ?_) hp
      subst he
      exact beq_iff_eq.mp hcheck

theorem InTime.of_exec {s : Settings} {gap : Time} {w : WorkerId} {f f' : TimedFleet}
    {acts : List TimedAction} (hf : f.Only w)
    (h : exec (fun f a => if f.inTime s gap w a = false then none
      else f.step s.heartbeatIntervalS a) f acts = some f') :
    Run (InTime s gap) f acts f' ∧ f'.Only w := by
  have hstep : ∀ {u : TimedFleet} {a : TimedAction} {v : TimedFleet}, u.Only w →
      (if u.inTime s gap w a = false then none else u.step s.heartbeatIntervalS a) = some v →
      InTime s gap u a v ∧ v.Only w := by
    intro u a v hu hst
    split at hst
    · cases hst
    · rename_i hcheck
      exact InTime.of_check hst hu (Bool.eq_true_of_not_eq_false hcheck)
  have hrun := Run.of_exec h
  refine ⟨(hrun.within (I := fun u => u.Only w) (fun hu hst => (hstep hu hst).2) hf).mono
    fun hst => (hstep hst.1 hst.2.1).1, ?_⟩
  exact hrun.invariant (I := fun u => u.Only w) (fun hu hst => (hstep hu hst).2) hf

/-- A worker beats and then takes twenty seconds over a turn. -/
def slowTurn : List TimedAction :=
  [.other (.start "worker" { capacity := 1, capabilities := [] }), .turn "worker", .beat "worker",
    .other (.advance 20), .other (.external (.markDeadWorkers 15))]

omit [PyText] in
/-- It claims once more, at once. -/
theorem declared_dead_stops_slowTurn : ∃ f f' f'',
    Run (@InTime PyText.plain {} 20) .initial slowTurn f ∧ f.sys.db.Dead "worker" ∧
    Run (@InTime PyText.plain {} 20) f [.other (.worker "worker" .poll)] f' ∧
    @InTime PyText.plain {} 20 f' (.other (.worker "worker" (.claim fun _ => {}))) f'' ∧
    f'.sys.clock < f.sys.clock + seconds (5 : Int) + 20 := by
  let run := fun f acts => exec (fun (f : TimedFleet) a =>
    if f.inTime {} 20 "worker" a = false then none else @TimedFleet.step PyText.plain 5 f a) f acts
  have hrun : ((run .initial slowTurn).bind fun f =>
      (run f [.other (.worker "worker" .poll)]).bind fun f' =>
        (run f' [.other (.worker "worker" (.claim fun _ => {}))]).map fun _ =>
          ((f.sys.workers "worker").isSome,
            (f.sys.db.workers.find? "worker").map WorkerRow.status)) =
      some (true, some .dead) := by decide +kernel
  obtain ⟨f, hf, hrun⟩ := Option.bind_eq_some_iff.mp hrun
  obtain ⟨f', hf', hrun⟩ := Option.bind_eq_some_iff.mp hrun
  obtain ⟨f'', hf'', hseen⟩ := Option.map_eq_some_iff.mp hrun
  obtain ⟨hstarted, hdead⟩ := Prod.mk.inj hseen
  obtain ⟨p, hp⟩ := Option.isSome_iff_exists.mp hstarted
  obtain ⟨h, honly⟩ := @InTime.of_exec PyText.plain _ _ _ .initial _ _ nofun hf
  obtain ⟨h', honly'⟩ := @InTime.of_exec PyText.plain _ _ _ _ _ _ honly hf'
  obtain ⟨h'', -⟩ := @InTime.of_exec PyText.plain _ _ _ _ _ _ honly' hf''
  have hdead' : f.sys.db.Dead "worker" := Option.map_eq_some_iff.mp hdead
  cases h'' with
  | cons hclaim hnil =>
    exact ⟨f, f', _, h, hdead', h', hclaim,
      @declared_dead_stops PyText.plain {} 20 (by decide) _ f h "worker" p hp hdead' _ f' h' _ _ hclaim⟩

end ControlPlane

import ControlPlane.Worker.System

/-! # A renewal that fails

The renewal of the lease and the adapter run side by side. An error of the database
ends the renewal coroutine for good, and it surfaces where the attempt waits for that
coroutine, after the adapter has ended: the attempt stops there and `_finalize` is
not called. To say what a failed renewal costs, the attempt is run here by itself, on
a clock, with its transactions answered in any way. -/

namespace ControlPlane
open Runs

/-! ## An attempt on a clock -/

structure LeaseTiming where
  leaseTtlS : Int := 30
  leaseRenewIntervalS : Int := 7

/-- The check of `validate_timing` about leases. -/
def LeaseTiming.valid (c : LeaseTiming) : Bool := decide (3 * c.leaseRenewIntervalS < c.leaseTtlS)

structure Execution where
  clock : Time
  attempt : Attempt
  owned : Owned
  /-- when the wait of the renewal coroutine times out -/
  wakeAt : Time
  /-- `lease_expires_at`, as it was granted last -/
  leaseUntil : Time
  /-- what `_finalize` was called with -/
  finalized : List Outcome := []

/-- A step of an attempt, with its time and the answer to its transaction, if it has one. -/
structure Moment where
  now : Time
  action : AttemptAction
  reply : Except Raised Reply := .ok (.renewed none)

def AttemptAction.isTimeout : AttemptAction → Bool
  | renewal .timeout => true
  | _ => false

/-- The renewal coroutine starts to wait, or starts over. -/
def AttemptAction.startsWait : AttemptAction → Bool
  | begin => true
  | renewal .answer => true
  | _ => false

def AttemptAction.isJoin : AttemptAction → Bool
  | join _ => true
  | _ => false

/-- The renewal that was granted. -/
def Moment.granted (e : Moment) : Option Renewal :=
  match e.action, e.reply with
  | .renewal .renew, .ok (.renewed row) => row
  | _, _ => none

/-- A call of `renew_lease` raises. -/
def Moment.failsRenewal (e : Moment) : Bool :=
  match e.action, e.reply with
  | .renewal .connectionFails, _ => true
  | .renewal .renew, .ok (.renewed _) => false
  | .renewal .renew, _ => true
  | _, _ => false

def Phase.finalizes : Phase → Option Outcome
  | finalizing outcome .. => some outcome
  | _ => none

def Move.answered {α : Type} (r : Except Raised Reply) : Move α → α
  | silent next => next
  | transact _ next => next r

/-- Time passes, no wait times out early, and a lease is granted from now on. -/
def Execution.allows (c : LeaseTiming) (s : Execution) (e : Moment) : Bool :=
  decide (s.clock ≤ e.now) && (!e.action.isTimeout || decide (s.wakeAt ≤ e.now)) &&
    e.granted.all fun r => r.leaseExpiresAt == some (e.now + seconds c.leaseTtlS)

def execute (w : WorkerId) (c : LeaseTiming) (s : Execution) (e : Moment) : Option Execution :=
  if s.allows c e then
    (runAttempt w c.leaseTtlS s.attempt s.owned e.action).map fun m =>
      { clock := e.now
        attempt := (m.answered e.reply).1
        owned := (m.answered e.reply).2
        wakeAt := if e.action.startsWait then e.now + seconds c.leaseRenewIntervalS else s.wakeAt
        leaseUntil := (e.granted.bind Renewal.leaseExpiresAt).getD s.leaseUntil
        finalized := s.finalized ++
          if e.action.isJoin then (m.answered e.reply).1.phase.finalizes.toList else [] }
  else none

/-- The row was claimed just now. -/
def Execution.claimed (c : LeaseTiming) (now : Time) (row : Task) (owned : Owned) : Execution where
  clock := now
  attempt := { row }
  owned := owned
  wakeAt := now
  leaseUntil := now + seconds c.leaseTtlS

/-- A step as a relation. -/
def Executes (w : WorkerId) (c : LeaseTiming) (s : Execution) (e : Moment) (s' : Execution) : Prop :=
  execute w c s e = some s'

/-- What a database grants is what an execution may be granted. -/
theorem renewed_expiry [PyText] {db : Database} {now : Time} {i : TaskId} {w : WorkerId} {a ttl : Int}
    {r : Renewal} (h : (perform db now (.renewLease i w a ttl)).map Prod.snd =
      .ok (.renewed (some r))) : r.leaseExpiresAt = some (now + seconds ttl) := by
  obtain ⟨res, hok, he⟩ := Fallible.mapSnd_ok (reply_ok h)
  obtain rfl := Reply.renewed.inj he
  obtain ⟨-, ⟨t, -, -, hres, -⟩ | ⟨-, hnone, -⟩⟩ := renewLease_ok hok
  · rw [Option.some.inj hres]
  · cases hnone

theorem Move.run_answered [PyText] {α : Type} (m : Move α) (db : Database) (now : Time) :
    ∃ r, (m.run db now).2 = m.answered r ∧
      ∀ op, m.op? = some op → r = (perform db now op).map Prod.snd := by
  cases m with
  | silent next => exact ⟨.ok .done, rfl, nofun⟩
  | transact op next => exact ⟨_, rfl, fun op' hop => Option.some.inj hop ▸ rfl⟩

theorem Moment.granted_some {now : Time} {a : AttemptAction} {r : Except Raised Reply}
    {row : Renewal} (h : (Moment.mk now a r).granted = some row) :
    a = .renewal .renew ∧ r = .ok (.renewed (some row)) := by
  unfold Moment.granted at h
  split at h
  · rename_i ha hr
    dsimp only at ha hr
    exact ⟨ha, by rw [hr, h]⟩
  · cases h

theorem runAttempt_renew {w : WorkerId} {ttl : Int} {x : Attempt} {owned : Owned}
    {m : Move (Attempt × Owned)} (h : runAttempt w ttl x owned (.renewal .renew) = some m) :
    m.op? = some (.renewLease x.row.id w x.row.attempt ttl) := by
  have hrenewal : (renewUntilStopped w ttl x .renew).map (Move.map fun y => (y, owned)) = some m := by
    cases hp : x.phase <;> simp only [runAttempt, hp, reduceCtorEq] at h <;> exact h
  obtain ⟨n, hn, rfl⟩ := Option.map_eq_some_iff.mp hrenewal
  rw [Move.op?_map]
  cases hr : x.renewal with
  | renewing =>
    simp only [renewUntilStopped, hr] at hn
    cases hn
    rfl
  | answered row => cases row <;> simp [renewUntilStopped, hr] at hn
  | _ => simp [renewUntilStopped, hr] at hn

/-- **The steps of an attempt in the system are those of its execution**, if no wait
times out early. -/
theorem step_executes [PyText] {s s' : System} {w : WorkerId} {p : Worker} {k : Nat}
    {a : AttemptAction} {c : LeaseTiming} {x : Execution}
    (h : SystemStep s (.worker w (.attempt k a)) s') (hp : s.workers w = some p)
    (hattempt : p.inflight[k]? = some x.attempt) (howned : p.owned = x.owned)
    (httl : p.config.leaseTtlS = c.leaseTtlS) (hclock : x.clock ≤ s.clock)
    (hdue : a.isTimeout = true → x.wakeAt ≤ s.clock) :
    ∃ r y q, Executes w c x ⟨s.clock, a, r⟩ y ∧ s'.workers w = some q ∧
      q.inflight[k]? = some y.attempt ∧ q.owned = y.owned := by
  unfold SystemStep step at h
  dsimp only at h
  obtain ⟨p', hp', h⟩ := Option.bind_eq_some_iff.mp h
  obtain rfl := Option.eq_some_unique hp hp'
  obtain ⟨n, hn, rfl⟩ := Option.map_eq_some_iff.mp h
  rw [runForever_attempt] at hn
  split at hn
  · cases hn
  obtain ⟨z, hz, hn⟩ := Option.bind_eq_some_iff.mp hn
  obtain rfl := Option.eq_some_unique hattempt hz
  obtain ⟨m, hm, rfl⟩ := Option.map_eq_some_iff.mp hn
  obtain ⟨r, hr, hreply⟩ := m.run_answered s.db s.clock
  rw [httl, howned] at hm
  have hgranted : (Moment.mk s.clock a r).granted.all
      (fun row => row.leaseExpiresAt == some (s.clock + seconds c.leaseTtlS)) = true := by
    cases hrow : (Moment.mk s.clock a r).granted with
    | none => rfl
    | some row =>
      obtain ⟨rfl, rfl⟩ := Moment.granted_some hrow
      rw [Option.all_some, renewed_expiry (hreply _ (runAttempt_renew hm)).symm, beq_self_eq_true]
  have hallows : x.allows c ⟨s.clock, a, r⟩ = true := by
    unfold Execution.allows
    rw [hgranted, Bool.and_true, decide_eq_true hclock, Bool.true_and]
    cases ha : a.isTimeout with
    | false => rfl
    | true => exact decide_eq_true (hdue ha)
  have hstep : ∃ y, Executes w c x ⟨s.clock, a, r⟩ y ∧ y.attempt = (m.answered r).1 ∧
      y.owned = (m.answered r).2 := by
    unfold Executes execute
    rw [if_pos hallows, hm]
    exact ⟨_, rfl, rfl, rfl⟩
  obtain ⟨y, hy, hattempt', howned'⟩ := hstep
  refine ⟨r, y, _, hy, Function.update_self .., ?_, ?_⟩
  · rw [Move.run_map, hattempt', ← hr]
    exact List.getElem?_set_self (List.getElem?_eq_some_iff.mp hattempt).1
  · rw [Move.run_map, howned', ← hr]

/-! ## What a step does -/

/-- How the run of the adapter ends: with an outcome, or by the drain. -/
def AttemptAction.ending : AttemptAction → Option (Option Outcome)
  | adapterEnds outcome => some (some outcome)
  | cancel => some none
  | _ => none

def endings (events : List Moment) : List (Option Outcome) := events.filterMap (·.action.ending)

@[simp] theorem endings_nil : endings [] = [] := rfl

@[simp] theorem endings_append (xs ys : List Moment) :
    endings (xs ++ ys) = endings xs ++ endings ys := List.filterMap_append

@[simp] theorem endings_single (e : Moment) : endings [e] = e.action.ending.toList := by
  cases h : e.action.ending <;> simp [endings, h]

/-- The outcome that `_finalize` reports. -/
def Phase.reports : Phase → Option Outcome
  | finalizing outcome .. => some outcome
  | rejected outcome _ => some outcome
  | _ => none

/-- The adapter is yet to end. -/
def Phase.isRunning : Phase → Bool
  | dispatched => true
  | executing => true
  | _ => false

/-- The renewal coroutine may still run. -/
def Phase.renews : Phase → Bool
  | executing => true
  | joining _ => true
  | unwinding => true
  | _ => false

/-- How many steps the renewal coroutine makes once it is told to stop. -/
def RenewalTask.stepsLeft : RenewalTask → Nat
  | waiting => 1
  | renewing => 3
  | answered _ => 2
  | _ => 0

/-- How many steps the attempt makes once its adapter has ended. -/
def Attempt.stepsLeft (x : Attempt) : Nat :=
  match x.phase with
  | .joining _ => x.renewal.stepsLeft + 3
  | .finalizing .. => 2
  | .rejected .. => 1
  | .unwinding => x.renewal.stepsLeft + 1
  | _ => 0

/-- The renewal coroutine does not take part in the step. -/
structure Idle (s : Execution) (e : Moment) (s' : Execution) : Prop where
  renewal : s'.attempt.renewal = s.attempt.renewal
  leaseUntil : s'.leaseUntil = s.leaseUntil
  succeeds : e.failsRenewal = false

/-- The step leaves the attempt in its phase. -/
structure Inside (s : Execution) (e : Moment) (s' : Execution) : Prop where
  renews : s.attempt.phase.renews = true
  phase : s'.attempt.phase = s.attempt.phase
  stopRenewal : s'.attempt.stopRenewal = s.attempt.stopRenewal
  finalized : s'.finalized = s.finalized
  ending : e.action.ending = none

/-- The steps of the renewal coroutine. -/
inductive RenewalTurn (c : LeaseTiming) (s : Execution) (e : Moment) (s' : Execution) : Prop
  | woken (hfrom : s.attempt.renewal = .waiting) (hto : s'.attempt.renewal = .renewing)
      (hstop : s.attempt.stopRenewal = false) (hdue : s.wakeAt ≤ e.now)
      (hwake : s'.wakeAt = s.wakeAt) (hlease : s'.leaseUntil = s.leaseUntil)
      (hfails : e.failsRenewal = false)
  | stopped (hfrom : s.attempt.renewal = .waiting) (hto : s'.attempt.renewal = .returned)
      (hstop : s.attempt.stopRenewal = true) (hfails : e.failsRenewal = false)
  | granted {row : Renewal} (hfrom : s.attempt.renewal = .renewing)
      (hto : s'.attempt.renewal = .answered (some row)) (hwake : s'.wakeAt = s.wakeAt)
      (hlease : s'.leaseUntil = e.now + seconds c.leaseTtlS) (hfails : e.failsRenewal = false)
  | lost (hfrom : s.attempt.renewal = .renewing) (hto : s'.attempt.renewal = .answered none)
      (hfails : e.failsRenewal = false)
  | failed (hfrom : s.attempt.renewal = .renewing) (hto : s'.attempt.renewal = .raised)
      (hfails : e.failsRenewal = true)
  | refused (hfrom : s.attempt.renewal = .answered none) (hto : s'.attempt.renewal = .refused)
      (hfails : e.failsRenewal = false)
  | kept {row : Renewal} (hfrom : s.attempt.renewal = .answered (some row))
      (hto : s'.attempt.renewal = .waiting)
      (hwake : s'.wakeAt = e.now + seconds c.leaseRenewIntervalS)
      (hlease : s'.leaseUntil = s.leaseUntil) (hfails : e.failsRenewal = false)

/-- What a step of an execution is. -/
inductive Turn (c : LeaseTiming) (s : Execution) (e : Moment) (s' : Execution) : Prop
  | begun (hfrom : s.attempt.phase = .dispatched) (hto : s'.attempt.phase = .executing)
      (hstop : s'.attempt.stopRenewal = s.attempt.stopRenewal) (hidle : Idle s e s')
      (hwake : s'.wakeAt = e.now + seconds c.leaseRenewIntervalS)
      (hfin : s'.finalized = s.finalized) (hending : e.action.ending = none)
  | unstarted (hfrom : s.attempt.phase = .dispatched) (hto : s'.attempt.phase = .ended)
      (hidle : Idle s e s') (hfin : s'.finalized = s.finalized) (hending : e.action.ending = none)
  | renewal (h : RenewalTurn c s e s') (hin : Inside s e s')
  | noted (hphase : s.attempt.phase = .executing) (hin : Inside s e s') (hidle : Idle s e s')
      (hwake : s'.wakeAt = s.wakeAt)
  | adapterEnded {outcome : Outcome} (hfrom : s.attempt.phase = .executing)
      (hto : s'.attempt.phase = .joining outcome) (hstop : s'.attempt.stopRenewal = true)
      (hidle : Idle s e s') (hfin : s'.finalized = s.finalized)
      (hending : e.action.ending = some (some outcome))
  | cancelled (hfrom : s.attempt.phase.isRunning = true ∨ 0 < s.attempt.stepsLeft)
      (hto : s'.attempt.phase = .ended ∨ s.attempt.phase = .executing ∧
        s'.attempt.phase = .unwinding ∧ s'.attempt.stopRenewal = true)
      (hidle : Idle s e s') (hfin : s'.finalized = s.finalized)
      (hending : e.action.ending = some none)
  | joined {outcome : Outcome} {cancelRequested : Bool} {rng : Draws}
      (hfrom : s.attempt.phase = .joining outcome)
      (hto : s'.attempt.phase = .finalizing outcome cancelRequested rng)
      (hdone : s.attempt.renewal.isDone = true)
      (hidle : Idle s e s') (hfin : s'.finalized = s.finalized ++ [outcome])
      (hending : e.action.ending = none)
  | crashed {outcome : Outcome} (hfrom : s.attempt.phase = .joining outcome)
      (hto : s'.attempt.phase = .ended) (hraised : s.attempt.renewal = .raised)
      (hidle : Idle s e s') (hfin : s'.finalized = s.finalized) (hending : e.action.ending = none)
  | unwound (hfrom : s.attempt.phase = .unwinding) (hto : s'.attempt.phase = .ended)
      (hidle : Idle s e s') (hfin : s'.finalized = s.finalized) (hending : e.action.ending = none)
  | reported {outcome : Outcome} (hfrom : s.attempt.phase.reports = some outcome)
      (hto : s'.attempt.phase = .ended ∨ s.attempt.phase.finalizes = some outcome ∧
        ∃ why, s'.attempt.phase = .rejected outcome why)
      (hidle : Idle s e s') (hfin : s'.finalized = s.finalized) (hending : e.action.ending = none)

theorem execute_ok {w : WorkerId} {c : LeaseTiming} {s s' : Execution} {e : Moment}
    (h : Executes w c s e s') : s.allows c e = true ∧
      ∃ m, runAttempt w c.leaseTtlS s.attempt s.owned e.action = some m ∧
        s' = { clock := e.now
               attempt := (m.answered e.reply).1
               owned := (m.answered e.reply).2
               wakeAt := if e.action.startsWait then e.now + seconds c.leaseRenewIntervalS
                 else s.wakeAt
               leaseUntil := (e.granted.bind Renewal.leaseExpiresAt).getD s.leaseUntil
               finalized := s.finalized ++
                 if e.action.isJoin then (m.answered e.reply).1.phase.finalizes.toList else [] } := by
  unfold Executes execute at h
  split at h
  · rename_i hallows
    obtain ⟨m, hm, rfl⟩ := Option.map_eq_some_iff.mp h
    exact ⟨hallows, m, hm, rfl⟩
  · cases h

theorem Moment.renewed (now : Time) (reply : Except Raised Reply) :
    (∃ row, reply = .ok (.renewed row)) ∨
      (∀ row, reply ≠ .ok (.renewed row)) ∧ (Moment.mk now (.renewal .renew) reply).granted = none ∧
        (Moment.mk now (.renewal .renew) reply).failsRenewal = true := by
  by_cases h : ∃ row, reply = .ok (.renewed row)
  · exact Or.inl h
  · refine Or.inr ⟨fun row hrow => h ⟨row, hrow⟩, ?_, ?_⟩
    · unfold Moment.granted
      split
      · rename_i hr; exact absurd ⟨_, hr⟩ h
      · rfl
    · unfold Moment.failsRenewal
      split
      · rfl
      · rename_i hr; exact absurd ⟨_, hr⟩ h
      · rfl
      · rename_i hno _; exact absurd rfl hno

/-- The renewal coroutine goes on with the answer to its transaction. -/
theorem execute_renewal {w : WorkerId} {c : LeaseTiming} {s s' : Execution} {now : Time}
    {b : RenewalAction} {reply : Except Raised Reply} (hrenews : s.attempt.phase.renews = true)
    (hallows : s.allows c ⟨now, .renewal b, reply⟩ = true) {n : Move Attempt}
    (hn : renewUntilStopped w c.leaseTtlS s.attempt b = some n)
    (hs : s' = { clock := now
                 attempt := n.answered reply
                 owned := s.owned
                 wakeAt := if (AttemptAction.renewal b).startsWait then
                   now + seconds c.leaseRenewIntervalS else s.wakeAt
                 leaseUntil := ((Moment.mk now (.renewal b) reply).granted.bind
                   Renewal.leaseExpiresAt).getD s.leaseUntil
                 finalized := s.finalized }) :
    Turn c s ⟨now, .renewal b, reply⟩ s' := by
  subst hs
  unfold renewUntilStopped at hn
  split at hn
  · rename_i hr
    split at hn <;> cases hn
    rename_i hstop
    simp only [Execution.allows, AttemptAction.isTimeout, Bool.and_eq_true, decide_eq_true_eq,
      Bool.not_true, Bool.false_or] at hallows
    exact .renewal (.woken hr rfl (Bool.eq_false_iff.mpr hstop) hallows.1.2 rfl rfl rfl)
      ⟨hrenews, rfl, rfl, rfl, rfl⟩
  · rename_i hr
    split at hn <;> cases hn
    rename_i hstop
    exact .renewal (.stopped hr rfl hstop rfl) ⟨hrenews, rfl, rfl, rfl, rfl⟩
  · rename_i hr
    cases hn
    obtain ⟨row, rfl⟩ | ⟨hno, hgranted, hfails⟩ := Moment.renewed now reply
    · cases row with
      | none => exact .renewal (.lost hr rfl rfl) ⟨hrenews, rfl, rfl, rfl, rfl⟩
      | some r =>
        have hexp : r.leaseExpiresAt = some (now + seconds c.leaseTtlS) := by
          simp only [Execution.allows, Moment.granted, Bool.and_eq_true, Option.all_some,
            beq_iff_eq] at hallows
          exact hallows.2
        refine .renewal (.granted hr rfl rfl ?_ rfl) ⟨hrenews, rfl, rfl, rfl, rfl⟩
        simp [Moment.granted, hexp]
    · refine .renewal (.failed hr ?_ hfails) ⟨hrenews, ?_, ?_, rfl, rfl⟩
      all_goals
        dsimp only [Move.answered]
        split
        · exact absurd rfl (hno _)
        · rfl
  · rename_i hr
    cases hn
    exact .renewal (.failed hr rfl rfl) ⟨hrenews, rfl, rfl, rfl, rfl⟩
  · rename_i hr
    cases hn
    exact .renewal (.refused hr rfl rfl) ⟨hrenews, rfl, rfl, rfl, rfl⟩
  · rename_i hr
    cases hn
    exact .renewal (.kept hr rfl rfl rfl rfl) ⟨hrenews, rfl, rfl, rfl, rfl⟩
  · cases hn

/-- **What a step of an execution does**, for each step there is. -/
theorem execute_turn {w : WorkerId} {c : LeaseTiming} {s s' : Execution} {e : Moment}
    (h : Executes w c s e s') : Turn c s e s' := by
  obtain ⟨hallows, m, hm, hs⟩ := execute_ok h
  obtain ⟨now, a, reply⟩ := e
  dsimp only at hm hs
  unfold runAttempt at hm
  dsimp only at hm
  have hrenewal : ∀ {b : RenewalAction}, a = .renewal b → s.attempt.phase.renews = true →
      (renewUntilStopped w c.leaseTtlS s.attempt b).map (Move.map fun y => (y, s.owned)) = some m →
      Turn c s ⟨now, a, reply⟩ s' := by
    rintro b rfl hrenews hb
    obtain ⟨n, hn, rfl⟩ := Option.map_eq_some_iff.mp hb
    refine execute_renewal hrenews hallows hn (hs.trans ?_)
    cases n <;> simp [Move.map, Move.answered, AttemptAction.isJoin]
  have hcancelled : s.attempt.phase.isRunning = true ∨ 0 < s.attempt.stepsLeft → ∀ {owned'},
      m = .silent ({ s.attempt with phase := .ended }, owned') → a = .cancel →
      Turn c s ⟨now, a, reply⟩ s' := by
    rintro hfrom owned' rfl rfl
    subst hs
    exact .cancelled hfrom (Or.inl rfl) ⟨rfl, rfl, rfl⟩ (List.append_nil _) rfl
  have hreported : ∀ {outcome owned'}, s.attempt.phase.reports = some outcome →
      m = .silent ({ s.attempt with phase := .ended }, owned') → a = .connectionFails →
      Turn c s ⟨now, a, reply⟩ s' := by
    rintro outcome owned' hfrom rfl rfl
    subst hs
    exact .reported hfrom (Or.inl rfl) ⟨rfl, rfl, rfl⟩ (List.append_nil _) rfl
  split at hm
  · rename_i hp
    split at hm <;> cases hm <;> subst hs
    · exact .begun hp rfl rfl ⟨rfl, rfl, rfl⟩ rfl (List.append_nil _) rfl
    · exact .unstarted hp rfl ⟨rfl, rfl, rfl⟩ (List.append_nil _) rfl
  · rename_i hp
    cases hm
    exact hcancelled (Or.inl (by rw [hp]; rfl)) rfl rfl
  · rename_i hp
    exact hrenewal rfl (by rw [hp]; rfl) hm
  · rename_i hp
    cases hm
    subst hs
    exact .noted hp ⟨by rw [hp]; rfl, rfl, rfl, List.append_nil _, rfl⟩ ⟨rfl, rfl, rfl⟩ rfl
  · rename_i hp
    cases hm
    subst hs
    exact .adapterEnded hp rfl rfl ⟨rfl, rfl, rfl⟩ (List.append_nil _) rfl
  · rename_i hp
    cases hm
    subst hs
    exact .cancelled (Or.inl (by rw [hp]; rfl)) (Or.inr ⟨hp, rfl, rfl⟩) ⟨rfl, rfl, rfl⟩
      (List.append_nil _) rfl
  · rename_i hp
    exact hrenewal rfl (by rw [hp]; rfl) hm
  · rename_i hp
    split at hm
    · rename_i hr
      cases hm
      subst hs
      exact .crashed hp rfl hr ⟨rfl, rfl, rfl⟩ (List.append_nil _) rfl
    · split at hm <;> cases hm
      rename_i hdone
      subst hs
      exact .joined hp rfl hdone ⟨rfl, rfl, rfl⟩ rfl rfl
  · rename_i hp
    cases hm
    exact hcancelled (Or.inr (by simp [Attempt.stepsLeft, hp])) rfl rfl
  · rename_i hp
    split at hm <;> cases hm <;> subst hs
    · exact .reported (by rw [hp]; rfl) (Or.inl rfl) ⟨rfl, rfl, rfl⟩ (List.append_nil _) rfl
    refine .reported (by rw [hp]; rfl) ?_ ⟨?_, rfl, rfl⟩ (List.append_nil _) rfl
    all_goals
      dsimp only [Move.answered]
      split
    · exact Or.inr ⟨by rw [hp]; rfl, _, rfl⟩
    · exact Or.inl rfl
    · rfl
    · rfl
  · rename_i hp
    cases hm
    exact hreported (by rw [hp]; rfl) rfl rfl
  · rename_i hp
    cases hm
    exact hcancelled (Or.inr (by simp [Attempt.stepsLeft, hp])) rfl rfl
  · rename_i hp
    cases hm
    subst hs
    exact .reported (by rw [hp]; rfl) (Or.inl rfl) ⟨rfl, rfl, rfl⟩ (List.append_nil _) rfl
  · rename_i hp
    cases hm
    exact hreported (by rw [hp]; rfl) rfl rfl
  · rename_i hp
    cases hm
    exact hcancelled (Or.inr (by simp [Attempt.stepsLeft, hp])) rfl rfl
  · rename_i hp
    exact hrenewal rfl (by rw [hp]; rfl) hm
  · rename_i hp
    split at hm
    · cases hm
      subst hs
      exact .unwound hp rfl ⟨rfl, rfl, rfl⟩ (List.append_nil _) rfl
    · split at hm <;> cases hm
      subst hs
      exact .unwound hp rfl ⟨rfl, rfl, rfl⟩ (List.append_nil _) rfl
  · cases hm

/-! ## How the run of the adapter ended -/

/-- Where an attempt stands, by how the run of its adapter ended. -/
inductive Story (events : List Moment) (s : Execution) : Prop
  | running (hphase : s.attempt.phase.isRunning = true) (hstop : s.attempt.stopRenewal = false)
      (hrenewal : s.attempt.renewal ≠ .returned)
      (hfresh : s.attempt.phase = .dispatched → s.attempt.renewal = .waiting)
      (hendings : endings events = []) (hfin : s.finalized = [])
  | unstarted (hphase : s.attempt.phase = .ended) (hrenewal : s.attempt.renewal = .waiting)
      (hendings : endings events = []) (hfin : s.finalized = [])
  | joining {outcome : Outcome} (hphase : s.attempt.phase = .joining outcome)
      (hstop : s.attempt.stopRenewal = true) (hendings : endings events = [some outcome])
      (hfin : s.finalized = [])
  | reported {outcome : Outcome}
      (hphase : s.attempt.phase = .ended ∨ s.attempt.phase.reports = some outcome)
      (hdone : s.attempt.renewal.isDone = true) (hendings : endings events = [some outcome])
      (hfin : s.finalized = [outcome])
  | crashed {outcome : Outcome} (hphase : s.attempt.phase = .ended)
      (hraised : s.attempt.renewal = .raised) (hendings : endings events = [some outcome])
      (hfin : s.finalized = [])
  | cancelled (hphase : s.attempt.phase = .ended ∨
        s.attempt.phase = .unwinding ∧ s.attempt.stopRenewal = true)
      (hendings : none ∈ endings events)

namespace Story

variable {events : List Moment} {c : LeaseTiming} {s s' : Execution} {e : Moment} {outcome : Outcome}

theorem of_running (hs : Story events s) (h : s.attempt.phase.isRunning = true) :
    s.attempt.stopRenewal = false ∧ s.attempt.renewal ≠ .returned ∧ endings events = [] ∧
      s.finalized = [] := by
  cases hs with
  | running hphase hstop hrenewal hfresh hendings hfin => exact ⟨hstop, hrenewal, hendings, hfin⟩
  | unstarted hphase => rw [hphase] at h; cases h
  | joining hphase => rw [hphase] at h; cases h
  | reported hphase =>
    obtain hphase | hphase := hphase
    · rw [hphase] at h; cases h
    · cases hp : s.attempt.phase <;> rw [hp] at h hphase <;> cases h <;> cases hphase
  | crashed hphase => rw [hphase] at h; cases h
  | cancelled hphase =>
    obtain hphase | ⟨hphase, -⟩ := hphase
    all_goals rw [hphase] at h; cases h

theorem of_dispatched (hs : Story events s) (h : s.attempt.phase = .dispatched) :
    s.attempt.renewal = .waiting := by
  cases hs with
  | running _ _ _ hfresh => exact hfresh h
  | unstarted hphase => rw [h] at hphase; cases hphase
  | joining hphase => rw [h] at hphase; cases hphase
  | reported hphase => rw [h] at hphase; obtain hphase | hphase := hphase <;> cases hphase
  | crashed hphase => rw [h] at hphase; cases hphase
  | cancelled hphase => rw [h] at hphase; obtain hphase | ⟨hphase, -⟩ := hphase <;> cases hphase

theorem of_joining (hs : Story events s) (h : s.attempt.phase = .joining outcome) :
    s.attempt.stopRenewal = true ∧ endings events = [some outcome] ∧ s.finalized = [] := by
  cases hs with
  | running hphase => rw [h] at hphase; cases hphase
  | unstarted hphase => rw [h] at hphase; cases hphase
  | joining hphase hstop hendings hfin =>
    rw [h] at hphase
    cases hphase
    exact ⟨hstop, hendings, hfin⟩
  | reported hphase => rw [h] at hphase; obtain hphase | hphase := hphase <;> cases hphase
  | crashed hphase => rw [h] at hphase; cases hphase
  | cancelled hphase => rw [h] at hphase; obtain hphase | ⟨hphase, -⟩ := hphase <;> cases hphase

theorem of_reports (hs : Story events s) (h : s.attempt.phase.reports = some outcome) :
    s.attempt.renewal.isDone = true ∧ endings events = [some outcome] ∧
      s.finalized = [outcome] := by
  cases hs with
  | running hphase =>
    cases hp : s.attempt.phase <;> rw [hp] at h hphase <;> cases h <;> cases hphase
  | unstarted hphase => rw [hphase] at h; cases h
  | joining hphase => rw [hphase] at h; cases h
  | reported hphase hdone hendings hfin =>
    obtain hphase | hphase := hphase
    · rw [hphase] at h; cases h
    · rw [h] at hphase
      cases hphase
      exact ⟨hdone, hendings, hfin⟩
  | crashed hphase => rw [hphase] at h; cases h
  | cancelled hphase => obtain hphase | ⟨hphase, -⟩ := hphase <;> rw [hphase] at h <;> cases h

theorem of_unwinding (hs : Story events s) (h : s.attempt.phase = .unwinding) :
    s.attempt.stopRenewal = true ∧ none ∈ endings events := by
  cases hs with
  | running hphase => rw [h] at hphase; cases hphase
  | unstarted hphase => rw [h] at hphase; cases hphase
  | joining hphase => rw [h] at hphase; cases hphase
  | reported hphase => rw [h] at hphase; obtain hphase | hphase := hphase <;> cases hphase
  | crashed hphase => rw [h] at hphase; cases hphase
  | cancelled hphase hendings =>
    rw [h] at hphase
    obtain hphase | ⟨-, hstop⟩ := hphase
    · cases hphase
    · exact ⟨hstop, hendings⟩

/-- A step of the renewal coroutine, or a note of the adapter, leaves the story as it is. -/
theorem inside (hs : Story events s) (hin : Inside s e s')
    (hrenewal : s.attempt.stopRenewal = false → s.attempt.renewal ≠ .returned →
      s'.attempt.renewal ≠ .returned) : Story (events ++ [e]) s' := by
  have hendings : endings (events ++ [e]) = endings events := by simp [hin.ending]
  have hrenews := hin.renews
  cases hp : s.attempt.phase with
  | executing =>
    obtain ⟨hstop, hr, he, hf⟩ := hs.of_running (by rw [hp]; rfl)
    have hto : s'.attempt.phase = .executing := hin.phase.trans hp
    exact .running (by rw [hto]; rfl) (hin.stopRenewal.trans hstop) (hrenewal hstop hr)
      (fun hd => by rw [hto] at hd; cases hd) (hendings.trans he) (hin.finalized.trans hf)
  | joining outcome =>
    obtain ⟨hstop, he, hf⟩ := hs.of_joining hp
    exact .joining (hin.phase.trans hp) (hin.stopRenewal.trans hstop) (hendings.trans he)
      (hin.finalized.trans hf)
  | unwinding =>
    obtain ⟨hstop, he⟩ := hs.of_unwinding hp
    exact .cancelled (Or.inr ⟨hin.phase.trans hp, hin.stopRenewal.trans hstop⟩) (hendings ▸ he)
  | _ => rw [hp] at hrenews; cases hrenews

theorem step (hs : Story events s) (h : Turn c s e s') : Story (events ++ [e]) s' := by
  cases h with
  | begun hfrom hto hstop hidle hwake hfin hending =>
    obtain ⟨hs, hr, he, hf⟩ := hs.of_running (by rw [hfrom]; rfl)
    exact .running (by rw [hto]; rfl) (hstop.trans hs) (hidle.renewal ▸ hr)
      (fun hd => by rw [hto] at hd; cases hd) (by simp [he, hending]) (hfin.trans hf)
  | unstarted hfrom hto hidle hfin hending =>
    obtain ⟨-, -, he, hf⟩ := hs.of_running (by rw [hfrom]; rfl)
    exact .unstarted hto (hidle.renewal.trans (hs.of_dispatched hfrom)) (by simp [he, hending])
      (hfin.trans hf)
  | renewal h hin =>
    refine hs.inside hin fun hstop hr => ?_
    cases h with
    | stopped hfrom hto hstopped => rw [hstop] at hstopped; cases hstopped
    | woken hfrom hto | granted hfrom hto | lost hfrom hto | failed hfrom hto
    | refused hfrom hto | kept hfrom hto =>
      rw [hto]
      nofun
  | noted hphase hin hidle => exact hs.inside hin fun _ hr => hidle.renewal ▸ hr
  | adapterEnded hfrom hto hstop hidle hfin hending =>
    obtain ⟨-, -, he, hf⟩ := hs.of_running (by rw [hfrom]; rfl)
    exact .joining hto hstop (by simp [he, hending]) (hfin.trans hf)
  | cancelled hfrom hto hidle hfin hending =>
    refine .cancelled (hto.imp_right And.right) ?_
    simp [hending]
  | joined hfrom hto hdone hidle hfin hending =>
    obtain ⟨-, he, hf⟩ := hs.of_joining hfrom
    refine .reported (Or.inr (by rw [hto]; rfl)) (hidle.renewal ▸ hdone) (by simp [he, hending]) ?_
    rw [hfin, hf]
    rfl
  | crashed hfrom hto hraised hidle hfin hending =>
    obtain ⟨-, he, hf⟩ := hs.of_joining hfrom
    have hsame : endings (events ++ [e]) = endings events := by simp [hending]
    exact .crashed hto (hidle.renewal.trans hraised) (hsame.trans he) (hfin.trans hf)
  | unwound hfrom hto hidle hfin hending =>
    obtain ⟨-, he⟩ := hs.of_unwinding hfrom
    exact .cancelled (Or.inl hto) (by simp [he])
  | reported hfrom hto hidle hfin hending =>
    obtain ⟨hdone, he, hf⟩ := hs.of_reports hfrom
    refine .reported (hto.imp_right fun ⟨_, _, hto⟩ => ?_) (hidle.renewal ▸ hdone)
      (by simp [he, hending]) (hfin.trans hf)
    rw [hto]
    rfl

/-- The renewal coroutine of an adapter that has ended is told to stop. -/
theorem stopped (hs : Story events s) (hended : endings events ≠ [])
    (hrenews : s.attempt.phase.renews = true) : s.attempt.stopRenewal = true := by
  cases hp : s.attempt.phase with
  | executing => exact absurd (hs.of_running (by rw [hp]; rfl)).2.2.1 hended
  | joining outcome => exact (hs.of_joining hp).1
  | unwinding => exact (hs.of_unwinding hp).1
  | _ => rw [hp] at hrenews; cases hrenews

/-- **An attempt whose adapter has ended comes closer to its end with each step.** -/
theorem decreases (hs : Story events s) (hended : endings events ≠ []) (h : Turn c s e s') :
    s'.attempt.stepsLeft < s.attempt.stepsLeft := by
  have hnot : s.attempt.phase.isRunning ≠ true := fun hp => hended (hs.of_running hp).2.2.1
  cases h with
  | begun hfrom => exact absurd (by rw [hfrom]; rfl) hnot
  | unstarted hfrom => exact absurd (by rw [hfrom]; rfl) hnot
  | renewal h hin =>
    have hrenews := hin.renews
    have hstop := hs.stopped hended hrenews
    have hless : s'.attempt.renewal.stepsLeft < s.attempt.renewal.stepsLeft := by
      cases h with
      | woken hfrom hto hrunning => rw [hstop] at hrunning; cases hrunning
      | stopped hfrom hto | granted hfrom hto | lost hfrom hto | failed hfrom hto
      | refused hfrom hto | kept hfrom hto => simp [RenewalTask.stepsLeft, hfrom, hto]
    unfold Attempt.stepsLeft
    rw [hin.phase]
    cases hp : s.attempt.phase with
    | joining outcome => exact Nat.add_lt_add_right hless 3
    | unwinding => exact Nat.add_lt_add_right hless 1
    | executing => exact absurd (by rw [hp]; rfl) hnot
    | _ => rw [hp] at hrenews; cases hrenews
  | noted hphase => exact absurd (by rw [hphase]; rfl) hnot
  | adapterEnded hfrom => exact absurd (by rw [hfrom]; rfl) hnot
  | cancelled hfrom hto =>
    obtain hto | ⟨hexecuting, -⟩ := hto
    · have hzero : s'.attempt.stepsLeft = 0 := by simp [Attempt.stepsLeft, hto]
      exact hzero ▸ hfrom.resolve_left hnot
    · exact absurd (by rw [hexecuting]; rfl) hnot
  | joined hfrom hto => simp [Attempt.stepsLeft, hfrom, hto]
  | crashed hfrom hto => simp [Attempt.stepsLeft, hfrom, hto]
  | unwound hfrom hto => simp [Attempt.stepsLeft, hfrom, hto]
  | reported hfrom hto =>
    obtain hto | ⟨hfinalizing, why, hto⟩ := hto
    · cases hp : s.attempt.phase <;> rw [hp] at hfrom <;> cases hfrom <;>
        simp [Attempt.stepsLeft, hp, hto]
    · cases hp : s.attempt.phase <;> rw [hp] at hfinalizing <;> cases hfinalizing
      simp [Attempt.stepsLeft, hp, hto]

end Story

/-- From a claim on, the story is told by the steps. -/
theorem executes_story {w : WorkerId} {c : LeaseTiming} {now : Time} {row : Task} {owned : Owned}
    {events : List Moment} {s : Execution}
    (h : Run (Executes w c) (.claimed c now row owned) events s) : Story events s :=
  h.history (I := Story) (fun hs he => hs.step (execute_turn he)) (.running rfl rfl nofun (fun _ => rfl) rfl rfl)

theorem executes_length {w : WorkerId} {c : LeaseTiming} {s t : Execution} {events rest : List Moment}
    (hs : Story events s) (hended : endings events ≠ []) (h : Run (Executes w c) s rest t) :
    rest.length + t.attempt.stepsLeft ≤ s.attempt.stepsLeft := by
  induction h generalizing events with
  | nil s => simp
  | cons he hr ih =>
    have hless := hs.decreases hended (execute_turn he)
    have hrest := ih (hs.step (execute_turn he)) (by simp [hended])
    rw [List.length_cons]
    omega

theorem RenewalTask.stepsLeft_le (r : RenewalTask) : r.stepsLeft ≤ 3 := by
  cases r <;> simp [RenewalTask.stepsLeft]

theorem Attempt.stepsLeft_le (x : Attempt) : x.stepsLeft ≤ 6 := by
  have := x.renewal.stepsLeft_le
  cases hp : x.phase <;> simp only [Attempt.stepsLeft, hp] <;> omega

/-- A step that waits for nothing outside the attempt is possible at once. -/
theorem executes_now {w : WorkerId} {c : LeaseTiming} {s : Execution} {a : AttemptAction}
    (h : (runAttempt w c.leaseTtlS s.attempt s.owned a).isSome = true)
    (ha : a.isTimeout = false) : ∃ s', Executes w c s ⟨s.clock, a, .ok (.renewed none)⟩ s' := by
  have hgranted : (Moment.mk s.clock a (.ok (.renewed none))).granted = none := by
    unfold Moment.granted
    split
    · rename_i hr; exact (Reply.renewed.inj (Except.ok.inj hr)).symm
    · rfl
  obtain ⟨m, hm⟩ := Option.isSome_iff_exists.mp h
  unfold Executes execute
  rw [if_pos (by simp [Execution.allows, ha, hgranted]), hm]
  exact ⟨_, rfl⟩

/-- Once it is told to stop, the renewal coroutine has ended or has a step to make. -/
theorem renewal_settles (w : WorkerId) (ttl : Int) {x : Attempt} (hstop : x.stopRenewal = true) :
    x.renewal.isDone = true ∨ x.renewal = .raised ∨
      ∃ b, (renewUntilStopped w ttl x b).isSome = true ∧
        (AttemptAction.renewal b).isTimeout = false := by
  cases hr : x.renewal with
  | waiting => exact Or.inr (Or.inr ⟨.stop, by simp [renewUntilStopped, hr, hstop], rfl⟩)
  | renewing => exact Or.inr (Or.inr ⟨.renew, by simp [renewUntilStopped, hr], rfl⟩)
  | answered row =>
    refine Or.inr (Or.inr ⟨.answer, ?_, rfl⟩)
    cases row <;> simp [renewUntilStopped, hr]
  | returned => exact Or.inl rfl
  | refused => exact Or.inl rfl
  | raised => exact Or.inr (Or.inl rfl)

/-- The attempt goes on when the renewal coroutine has ended, in whatever way. -/
theorem runAttempt_join {w : WorkerId} {ttl : Int} {x : Attempt} {owned : Owned} {rng : Draws}
    (hphase : (∃ outcome, x.phase = .joining outcome) ∨ x.phase = .unwinding)
    (hover : x.renewal.isDone = true ∨ x.renewal = .raised) :
    (runAttempt w ttl x owned (.join rng)).isSome = true := by
  have hjoined : ∀ r : RenewalTask, x.renewal = r → r.isDone = true ∨ r = .raised →
      (runAttempt w ttl x owned (.join rng)).isSome = true := by
    intro r hr hover
    obtain ⟨outcome, hp⟩ | hp := hphase
    all_goals
      simp only [runAttempt, hp, hr]
      cases r <;> first | rfl | (obtain h | h := hover <;> cases h)
  exact hjoined _ rfl hover

/-- An attempt whose adapter has ended waits for nothing but its own steps. -/
theorem Story.goes_on (w : WorkerId) (c : LeaseTiming) {events : List Moment} {s : Execution}
    (hs : Story events s) (hended : endings events ≠ []) :
    s.attempt.phase = .ended ∨ ∃ e s', e.action.isCancel = false ∧ Executes w c s e s' := by
  have hnow : ∀ {a : AttemptAction},
      (runAttempt w c.leaseTtlS s.attempt s.owned a).isSome = true → a.isTimeout = false →
      a.isCancel = false → ∃ e s', e.action.isCancel = false ∧ Executes w c s e s' := by
    intro a ha htimeout hcancel
    obtain ⟨s', hs'⟩ := executes_now ha htimeout
    exact ⟨_, s', hcancel, hs'⟩
  have hsettles : s.attempt.phase.renews = true →
      (s.attempt.renewal.isDone = true ∨ s.attempt.renewal = .raised →
        (runAttempt w c.leaseTtlS s.attempt s.owned (.join .lowest)).isSome = true) →
      (∀ b, (renewUntilStopped w c.leaseTtlS s.attempt b).isSome = true →
        (runAttempt w c.leaseTtlS s.attempt s.owned (.renewal b)).isSome = true) →
      ∃ e s', e.action.isCancel = false ∧ Executes w c s e s' := by
    intro hrenews hjoin hrenewal
    obtain hdone | hraised | ⟨b, hb, htimeout⟩ :=
      renewal_settles w c.leaseTtlS (hs.stopped hended hrenews)
    · exact hnow (hjoin (Or.inl hdone)) rfl rfl
    · exact hnow (hjoin (Or.inr hraised)) rfl rfl
    · exact hnow (hrenewal b hb) htimeout rfl
  cases hp : s.attempt.phase with
  | dispatched => exact absurd (hs.of_running (by rw [hp]; rfl)).2.2.1 hended
  | executing => exact absurd (hs.of_running (by rw [hp]; rfl)).2.2.1 hended
  | joining outcome =>
    refine Or.inr (hsettles (by rw [hp]; rfl) (runAttempt_join (Or.inl ⟨outcome, hp⟩)) fun b hb => ?_)
    simp only [runAttempt, hp, Option.isSome_map, hb]
  | finalizing =>
    refine Or.inr (hnow (a := .finalize) ?_ rfl rfl)
    simp only [runAttempt, hp]
    split <;> rfl
  | rejected =>
    refine Or.inr (hnow (a := .recordStale) ?_ rfl rfl)
    simp only [runAttempt, hp, Option.isSome_some]
  | unwinding =>
    refine Or.inr (hsettles (by rw [hp]; rfl) (runAttempt_join (Or.inr hp)) fun b hb => ?_)
    simp only [runAttempt, hp, Option.isSome_map, hb]
  | ended => exact Or.inl rfl

/-! ## A renewal that failed -/

/-- The renewal coroutine has raised exactly when a renewal has failed. -/
theorem Turn.raised_iff {c : LeaseTiming} {s s' : Execution} {e : Moment} (h : Turn c s e s') :
    s'.attempt.renewal = .raised ↔ s.attempt.renewal = .raised ∨ e.failsRenewal = true := by
  have hidle : Idle s e s' → (s'.attempt.renewal = .raised ↔
      s.attempt.renewal = .raised ∨ e.failsRenewal = true) := by
    intro hidle
    rw [hidle.renewal, hidle.succeeds]
    simp
  cases h with
  | renewal h hin =>
    cases h with
    | woken hfrom hto _ _ _ _ hfails | stopped hfrom hto _ hfails | granted hfrom hto _ _ hfails
    | lost hfrom hto hfails | refused hfrom hto hfails | kept hfrom hto _ _ hfails
    | failed hfrom hto hfails => simp [hfrom, hto, hfails]
  | begun _ _ _ h | unstarted _ _ h | noted _ _ h | adapterEnded _ _ _ h | cancelled _ _ h | joined _ _ _ h
  | crashed _ _ _ h | unwound _ _ h | reported _ _ h => exact hidle h

theorem executes_raised {w : WorkerId} {c : LeaseTiming} {now : Time} {row : Task} {owned : Owned}
    {events : List Moment} {s : Execution}
    (h : Run (Executes w c) (.claimed c now row owned) events s) :
    s.attempt.renewal = .raised ↔ ∃ e ∈ events, e.failsRenewal = true := by
  refine h.history (I := fun events s => s.attempt.renewal = .raised ↔
    ∃ e ∈ events, e.failsRenewal = true) (fun {ys u a v} hs he => ?_) ?_
  · rw [(execute_turn he).raised_iff, hs]
    simp [or_and_right, exists_or]
  · simp [Execution.claimed]

/-- A renewal fails where the adapter runs or the attempt waits for the renewal, and
leaves it there. -/
theorem Turn.failed {c : LeaseTiming} {s s' : Execution} {e : Moment} (h : Turn c s e s')
    (hfails : e.failsRenewal = true) : Inside s e s' := by
  have hidle : ¬ Idle s e s' := fun h => Bool.false_ne_true (h.succeeds.symm.trans hfails)
  cases h with
  | renewal h hin => exact hin
  | begun _ _ _ h | unstarted _ _ h | noted _ _ h | adapterEnded _ _ _ h | cancelled _ _ h | joined _ _ _ h
  | crashed _ _ _ h | unwound _ _ h | reported _ _ h => exact absurd h hidle

end ControlPlane

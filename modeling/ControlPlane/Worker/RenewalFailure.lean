import ControlPlane.Worker.Backoff
import ControlPlane.Worker.Renewals

/-! # What a failed renewal costs

`validate_timing` wants a lease to outlast three intervals of the renewal, so that a
renewal that is dropped does not cost the worker its lease: the coroutine would have to
renew again an interval later. It does not, and the attempt ends without a report.
`NeverDropped` is what the timing is chosen for, and `renewal_failure_drops` says
which attempts have it. -/

namespace ControlPlane
open Runs

/-! ## The lease while the adapter runs -/

/-- The renewal coroutine has yet to keep the lease up. -/
def RenewalTask.isLive : RenewalTask → Bool
  | waiting => true
  | renewing => true
  | answered (some _) => true
  | _ => false

/-- `renew_lease` found no lease to renew. -/
def RenewalTask.toldLost : RenewalTask → Bool
  | answered none => true
  | refused => true
  | _ => false

/-- While the adapter runs, the renewal coroutine is never late by more than the slack. -/
def Execution.punctual (slack : Time) (s : Execution) (e : Moment) : Prop :=
  s.attempt.phase.isRunning = true → s.attempt.renewal.isLive = true → e.now ≤ s.wakeAt + slack

/-- How far the lease reaches beyond the next renewal. -/
inductive LeaseKept (c : LeaseTiming) (slack : Time) (s : Execution) : Prop
  | fresh (hphase : s.attempt.phase = .dispatched) (hrenewal : s.attempt.renewal = .waiting)
      (hlease : s.wakeAt + seconds c.leaseTtlS ≤ s.leaseUntil)
  | asleep (hphase : s.attempt.phase = .executing) (hrenewal : s.attempt.renewal = .waiting)
      (hlease : s.wakeAt + seconds c.leaseTtlS ≤
        s.leaseUntil + seconds c.leaseRenewIntervalS + slack)
  | awake (hphase : s.attempt.phase = .executing) (hrenewal : s.attempt.renewal = .renewing)
      (hdue : s.wakeAt ≤ s.clock)
      (hlease : s.wakeAt + seconds c.leaseTtlS ≤
        s.leaseUntil + seconds c.leaseRenewIntervalS + slack)
  | granted {row : Renewal} (hphase : s.attempt.phase = .executing)
      (hrenewal : s.attempt.renewal = .answered (some row))
      (hlease : s.wakeAt + seconds c.leaseTtlS ≤ s.leaseUntil)
  | finished (h : s.attempt.phase.isRunning = false ∨ s.attempt.renewal.isLive = false)

/-- The renewal coroutine does not come back to life, nor does the adapter. -/
theorem Turn.stays_finished {c : LeaseTiming} {s s' : Execution} {e : Moment} (h : Turn c s e s')
    (hfinished : s.attempt.phase.isRunning = false ∨ s.attempt.renewal.isLive = false) :
    s'.attempt.phase.isRunning = false ∨ s'.attempt.renewal.isLive = false := by
  have hidle : Idle s e s' → s.attempt.phase.isRunning = true →
      s'.attempt.phase.isRunning = false ∨ s'.attempt.renewal.isLive = false := by
    intro hidle hrunning
    rw [hidle.renewal]
    exact hfinished.imp_left fun h => by rw [hrunning] at h; cases h
  cases h with
  | begun hfrom hto hstop h => exact hidle h (by rw [hfrom]; rfl)
  | noted hphase hin h => exact hidle h (by rw [hphase]; rfl)
  | renewal h hin =>
    rw [hin.phase]
    refine hfinished.imp_right fun hlive => ?_
    cases h with
    | refused hfrom hto => rw [hto]; rfl
    | woken hfrom | stopped hfrom | granted hfrom | lost hfrom | failed hfrom | kept hfrom =>
      rw [hfrom] at hlive
      cases hlive
  | unstarted hfrom hto => exact Or.inl (by rw [hto]; rfl)
  | adapterEnded hfrom hto => exact Or.inl (by rw [hto]; rfl)
  | cancelled hfrom hto =>
    obtain hto | ⟨-, hto, -⟩ := hto
    all_goals exact Or.inl (by rw [hto]; rfl)
  | joined hfrom hto => exact Or.inl (by rw [hto]; rfl)
  | crashed hfrom hto => exact Or.inl (by rw [hto]; rfl)
  | unwound hfrom hto => exact Or.inl (by rw [hto]; rfl)
  | reported hfrom hto =>
    obtain hto | ⟨-, why, hto⟩ := hto
    all_goals exact Or.inl (by rw [hto]; rfl)

theorem executes_clock {w : WorkerId} {c : LeaseTiming} {s s' : Execution} {e : Moment}
    (h : Executes w c s e s') : s.clock ≤ e.now ∧ s'.clock = e.now := by
  obtain ⟨hallows, m, -, rfl⟩ := execute_ok h
  simp only [Execution.allows, Bool.and_eq_true, decide_eq_true_eq] at hallows
  exact ⟨hallows.1.1, rfl⟩

/-- What a step is that leaves the adapter running. -/
theorem Turn.while_running {c : LeaseTiming} {s s' : Execution} {e : Moment} (h : Turn c s e s')
    (hrunning : s'.attempt.phase.isRunning = true) :
    s'.attempt.phase = .executing ∧
      (s.attempt.phase = .dispatched ∧ Idle s e s' ∧
          s'.wakeAt = e.now + seconds c.leaseRenewIntervalS ∨
        s.attempt.phase = .executing ∧
          (RenewalTurn c s e s' ∨ Idle s e s' ∧ s'.wakeAt = s.wakeAt)) := by
  cases h with
  | begun hfrom hto hstop hidle hwake => exact ⟨hto, Or.inl ⟨hfrom, hidle, hwake⟩⟩
  | renewal h hin =>
    have hrenews := hin.renews
    have hexecuting : s.attempt.phase = .executing := by
      rw [hin.phase] at hrunning
      cases hp : s.attempt.phase with
      | executing => rfl
      | dispatched => rw [hp] at hrenews; cases hrenews
      | _ => rw [hp] at hrunning; cases hrunning
    exact ⟨hin.phase.trans hexecuting, Or.inr ⟨hexecuting, Or.inl h⟩⟩
  | noted hphase hin hidle hwake =>
    exact ⟨hin.phase.trans hphase, Or.inr ⟨hphase, Or.inr ⟨hidle, hwake⟩⟩⟩
  | cancelled hfrom hto =>
    obtain hto | ⟨-, hto, -⟩ := hto
    all_goals rw [hto] at hrunning; cases hrunning
  | reported hfrom hto =>
    obtain hto | ⟨-, why, hto⟩ := hto
    all_goals rw [hto] at hrunning; cases hrunning
  | unstarted hfrom hto | adapterEnded hfrom hto | joined hfrom hto | crashed hfrom hto
  | unwound hfrom hto =>
    rw [hto] at hrunning
    cases hrunning

theorem LeaseKept.step {w : WorkerId} {c : LeaseTiming} {slack : Time} {s s' : Execution}
    {e : Moment} (hs : LeaseKept c slack s) (h : Executes w c s e s')
    (hpunctual : s.punctual slack e) : LeaseKept c slack s' := by
  have hturn := execute_turn h
  obtain ⟨hclock, hclock'⟩ := executes_clock h
  by_cases hrunning : s'.attempt.phase.isRunning = false
  · exact .finished (Or.inl hrunning)
  obtain ⟨hto, hwhile⟩ := hturn.while_running (Bool.not_eq_false _ ▸ hrunning)
  cases hs with
  | finished h => exact .finished (hturn.stays_finished h)
  | fresh hphase hrenewal hlease =>
    obtain ⟨-, hidle, hwake⟩ | ⟨hexecuting, -⟩ := hwhile
    · have hdue : e.now ≤ s.wakeAt + slack :=
        hpunctual (by rw [hphase]; rfl) (by rw [hrenewal]; rfl)
      refine .asleep hto (hidle.renewal.trans hrenewal) ?_
      rw [hwake, hidle.leaseUntil]
      linarith
    · rw [hphase] at hexecuting; cases hexecuting
  | asleep hphase hrenewal hlease =>
    obtain ⟨hdispatched, -⟩ | ⟨-, h | ⟨hidle, hwake⟩⟩ := hwhile
    · rw [hphase] at hdispatched; cases hdispatched
    · cases h with
      | woken hfrom hto' hstop hdue hwake hkept =>
        refine .awake hto hto' ?_ ?_
        · rw [hwake, hclock']; exact hdue
        · rw [hwake, hkept]; exact hlease
      | stopped hfrom hto' => exact .finished (Or.inr (by rw [hto']; rfl))
      | granted hfrom | lost hfrom | failed hfrom | refused hfrom | kept hfrom =>
        rw [hrenewal] at hfrom; cases hfrom
    · refine .asleep hto (hidle.renewal.trans hrenewal) ?_
      rw [hwake, hidle.leaseUntil]
      exact hlease
  | awake hphase hrenewal hdue hlease =>
    obtain ⟨hdispatched, -⟩ | ⟨-, h | ⟨hidle, hwake⟩⟩ := hwhile
    · rw [hphase] at hdispatched; cases hdispatched
    · cases h with
      | granted hfrom hto' hwake hgranted =>
        refine .granted hto hto' ?_
        rw [hwake, hgranted]
        linarith
      | lost hfrom hto' => exact .finished (Or.inr (by rw [hto']; rfl))
      | failed hfrom hto' => exact .finished (Or.inr (by rw [hto']; rfl))
      | woken hfrom | stopped hfrom | refused hfrom | kept hfrom =>
        rw [hrenewal] at hfrom; cases hfrom
    · refine .awake hto (hidle.renewal.trans hrenewal) ?_ ?_
      · rw [hwake, hclock']; exact hdue.trans hclock
      · rw [hwake, hidle.leaseUntil]; exact hlease
  | granted hphase hrenewal hlease =>
    obtain ⟨hdispatched, -⟩ | ⟨-, h | ⟨hidle, hwake⟩⟩ := hwhile
    · rw [hphase] at hdispatched; cases hdispatched
    · cases h with
      | kept hfrom hto' hwake hkept =>
        have hdue : e.now ≤ s.wakeAt + slack :=
          hpunctual (by rw [hphase]; rfl) (by rw [hrenewal]; rfl)
        refine .asleep hto hto' ?_
        rw [hwake, hkept]
        linarith
      | woken hfrom | stopped hfrom | granted hfrom | lost hfrom | failed hfrom | refused hfrom =>
        rw [hrenewal] at hfrom; cases hfrom
    · refine .granted hto (hidle.renewal.trans hrenewal) ?_
      rw [hwake, hidle.leaseUntil]
      exact hlease

/-- With three intervals to a lease, a renewal that is on time finds it held. -/
theorem LeaseKept.held {c : LeaseTiming} {slack : Time} {s : Execution} {e : Moment}
    (hs : LeaseKept c slack s) (hvalid : c.valid = true) (hslack : 0 ≤ slack)
    (hsmall : 3 * slack ≤ seconds c.leaseRenewIntervalS) (hpunctual : s.punctual slack e)
    (hphase : s.attempt.phase = .executing) (hlive : s.attempt.renewal.isLive = true) :
    e.now < s.leaseUntil := by
  have hrunning : s.attempt.phase.isRunning = true := by rw [hphase]; rfl
  have hdue := hpunctual hrunning hlive
  have htiming : 3 * seconds c.leaseRenewIntervalS < seconds c.leaseTtlS := by
    have h : 3 * c.leaseRenewIntervalS < c.leaseTtlS := of_decide_eq_true hvalid
    unfold seconds
    exact_mod_cast h
  cases hs with
  | fresh hdispatched => rw [hphase] at hdispatched; cases hdispatched
  | asleep _ _ hlease => linarith
  | awake _ _ _ hlease => linarith
  | granted _ _ hlease => linarith
  | finished h =>
    obtain h | h := h
    · rw [hrunning] at h; cases h
    · rw [hlive] at h; cases h

/-! ## What the timing is chosen for -/

/-- A failed renewal costs neither the renewal coroutine, nor the lease, nor the outcome. -/
structure NeverDropped (w : WorkerId) (c : LeaseTiming) (s : Execution) (events : List Moment)
    (t : Execution) : Prop where
  /-- after a renewal that failed, the coroutine waits for the next interval, unless it was
  told to stop -/
  triesAgain : Run (fun s e s' => Executes w c s e s' ∧ (e.failsRenewal = true →
    s'.attempt.stopRenewal = true ∨ s'.attempt.renewal = .waiting ∧
      s'.wakeAt = e.now + seconds c.leaseRenewIntervalS)) s events t
  /-- with one renewal failed, the lease holds while the adapter executes, unless the
  coroutine was told that it is lost -/
  keepsLease : c.valid = true → events.countP Moment.failsRenewal ≤ 1 → ∀ slack, 0 ≤ slack →
    3 * slack ≤ seconds c.leaseRenewIntervalS →
    Run (fun s e s' => Executes w c s e s' ∧ s.punctual slack e) s events t →
    Run (fun s e s' => Executes w c s e s' ∧ (s.attempt.phase = .executing →
      s.attempt.renewal.toldLost = false → e.now < s.leaseUntil)) s events t
  /-- an attempt that the drain did not cancel reports its outcome once -/
  reports : t.attempt.phase = .ended → none ∉ endings events →
    ∀ outcome, some outcome ∈ endings events → t.finalized = [outcome]

/-- A renewal fails only in an attempt that the drain cancels, and not before its adapter
has ended. -/
def Harmless (events : List Moment) : Prop :=
  ∀ pre e post, events = pre ++ e :: post → e.failsRenewal = true →
    none ∈ endings events ∧ endings pre ≠ []

section
variable {w : WorkerId} {c : LeaseTiming} {now : Time} {row : Task} {owned : Owned}
  {events : List Moment} {t : Execution}

theorem Harmless.triesAgain (hharmless : Harmless events)
    (h : Run (Executes w c) (.claimed c now row owned) events t) :
    Run (fun s e s' => Executes w c s e s' ∧ (e.failsRenewal = true →
      s'.attempt.stopRenewal = true ∨ s'.attempt.renewal = .waiting ∧
        s'.wakeAt = e.now + seconds c.leaseRenewIntervalS)) (.claimed c now row owned) events t := by
  refine h.prefixed.mono fun {u e v} hst => ?_
  obtain ⟨pre, post, rfl, hpre, hstep⟩ := hst
  refine ⟨hstep, fun hfails => Or.inl ?_⟩
  have hin := (execute_turn hstep).failed hfails
  rw [hin.stopRenewal]
  exact (executes_story hpre).stopped (hharmless pre e post rfl hfails).2 hin.renews

theorem Harmless.keepsLease (hharmless : Harmless events) (hvalid : c.valid = true) {slack : Time}
    (hslack : 0 ≤ slack) (hsmall : 3 * slack ≤ seconds c.leaseRenewIntervalS)
    (h : Run (fun s e s' => Executes w c s e s' ∧ s.punctual slack e) (.claimed c now row owned)
      events t) :
    Run (fun s e s' => Executes w c s e s' ∧ (s.attempt.phase = .executing →
      s.attempt.renewal.toldLost = false → e.now < s.leaseUntil)) (.claimed c now row owned)
      events t := by
  have hkept := h.within (I := LeaseKept c slack) (fun hs hst => hs.step hst.1 hst.2)
    (.fresh rfl rfl (le_refl _))
  refine hkept.prefixed.mono fun {u e v} hst => ?_
  obtain ⟨pre, post, rfl, hpre, hlease, ⟨hstep, hpunctual⟩, -⟩ := hst
  refine ⟨hstep, fun hphase htold => hlease.held hvalid hslack hsmall hpunctual hphase ?_⟩
  have hrun : Run (Executes w c) (.claimed c now row owned) pre u := hpre.mono fun h => h.2.1.1
  obtain ⟨-, hreturned, hendings, -⟩ := (executes_story hrun).of_running (by rw [hphase]; rfl)
  have hraised : u.attempt.renewal ≠ .raised := by
    intro hraised
    obtain ⟨d, hd, hfails⟩ := (executes_raised hrun).mp hraised
    obtain ⟨xs, ys, rfl⟩ := List.append_of_mem hd
    have hxs := (hharmless xs d (ys ++ e :: post) (by simp) hfails).2
    rw [endings_append, List.append_eq_nil_iff] at hendings
    exact hxs hendings.1
  cases hr : u.attempt.renewal with
  | waiting => rfl
  | renewing => rfl
  | answered answer =>
    cases answer with
    | some row => rfl
    | none => rw [hr] at htold; cases htold
  | returned => exact absurd hr hreturned
  | refused => rw [hr] at htold; cases htold
  | raised => exact absurd hr hraised

theorem Harmless.reports (hharmless : Harmless events)
    (h : Run (Executes w c) (.claimed c now row owned) events t) (hended : t.attempt.phase = .ended)
    (hcancel : none ∉ endings events) {outcome : Outcome}
    (houtcome : some outcome ∈ endings events) : t.finalized = [outcome] := by
  cases executes_story h with
  | running hphase => rw [hended] at hphase; cases hphase
  | unstarted _ _ hendings => rw [hendings] at houtcome; cases houtcome
  | joining hphase => rw [hended] at hphase; cases hphase
  | reported _ _ hendings hfin =>
    rw [hendings, List.mem_singleton] at houtcome
    cases houtcome
    exact hfin
  | crashed _ hraised =>
    obtain ⟨e, he, hfails⟩ := (executes_raised h).mp hraised
    obtain ⟨pre, post, rfl⟩ := List.append_of_mem he
    exact absurd (hharmless pre e post rfl hfails).1 hcancel
  | cancelled _ hendings => exact absurd hendings hcancel

theorem NeverDropped.harmless
    (h : Run (Executes w c) (.claimed c now row owned) events t) (hended : t.attempt.phase = .ended)
    (hnever : NeverDropped w c (.claimed c now row owned) events t) : Harmless events := by
  rintro pre e post rfl hfails
  have hraised := (executes_raised h).mpr ⟨e, by simp, hfails⟩
  refine ⟨?_, fun hpre => ?_⟩
  · cases executes_story h with
    | running hphase => rw [hended] at hphase; cases hphase
    | unstarted _ hwaiting => rw [hraised] at hwaiting; cases hwaiting
    | joining hphase => rw [hended] at hphase; cases hphase
    | reported _ hdone => rw [hraised] at hdone; cases hdone
    | crashed _ _ hendings hfin =>
      by_contra hcancel
      have hreported := hnever.reports hended hcancel _ (hendings ▸ List.mem_singleton_self _)
      rw [hfin] at hreported
      cases hreported
    | cancelled _ hendings => exact hendings
  · obtain ⟨u, hru, hrest⟩ := hnever.triesAgain.split
    cases hrest with
    | cons hst hrest =>
      rename_i v
      obtain ⟨hstep, hagain⟩ := hst
      have hrun : Run (Executes w c) (.claimed c now row owned) pre u := hru.mono And.left
      have hin := (execute_turn hstep).failed hfails
      have hraised : v.attempt.renewal = .raised :=
        (execute_turn hstep).raised_iff.mpr (Or.inr hfails)
      have hrunning : u.attempt.stopRenewal = false := by
        cases executes_story hrun with
        | running _ hstop => exact hstop
        | unstarted hphase =>
          have hrenews := hin.renews
          rw [hphase] at hrenews
          cases hrenews
        | joining _ _ hendings => rw [hpre] at hendings; cases hendings
        | reported _ _ hendings => rw [hpre] at hendings; cases hendings
        | crashed _ _ hendings => rw [hpre] at hendings; cases hendings
        | cancelled _ hendings => rw [hpre] at hendings; cases hendings
      obtain hstop | ⟨hwaiting, -⟩ := hagain hfails
      · rw [hin.stopRenewal, hrunning] at hstop; cases hstop
      · rw [hraised] at hwaiting; cases hwaiting

/-- **A failed renewal is survived only by an attempt that is cancelled anyway.** A run
that ends has what the timing is chosen for if and only if no renewal fails while the
adapter runs, and none at all unless the drain cancels the attempt. An attempt whose
adapter has ended never waits for anything else and ends within six steps. -/
theorem renewal_failure_drops (h : Run (Executes w c) (.claimed c now row owned) events t) :
    (Harmless events → NeverDropped w c (.claimed c now row owned) events t) ∧
    (t.attempt.phase = .ended → NeverDropped w c (.claimed c now row owned) events t →
      Harmless events) ∧
    (endings events ≠ [] →
      (∀ rest u, Run (Executes w c) t rest u → rest.length ≤ 6) ∧
      (t.attempt.phase = .ended ∨ ∃ e u, e.action.isCancel = false ∧ Executes w c t e u)) := by
  have hstory := executes_story h
  refine ⟨fun hharmless => ?_, NeverDropped.harmless h, fun hended => ⟨?_, ?_⟩⟩
  · exact {
      triesAgain := hharmless.triesAgain h
      keepsLease := fun hvalid _ _ hslack hsmall hrun =>
        hharmless.keepsLease hvalid hslack hsmall hrun
      reports := fun hended hcancel _ houtcome => hharmless.reports h hended hcancel houtcome }
  · intro rest u hrest
    have hlength := executes_length hstory hended hrest
    have hleft := t.attempt.stepsLeft_le
    omega
  · exact hstory.goes_on w c hended

end

/-! ## One renewal fails -/

def runningRow : Task where
  id := 7
  tenantId := 1
  taskType := "demo"
  payload := []
  idempotencyKey := none
  state := .running
  attempt := 1
  availableAt := 0
  leaseWorkerId := some "first"
  leaseExpiresAt := some 30
  createdAt := 0
  updatedAt := 0

/-- One renewal is granted, and the adapter succeeds. -/
def renewedOnce : List Moment :=
  [{ now := 0, action := .begin },
   { now := 7, action := .renewal .timeout },
   { now := 7, action := .renewal .renew, reply := .ok (.renewed (some ⟨false, some 37⟩)) },
   { now := 7, action := .renewal .answer },
   { now := 10, action := .adapterEnds (.succeeded (some [])) },
   { now := 10, action := .renewal .stop },
   { now := 10, action := .join .lowest },
   { now := 10, action := .finalize
     reply := .ok (.completed (.applied { runningRow with state := .succeeded })) }]

/-- One renewal fails, and the adapter succeeds. -/
def renewalFailed : List Moment :=
  [{ now := 0, action := .begin },
   { now := 7, action := .renewal .timeout },
   { now := 7, action := .renewal .connectionFails },
   { now := 35, action := .adapterEnds (.succeeded (some [])) },
   { now := 35, action := .join .lowest }]

theorem renewal_failure_drops_renewedOnce : ∃ t,
    Run (Executes "first" {}) (.claimed {} 0 runningRow []) renewedOnce t ∧
    NeverDropped "first" {} (.claimed {} 0 runningRow []) renewedOnce t ∧
    t.attempt.phase = .ended ∧ t.finalized = [.succeeded (some [])] := by
  have hends : (exec (execute "first" {}) (.claimed {} 0 runningRow []) renewedOnce).map
      (fun t => (t.attempt.phase, t.finalized)) = some (.ended, [.succeeded (some [])]) := by
    decide +kernel
  obtain ⟨t, ht, hend⟩ := Option.map_eq_some_iff.mp hends
  obtain ⟨hphase, hfin⟩ := Prod.mk.inj hend
  have hrun : Run (Executes "first" {}) (.claimed {} 0 runningRow []) renewedOnce t :=
    Run.of_exec ht
  have hnone : ∀ e ∈ renewedOnce, e.failsRenewal = false := by decide +kernel
  have hharmless : Harmless renewedOnce := by
    intro pre e post he hfails
    have hsucceeds := hnone e (by rw [he]; simp)
    rw [hfails] at hsucceeds
    cases hsucceeds
  exact ⟨t, hrun, (renewal_failure_drops hrun).1 hharmless, hphase, hfin⟩

/-- The adapter has succeeded, the lease ran out five seconds before, and nothing is
reported. -/
theorem renewal_failure_drops_outcome : ∃ t,
    Run (Executes "first" {}) (.claimed {} 0 runningRow []) renewalFailed t ∧
    ({} : LeaseTiming).valid = true ∧ renewalFailed.countP Moment.failsRenewal = 1 ∧
    none ∉ endings renewalFailed ∧ t.attempt.phase = .ended ∧ t.finalized = [] ∧
    t.clock = 35 ∧ t.leaseUntil = 30 ∧
    ¬ NeverDropped "first" {} (.claimed {} 0 runningRow []) renewalFailed t := by
  have hends : (exec (execute "first" {}) (.claimed {} 0 runningRow []) renewalFailed).map
      (fun t => (t.attempt.phase, t.finalized)) = some (.ended, []) := by decide +kernel
  have htimes : (exec (execute "first" {}) (.claimed {} 0 runningRow []) renewalFailed).map
      (fun t => (t.clock, t.leaseUntil)) = some (35, 30) := by decide +kernel
  obtain ⟨t, ht, hend⟩ := Option.map_eq_some_iff.mp hends
  rw [ht, Option.map_some] at htimes
  obtain ⟨hphase, hfin⟩ := Prod.mk.inj hend
  obtain ⟨hclock, hlease⟩ := Prod.mk.inj (Option.some.inj htimes)
  refine ⟨t, Run.of_exec ht, by decide, by decide +kernel, by decide +kernel, hphase, hfin, hclock,
    hlease, fun hnever => ?_⟩
  have hreported := hnever.reports hphase (by decide +kernel) (.succeeded (some [])) (by decide +kernel)
  rw [hfin] at hreported
  cases hreported

end ControlPlane

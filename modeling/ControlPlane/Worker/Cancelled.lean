import ControlPlane.Server.Cancellation
import ControlPlane.Worker.System

/-! # Who a cancellation comes from

A worker stops an attempt for two reasons it does not keep apart: the row's flag,
seen with a renewal, and a renewal that was refused. It finalises both as
cancelled, and the fence of that completion does not look at the lease. So a task
whose lease has run out, and which the reaper has not taken yet, becomes
CANCELLED although nobody asked. -/

namespace ControlPlane
open Keyed Fallible Runs

/-- Somebody asked for the task's cancellation. -/
def Flagged (db : Database) (i : TaskId) : Prop :=
  ∃ t, db.task? i = some t ∧ t.cancelRequested = true

/-- Every CANCELLED task was asked to be. -/
def Asked (db : Database) : Prop :=
  ∀ i t, db.task? i = some t → t.state = .cancelled → t.cancelRequested = true

def RenewalTask.isRefused : RenewalTask → Bool
  | refused => true
  | _ => false

/-- The step finalises an attempt whose renewal was refused, while the row is
still RUNNING under the attempt and its worker and has no flag. -/
def System.finalisesLost (s : System) : Action → Bool
  | .worker w (.attempt k .finalize) =>
    ((s.workers w).bind fun p => p.inflight[k]?).any fun x =>
      x.phase.report?.isSome && x.renewal.isRefused &&
        (s.db.task? x.row.id).any fun t =>
          decide (t.HeldBy x.row.attempt w) && !t.cancelRequested
  | _ => false

variable [PyText]

/-! ## One transaction -/

theorem commit_flagged {db : Database} {i : TaskId} (c : Call) (h : Flagged db i) :
    Flagged (commit db c) i := by
  obtain ⟨t, ht, hf⟩ := h
  exact (commit_step db c i).flag_kept ht hf

/-- Only the two cancellations set the flag. -/
theorem TaskStep.flag_onset {c : Call} {i : TaskId} {v v' : TaskView} {t' : Task}
    (h : TaskStep c i v v') (ht' : v'.row = some t') (hf' : t'.cancelRequested = true) :
    (∃ t, v.row = some t ∧ t.cancelRequested = true) ∨ c.op.cancels i := by
  cases h with
  | skip => exact Or.inl ⟨t', ht', hf'⟩
  | noted e => exact Or.inl ⟨t', ht', hf'⟩
  | submitted hop hv => cases ht'; cases hf'
  | claimed hop hr hc => cases ht'; exact Or.inl ⟨_, hr, hf'⟩
  | renewed hop hr hren => cases ht'; exact Or.inl ⟨_, hr, hf'⟩
  | @completed e a w s hop hr hh =>
    cases ht'
    exact Or.inl ⟨s, hr, (e.row_fields c.now s).2.2.2.1.symm.trans hf'⟩
  | @reaped o limit scan s hop hr hs hov =>
    cases ht'
    exact Or.inl ⟨s, hr, (o.row_fields c.now s).2.2.2.1.symm.trans hf'⟩
  | cancelled hop hr hq hc => exact Or.inr hop
  | flagged hop hr hs hf => exact Or.inr hop

/-- A step to CANCELLED asked for it, or is a worker's report. -/
theorem TaskStep.asked {c : Call} {i : TaskId} {v v' : TaskView} {t' : Task}
    (h : TaskStep c i v v') (hv : ∀ t, v.row = some t → t.state = .cancelled →
      t.cancelRequested = true) (ht' : v'.row = some t') (hcan : t'.state = .cancelled) :
    t'.cancelRequested = true ∨ ∃ a w t, c.op = .complete .cancelled i a w ∧ v.row = some t ∧
      t.HeldBy a w ∧ t'.cancelRequested = t.cancelRequested := by
  cases h with
  | skip => exact Or.inl (hv t' ht' hcan)
  | noted e => exact Or.inl (hv t' ht' hcan)
  | submitted hop hv' => cases ht'; cases hcan
  | claimed hop hr hc => cases ht'; cases hcan
  | renewed hop hr hren =>
    cases ht'
    cases hcan.symm.trans hren.1.1
  | @completed e a w s hop hr hh =>
    cases ht'
    obtain ⟨hst, -, -, hflag, -⟩ := e.row_fields c.now s
    rw [hst] at hcan
    cases e <;> cases hcan
    exact Or.inr ⟨a, w, s, hop, hr, hh, hflag⟩
  | @reaped o limit scan s hop hr hs hov =>
    cases ht'
    rw [(o.row_fields c.now s).1] at hcan
    rcases reapToState_cases s.attempt s.maxAttempts with ⟨-, h⟩ | ⟨-, h⟩ <;> rw [h] at hcan <;>
      cases hcan
  | cancelled hop hr hq hc => cases ht'; exact Or.inl (cancelled_fields hc).2.2.2.1
  | flagged hop hr hs hf => cases ht'; exact Or.inl rfl

/-- A transaction leaves every CANCELLED task asked for exactly when it does not
report as cancelled a running attempt of a row without the flag. -/
theorem commit_asked_iff {db : Database} (h : Asked db) (c : Call) :
    Asked (commit db c) ↔ ∀ i a w, c.op = .complete .cancelled i a w → ∀ t, db.task? i = some t →
      t.HeldBy a w → t.cancelRequested = true := by
  obtain ⟨now, op⟩ := c
  constructor
  · rintro hasked i a w rfl t ht hheld
    obtain ⟨hst, -, -, hflag, -⟩ := Ending.cancelled.row_fields now t
    rw [← hflag]
    exact hasked i _ (congrArg TaskView.row (commit_completed ht hheld)) hst
  · intro hop i t' ht' hcan
    rcases (commit_step db ⟨now, op⟩ i).asked (h i) ht' hcan with
      hf | ⟨a, w, t, he, ht, hheld, hflag⟩
    · exact hf
    · exact hflag.trans (hop i a w he t ht hheld)

/-! ## What a worker knows -/

/-- Why an attempt's event is set, and what its finalisation will report. -/
structure Explained (w : WorkerId) (db : Database) (x : Attempt) : Prop where
  cause : x.cancelled = true → x.renewal.isRefused = true ∨ Flagged db x.row.id
  refused : x.renewal.isRefused = true → x.cancelled = true
  answered : ∀ r, x.renewal = .answered (some r) → r.cancelRequested = true → Flagged db x.row.id
  report : ∀ c, x.phase.report? = some c → c = x.cancelled

theorem Explained.commit {w : WorkerId} {db : Database} {x : Attempt} (c : Call)
    (h : Explained w db x) : Explained w (commit db c) x where
  cause hc := (h.cause hc).imp_right (commit_flagged c)
  refused := h.refused
  answered r hr hf := commit_flagged c (h.answered r hr hf)
  report := h.report

omit [PyText] in
theorem Explained.like {w : WorkerId} {db : Database} {x y : Attempt} (h : Explained w db x)
    (hlike : x.Like y) (hreport : ∀ c, y.phase.report? = some c → c = x.cancelled) :
    Explained w db y where
  cause := by rw [hlike.cancelled, hlike.renewal, hlike.row]; exact h.cause
  refused := by rw [hlike.cancelled, hlike.renewal]; exact h.refused
  answered := by rw [hlike.renewal, hlike.row]; exact h.answered
  report c hc := by rw [hlike.cancelled]; exact hreport c hc

/-- What a renewal answers is what the row says. -/
theorem renewed_flag {db : Database} {now : Time} {i : TaskId} {w : WorkerId} {a ttl : Int}
    {r : Renewal} (h : (perform db now (.renewLease i w a ttl)).map Prod.snd =
      .ok (.renewed (some r))) (hf : r.cancelRequested = true) :
    Flagged (commit db ⟨now, .renewLease i w a ttl⟩) i := by
  obtain ⟨res, hok, he⟩ := mapSnd_ok (reply_ok h)
  obtain rfl := Reply.renewed.inj he
  obtain ⟨-, ⟨t, ht, -, hres, -⟩ | ⟨-, hno, -⟩⟩ := renewLease_ok hok
  · obtain rfl := Option.some.inj hres
    exact commit_flagged _ ⟨t, ht, hf⟩
  · cases hno

theorem Explained.renewal {w : WorkerId} {db : Database} {now : Time} {ttl : Int} {x : Attempt}
    {b : RenewalAction} {n : Move Attempt} (h : Explained w db x) (hphase : x.phase.report? = none)
    (hn : renewUntilStopped w ttl x b = some n) :
    Explained w (n.run db now).1 (n.run db now).2 := by
  have hreport : ∀ (b c : Bool), x.phase.report? = some c → c = b := by
    intro b c hc
    rw [hphase] at hc
    cases hc
  -- nothing is refused before the answer that refuses
  have hcause : x.renewal.isRefused = false → x.cancelled = true → Flagged db x.row.id :=
    fun hx hc => (h.cause hc).resolve_left (by rw [hx]; decide)
  have hquiet : ∀ r : RenewalTask, x.renewal.isRefused = false → r.isRefused = false →
      (∀ row, r ≠ .answered (some row)) → Explained w db { x with renewal := r } := by
    intro r hx hr hans
    constructor
    · exact fun hc => Or.inr (hcause hx hc)
    · intro hc
      rw [hr] at hc
      cases hc
    · exact fun row hc => absurd hc (hans row)
    · exact h.report
  unfold renewUntilStopped at hn
  split at hn
  · rename_i hx
    split at hn <;> cases hn
    exact hquiet .renewing (by rw [hx]; rfl) rfl (by simp)
  · rename_i hx
    split at hn <;> cases hn
    exact hquiet .returned (by rw [hx]; rfl) rfl (by simp)
  · rename_i hx
    cases hn
    have hx' : x.renewal.isRefused = false := by rw [hx]; rfl
    dsimp only [Move.run]
    split
    · rename_i row hreply
      constructor
      · exact fun hc => Or.inr (commit_flagged _ (hcause hx' hc))
      · intro hc
        cases hc
      · rintro r hr hf
        cases hr
        exact renewed_flag hreply hf
      · exact h.report
    · exact (hquiet .raised hx' rfl (by simp)).commit _
  · rename_i hx
    cases hn
    exact hquiet .raised (by rw [hx]; rfl) rfl (by simp)
  · cases hn
    constructor
    · exact fun _ => Or.inl rfl
    · exact fun _ => rfl
    · intro r hr
      cases hr
    · exact hreport _
  · rename_i row hx
    cases hn
    have hx' : x.renewal.isRefused = false := by rw [hx]; rfl
    constructor
    · intro hc
      rcases Bool.or_eq_true _ _ ▸ hc with hc | hc
      · exact Or.inr (hcause hx' hc)
      · exact Or.inr (h.answered row hx hc)
    · intro hc
      cases hc
    · intro r hr
      cases hr
    · exact hreport _
  · cases hn

theorem explained_invariant : AttemptInvariant Explained where
  commit c h := h.commit c
  claimed _ _ row _ := by
    constructor
    · intro hc; cases hc
    · intro hc; cases hc
    · intro r hr; cases hr
    · intro c hc; cases hc
  step hmove h := by
    have hsilent : ∀ {y : Attempt} {b : Bool}, y.phase.report? = none →
        ∀ c, y.phase.report? = some c → c = b := by
      intro y b hy c hc
      rw [hy] at hc
      cases hc
    cases hmove with
    | renewal hphase hn =>
      rw [Move.run_map]
      exact h.renewal hphase hn
    | silent hlike hreport => exact h.like hlike hreport
    | noted hnext => exact (h.commit _).like (hnext _).1 (hsilent (hnext _).2)
    | finalized hphase hending hnext => exact (h.commit _).like (hnext _).1 (hsilent (hnext _).2)

/-! ## One step of the system -/

omit [PyText] in
theorem finalizeEnding_cancelled {row : Task} {outcome : Outcome} {cancelRequested : Bool}
    {rng : Draws} :
    finalizeEnding row outcome cancelRequested rng = some .cancelled ↔ cancelRequested = true := by
  unfold finalizeEnding
  constructor
  · intro h
    by_contra hc
    rw [if_neg hc] at h
    cases outcome with
    | succeeded result => cases result <;> cases h
    | failed detail =>
      dsimp only at h
      split at h <;> cases h
  · intro h
    rw [if_pos h]

omit [PyText] in
/-- What a step that finalises a lost attempt is. -/
theorem finalisesLost_iff {s : System} {a : Action} : s.finalisesLost a = true ↔
    ∃ w k p x t, a = .worker w (.attempt k .finalize) ∧ s.workers w = some p ∧
      p.inflight[k]? = some x ∧ x.phase.report?.isSome = true ∧ x.renewal.isRefused = true ∧
      s.db.task? x.row.id = some t ∧ t.HeldBy x.row.attempt w ∧ t.cancelRequested = false := by
  constructor
  · intro h
    unfold System.finalisesLost at h
    split at h
    · rename_i w k
      obtain ⟨x, hx, h⟩ := (Option.any_eq_true ..).mp h
      obtain ⟨p, hp, hx⟩ := Option.bind_eq_some_iff.mp hx
      simp only [Bool.and_eq_true, Option.any_eq_true, decide_eq_true_eq, Bool.not_eq_true'] at h
      obtain ⟨⟨hphase, href⟩, t, ht, hheld, hf⟩ := h
      exact ⟨w, k, p, x, t, rfl, hp, hx, hphase, href, ht, hheld, hf⟩
    · cases h
  · rintro ⟨w, k, p, x, t, rfl, hp, hx, hphase, href, ht, hheld, hf⟩
    simp [System.finalisesLost, hp, hx, hphase, href, ht, hheld, hf]

theorem op?_reports {s : System} {w : WorkerId} {k : Nat} {p : Worker} {x : Attempt}
    {c : Bool} (hp : s.workers w = some p) (hx : p.inflight[k]? = some x)
    (hphase : x.phase.report? = some c) :
    ∃ outcome rng, s.op? (.worker w (.attempt k .finalize)) =
      (finalizeEnding x.row outcome c rng).map fun e => .complete e x.row.id x.row.attempt w := by
  cases hph : x.phase <;> rw [hph] at hphase <;> cases hphase
  exact ⟨_, _, op?_finalize hp hx hph⟩

/-- **A step leaves every CANCELLED task asked for exactly when it does not
finalise a lost attempt.** -/
theorem step_asked_iff {s s' : System} {a : Action} (h : SystemStep s a s') (hs : Asked s.db)
    (hx : Remembers Explained s) : Asked s'.db ↔ s.finalisesLost a = false := by
  rw [step_db h]
  constructor
  · intro hasked
    by_contra hlost
    obtain ⟨w, k, p, x, t, rfl, hp, hk, hphase, href, ht, hheld, hf⟩ :=
      finalisesLost_iff.mp (Bool.not_eq_false _ ▸ hlost)
    have hex := hx w p hp x (List.mem_of_getElem? hk)
    obtain ⟨c, hc⟩ := Option.isSome_iff_exists.mp hphase
    obtain ⟨outcome, rng, hop⟩ := op?_reports hp hk hc
    have htrue : c = true := (hex.report c hc).trans (hex.refused href)
    rw [hop, finalizeEnding_cancelled.mpr htrue, Option.map_some] at hasked
    have := (commit_asked_iff hs _).mp hasked _ _ _ rfl t ht hheld
    rw [hf] at this
    cases this
  · intro hlost
    split
    · exact hs
    · rename_i op hop
      refine (commit_asked_iff hs _).mpr ?_
      rintro i n w rfl t ht hheld
      obtain ⟨p, b, rfl, hp, hissues⟩ := step_completes h hop
      obtain ⟨-, ⟨k, x, outcome, c, rng, rfl, hk, hphase, he, rfl, rfl⟩ | ⟨rest, -, -, he⟩⟩ :=
        hissues.completes
      · have hex := hx w p hp x (List.mem_of_getElem? hk)
        have hrep : x.phase.report? = some c := by rw [hphase]; rfl
        have htrue := finalizeEnding_cancelled.mp he
        rcases hex.cause ((hex.report c hrep).symm.trans htrue) with href | ⟨u, hu, hf⟩
        · by_contra hno
          rw [finalisesLost_iff.mpr ⟨w, k, p, x, t, rfl, hp, hk, by rw [hrep]; rfl, href, ht,
            hheld, Bool.eq_false_iff.mpr hno⟩] at hlost
          cases hlost
        · rwa [Option.eq_some_unique ht hu]
      · cases he

/-- The step that asks for a task's cancellation is one of the API's two. -/
theorem step_flags {s s' : System} {a : Action} {i : TaskId} (h : SystemStep s a s')
    (hno : ¬ Flagged s.db i) (hyes : Flagged s'.db i) :
    ∃ op, a = .external op ∧ op.cancels i := by
  rw [step_db h] at hyes
  split at hyes
  · exact absurd hyes hno
  · rename_i op hop
    obtain ⟨t', ht', hf'⟩ := hyes
    have hcan : op.cancels i :=
      ((commit_step s.db ⟨s.clock, op⟩ i).flag_onset ht' hf').resolve_left
        fun ⟨t, ht, hf⟩ => hno ⟨t, ht, hf⟩
    obtain ⟨ha, -⟩ | ⟨v, cap, caps, rfl⟩ | ⟨v, p, b, -, -, hiss⟩ := step_issues h hop
    · exact ⟨op, ha, hcan⟩
    · rcases hcan with hc | ⟨_, _, hc⟩ <;> cases hc
    · -- no worker asks
      rcases hcan with rfl | ⟨versions, reason, rfl⟩
      · cases hiss with
        | liveness hlive => rcases hlive with hl | ⟨_, hl⟩ <;> cases hl
      · cases hiss with
        | liveness hlive => rcases hlive with hl | ⟨_, hl⟩ <;> cases hl

/-! ## Runs -/

omit [PyText] in
theorem initial_asked : Asked System.initial.db := fun i t ht => by cases ht

omit [PyText] in
theorem initial_flagged (i : TaskId) : ¬ Flagged System.initial.db i := by
  rintro ⟨t, ht, -⟩
  cases ht

/-- **Nobody is cancelled unasked, exactly where no lost attempt is finalised.**
In a run of the system every CANCELLED task of every state has
`cancel_requested` set, if and only if no step of it finalises an attempt whose
renewal was refused while its row still passes the fence and has no flag. And a
flag that is set was set by a call of `cancel_task` or `cancel_agent_tasks`. -/
theorem cancelled_when_asked_iff (acts : List Action) (s : System) :
    (Run (fun s a s' => SystemStep s a s' ∧ Asked s'.db) .initial acts s ↔
      Run (fun s a s' => SystemStep s a s' ∧ s.finalisesLost a = false) .initial acts s) ∧
    ∀ i, Run SystemStep .initial acts s → Flagged s.db i →
      ∃ before op after u v, acts = before ++ .external op :: after ∧ op.cancels i ∧
        Run SystemStep .initial before u ∧ ¬ Flagged u.db i ∧ SystemStep u (.external op) v ∧
        Flagged v.db i := by
  have hstart : Asked System.initial.db ∧ Remembers Explained .initial :=
    ⟨initial_asked, initial_remembers _⟩
  refine ⟨⟨fun h => ?_, fun h => ?_⟩, fun i h hf => ?_⟩
  · refine (h.within (I := fun s => Asked s.db ∧ Remembers Explained s) ?_ hstart).mono ?_
    · rintro s a s' ⟨-, hx⟩ ⟨hst, hasked⟩
      exact ⟨hasked, explained_invariant.system hst hx⟩
    · rintro s a s' ⟨⟨hs, hx⟩, ⟨hst, hasked⟩, -⟩
      exact ⟨hst, (step_asked_iff hst hs hx).mp hasked⟩
  · refine (h.within (I := fun s => Asked s.db ∧ Remembers Explained s) ?_ hstart).mono ?_
    · rintro s a s' ⟨hs, hx⟩ ⟨hst, hlost⟩
      exact ⟨(step_asked_iff hst hs hx).mpr hlost, explained_invariant.system hst hx⟩
    · rintro s a s' ⟨-, ⟨hst, -⟩, hs', -⟩
      exact ⟨hst, hs'⟩
  · obtain ⟨before, a, after, u, v, rfl, hbefore, hno, hst, hyes, -⟩ :=
      h.onset (P := fun s => Flagged s.db i) (initial_flagged i) hf
    obtain ⟨op, rfl, hcan⟩ := step_flags hst hno hyes
    exact ⟨before, op, after, u, v, rfl, hcan, hbefore, hno, hst, hyes⟩

section
omit [PyText]

/-- One worker claims the one task and begins to execute it. -/
def working : List Action :=
  [.external (.createTenant 1 "tenant" 10 1000),
   .start "worker" { capacity := 5, capabilities := [] },
   .external (.submitTask 7 { tenantId := 1, taskType := "demo", payload := [] }),
   .worker "worker" .poll,
   .worker "worker" (.claim fun _ => {}),
   .worker "worker" (.attempt 0 .begin)]

/-- The worker pauses for longer than its lease, renews too late and finalises
before the reaper comes by. -/
def finalisedLate : List Action :=
  working ++
    [.advance 31,
     .worker "worker" (.attempt 0 (.renewal .timeout)),
     .worker "worker" (.attempt 0 (.renewal .renew)),
     .worker "worker" (.attempt 0 (.renewal .answer)),
     .worker "worker" (.attempt 0 (.adapterEnds (.succeeded (some [])))),
     .worker "worker" (.attempt 0 (.join .lowest)),
     .worker "worker" (.attempt 0 .finalize)]

/-- The task is CANCELLED, and no call asked for it. -/
theorem cancelled_unasked_finalisedLate :
    (exec (@step PyText.plain) .initial finalisedLate).map (fun s =>
      (s.db.task? 7).map fun t => (t.state, t.cancelRequested)) = some (some (.cancelled, false)) := by
  decide +kernel

/-- The task is cancelled by its caller while it runs. -/
def askedWhileWorking : List Action := working ++ [.external (.cancelTask 7)]

/-- The state that run leaves. -/
def askedSystem : System :=
  (exec (@step PyText.plain) .initial askedWhileWorking).get (by decide +kernel)

theorem askedSystem_flagged : Flagged askedSystem.db 7 := by
  have h : (askedSystem.db.task? 7).any Task.cancelRequested = true := by decide +kernel
  exact (Option.any_eq_true ..).mp h

theorem cancelled_when_asked_askedWhileWorking :
    ∃ before op after u v, askedWhileWorking = before ++ .external op :: after ∧ op.cancels 7 ∧
      Run (@SystemStep PyText.plain) .initial before u ∧ ¬ Flagged u.db 7 ∧
      @SystemStep PyText.plain u (.external op) v ∧ Flagged v.db 7 :=
  (@cancelled_when_asked_iff PyText.plain askedWhileWorking askedSystem).2 7
    (Run.of_exec (Option.some_get _).symm) askedSystem_flagged

end

end ControlPlane

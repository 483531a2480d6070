import ControlPlane.Server.RegistryApi
import ControlPlane.Worker.Backoff
import ControlPlane.Worker.Drain

/-! # A trace carrier that stops its task

Tracing is to be no dependency of the execution: a carrier that cannot be read is to
make no link, and the attempt to go on. The guard lists `ValueError` and `KeyError`,
and what a value of the wrong type raises is a `TypeError`. It leaves the attempt
before anything of it is set up, so nobody reports it and nobody renews its lease. -/

namespace ControlPlane
open Runs

/-! ## The start of an attempt -/

theorem spanOpens_iff {row : Task} : row.spanOpens = true ↔ HarmlessCarrier row.traceCarrier := by
  unfold Task.spanOpens
  obtain ⟨hharmless, links, hok⟩ | ⟨hno, herr⟩ := linkFromCarrier_cases row.traceCarrier
  · rw [hok]
    exact iff_of_true rfl hharmless
  · rw [herr]
    exact iff_of_false (by simp [Except.isOk, Except.toBool]) hno

/-- What `_run_attempt` does first. -/
def Attempt.started (x : Attempt) (owned : Owned) : Attempt × Owned :=
  if x.row.spanOpens then ({ x with phase := .executing }, setOwned owned x.row.id x.row.attempt)
  else ({ x with phase := .ended }, owned)

theorem runAttempt_begin {w : WorkerId} {ttl : Int} {x : Attempt} {owned : Owned}
    (hphase : x.phase = .dispatched) :
    runAttempt w ttl x owned .begin = some (.silent (x.started owned)) := by
  unfold runAttempt Attempt.started
  rw [hphase]
  dsimp only
  split <;> rfl

def System.attempt? (s : System) (w : WorkerId) (k : Nat) : Option Attempt :=
  (s.workers w).bind fun p => p.inflight[k]?

variable [PyText]

/-- **An attempt that was dispatched starts or ends at once**, and the database does
not hear of it. -/
theorem step_begin {s : System} {w : WorkerId} {k : Nat} {x : Attempt}
    (hx : s.attempt? w k = some x) (hphase : x.phase = .dispatched) :
    ∃ s' y, SystemStep s (.worker w (.attempt k .begin)) s' ∧ s'.attempt? w k = some y ∧
      s'.db = s.db ∧ y.row = x.row ∧
      y.phase = if x.row.spanOpens then .executing else .ended := by
  obtain ⟨p, hp, hk⟩ := Option.bind_eq_some_iff.mp hx
  have hmove : runForever w p (.attempt k .begin) = some (.silent
      { p with inflight := p.inflight.set k (x.started p.owned).1
               owned := (x.started p.owned).2 }) := by
    rw [runForever_attempt, hk, Option.bind_some, runAttempt_begin hphase]
    rfl
  have hstep : ∃ s', SystemStep s (.worker w (.attempt k .begin)) s' ∧ s'.db = s.db ∧
      s'.workers w = some { p with inflight := p.inflight.set k (x.started p.owned).1
                                   owned := (x.started p.owned).2 } := by
    unfold SystemStep step
    dsimp only
    rw [hp, Option.bind_some, hmove]
    exact ⟨_, rfl, rfl, Function.update_self ..⟩
  obtain ⟨s', hs', hdb, hworker⟩ := hstep
  refine ⟨s', (x.started p.owned).1, hs', ?_, hdb, ?_, ?_⟩
  · unfold System.attempt?
    rw [hworker, Option.bind_some]
    exact List.getElem?_set_self (List.getElem?_eq_some_iff.mp hk).1
  all_goals
    unfold Attempt.started
    split <;> rfl

/-- The attempt goes on to execute its task. -/
def System.Proceeds (s : System) (w : WorkerId) (k : Nat) : Prop :=
  ∃ s' y, SystemStep s (.worker w (.attempt k .begin)) s' ∧ s'.attempt? w k = some y ∧
    y.phase = .executing

theorem proceeds_iff {s : System} {w : WorkerId} {k : Nat} {x : Attempt}
    (hx : s.attempt? w k = some x) (hphase : x.phase = .dispatched) :
    s.Proceeds w k ↔ HarmlessCarrier x.row.traceCarrier := by
  rw [← spanOpens_iff]
  obtain ⟨s', y, hstep, hy, -, -, hto⟩ := step_begin hx hphase
  constructor
  · rintro ⟨t, z, ht, hz, hexecuting⟩
    obtain rfl := Option.eq_some_unique hstep ht
    obtain rfl := Option.eq_some_unique hy hz
    rw [hexecuting] at hto
    by_contra hraises
    rw [if_neg hraises] at hto
    cases hto
  · intro hopens
    rw [if_pos hopens] at hto
    exact ⟨s', y, hstep, hy, hto⟩

omit [PyText] in
/-- A carrier that was written reaches the worker in the payload and is linked to. -/
theorem submitted_links {row : Task} {body : TaskCreate} {ctx : SpanContext} {carrier : JsonObject}
    (hcarrier : carrierForCurrentSpan ctx = some carrier)
    (hpayload : row.payload = Json.jsonbFields (body.tracedPayload carrier)) :
    linkFromCarrier row.traceCarrier =
      .ok [⟨{ ctx with isRemote := true, traceFlags := sampled }⟩] := by
  have hstored : row.traceCarrier = .obj carrier := by
    unfold carrierForCurrentSpan at hcarrier
    split at hcarrier
    swap
    · cases hcarrier
    cases hcarrier
    rw [Task.traceCarrier, hpayload, TaskCreate.tracedPayload, if_neg (List.cons_ne_nil _ _),
      Json.jsonbFields_lookup, JsonObject.lookup_set]
    rfl
  rw [hstored]
  exact linkFromCarrier_written hcarrier

/-- **A stored carrier stops its task exactly when it is not harmless.** One that is
makes one link at most and raises nothing, and the attempt proceeds; what is written
for a valid span is one, and decodes to a link with its ids. -/
theorem trace_carrier_stops_iff :
    (∀ carrier : Json, (∃ links, linkFromCarrier carrier = .ok links ∧ links.length ≤ 1) ↔
      HarmlessCarrier carrier) ∧
    (∀ (s : System) (w : WorkerId) (k : Nat) (x : Attempt), s.attempt? w k = some x →
      x.phase = .dispatched → (s.Proceeds w k ↔ HarmlessCarrier x.row.traceCarrier)) ∧
    (∀ ctx : SpanContext, 0 < ctx.traceId → ctx.traceId < 2 ^ 128 → 0 < ctx.spanId →
      ctx.spanId < 2 ^ 64 → ∃ carrier link, carrierForCurrentSpan ctx = some carrier ∧
        linkFromCarrier (.obj carrier) = .ok [link] ∧ link.context.traceId = ctx.traceId ∧
        link.context.spanId = ctx.spanId) := by
  refine ⟨linkFromCarrier_returns_iff, fun s w k x hx hphase => proceeds_iff hx hphase, ?_⟩
  intro ctx htrace htrace' hspan hspan'
  have hvalid : ctx.isValid = true := decide_eq_true ⟨htrace, htrace', hspan, hspan'⟩
  have hcarrier := carrierForCurrentSpan_some hvalid
  exact ⟨_, _, hcarrier, linkFromCarrier_written hcarrier, rfl, rfl⟩

section
omit [PyText]

/-- A task is submitted with a payload, and claimed. -/
def claimedWith (payload : JsonObject) : List Action :=
  [.external (.createTenant 1 "tenant" 10 1000),
   .start "w" { capacity := 5, capabilities := [] },
   .external (.submitTask 7 { tenantId := 1, taskType := "demo", payload }),
   .worker "w" .poll,
   .worker "w" (.claim fun _ => {})]

def someSpan : SpanContext where
  traceId := 2 ^ 100 + 17
  spanId := 42

/-- The carrier of a span is read back, and an attempt without one proceeds. -/
theorem trace_carrier_stops_iff_someSpan :
    (∃ carrier link, carrierForCurrentSpan someSpan = some carrier ∧
      linkFromCarrier (.obj carrier) = .ok [link] ∧ link.context.traceId = 2 ^ 100 + 17 ∧
      link.context.spanId = 42) ∧
    ∃ s, exec (@step PyText.plain) .initial (claimedWith []) = some s ∧
      @System.Proceeds PyText.plain s "w" 0 := by
  obtain ⟨-, hproceeds, hwritten⟩ := @trace_carrier_stops_iff PyText.plain
  refine ⟨hwritten someSpan (by decide) (by decide) (by decide) (by decide), ?_⟩
  have hclaimed : (exec (@step PyText.plain) .initial (claimedWith [])).map (fun s =>
      (s.attempt? "w" 0).map fun x => (x.phase, x.row.payload)) =
        some (some (.dispatched, [])) := by decide +kernel
  obtain ⟨s, hs, hattempt⟩ := Option.map_eq_some_iff.mp hclaimed
  obtain ⟨x, hx, hfields⟩ := Option.map_eq_some_iff.mp hattempt
  obtain ⟨hphase, hpayload⟩ := Prod.mk.inj hfields
  refine ⟨s, hs, (hproceeds s "w" 0 x hx hphase).mpr ?_⟩
  rw [Task.traceCarrier, hpayload]
  trivial

/-- Two ids that are numbers. -/
def numberIds : Json := .obj [("trace_id", .int 1), ("span_id", .int 2)]

def startedWithNumberIds : List Action :=
  claimedWith [("_trace", numberIds)] ++ [.worker "w" (.attempt 0 .begin)]

/-- The worker then drains, and exits. -/
def drainedAfterwards : List Action :=
  startedWithNumberIds ++ drained ++ [.worker "w" .settle, .worker "w" .exit]

/-- They raise; the attempt has ended and is not in `_owned`, so the worker leaves its
row RUNNING. -/
theorem trace_carrier_stops_numberIds :
    (¬ ∃ links, linkFromCarrier numberIds = .ok links ∧ links.length ≤ 1) ∧
    (exec (@step PyText.plain) .initial startedWithNumberIds).map (fun s =>
      ((s.attempt? "w" 0).map Attempt.phase, (s.workers "w").map Worker.owned)) =
        some (some .ended, some []) ∧
    (exec (@step PyText.plain) .initial drainedAfterwards).map (fun s =>
      (s.db.task? 7).map fun t => (t.state, t.leaseWorkerId)) =
        some (some (.running, some "w")) := by
  refine ⟨?_, by decide +kernel, by decide +kernel⟩
  rintro ⟨links, hlinks, -⟩
  cases hlinks

end

end ControlPlane

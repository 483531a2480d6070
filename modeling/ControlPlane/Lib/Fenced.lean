import ControlPlane.Lib.Runs
import Mathlib.Data.Int.Notation

/-! # Fenced leases

A job that its clients hold one after another. Every grant draws the next token; to
renew the lease or to report on the job, a client presents its name and its token, and
is refused unless the lease is still its own. Once a lease or the time allowed to the
job has run out, the service may take the job back, and the client is not told.

`Step` says what the service may do to a job and answer. `Watch` is what can be checked
of the answers alone; the answers of the service always pass it (`Run.watched`). -/

namespace Fenced
open Runs

universe u v w

inductive Phase (κ : Type u) (τ : Type v) (ω : Type w) where
  | waiting
  | leased (holder : κ) (expires : τ)
  | ended (outcome : ω)
  deriving DecidableEq

structure Job (κ : Type u) (τ : Type v) (ω : Type w) where
  /-- a job taken back after this many grants is given up -/
  budget : ℤ
  /-- how long the job may take, from its first grant on -/
  allowance : τ
  phase : Phase κ τ ω := .waiting
  /-- the last token drawn -/
  token : ℤ := 0
  recalled : Bool := false
  started : Option τ := none

/-- A request with its answer, or what the service does to a job on its own. A renewal
is answered with the recall mark, a report with whether it was accepted; a report
without a verdict gives the job back. -/
inductive Event (κ : Type u) (τ : Type v) (ω : Type w) where
  | submitted (budget : ℤ) (allowance : τ)
  | granted (now : τ) (holder : κ) (token : ℤ) (expires : τ)
  | renewed (now : τ) (holder : κ) (token : ℤ) (expires : τ) (answer : Option Bool)
  | reported (holder : κ) (token : ℤ) (verdict : Option ω) (accepted : Bool)
  | reclaimed (now : τ)
  | withdrawn
  | recalled
  deriving DecidableEq

variable {κ : Type u} {τ : Type v} {ω : Type w}

/-- The clients are told. -/
def Event.told : Event κ τ ω → Bool
  | granted .. => true
  | renewed .. => true
  | reported .. => true
  | _ => false

namespace Job

def grant (j : Job κ τ ω) (now : τ) (k : κ) (expires : τ) : Job κ τ ω :=
  { j with phase := .leased k expires, token := j.token + 1, started := some (j.started.getD now) }

def extend (j : Job κ τ ω) (k : κ) (expires : τ) : Job κ τ ω :=
  { j with phase := .leased k expires }

def settle (j : Job κ τ ω) (verdict : Option ω) : Job κ τ ω :=
  { j with phase := verdict.elim .waiting .ended }

/-- The token is the job's last and the lease under it runs. -/
def HeldBy (j : Job κ τ ω) (k : κ) (token : ℤ) : Prop :=
  j.token = token ∧ ∃ expires, j.phase = .leased k expires

end Job

section Service
variable [LT τ] [Add τ]

def Job.RenewableBy (j : Job κ τ ω) (now : τ) (k : κ) (token : ℤ) : Prop :=
  j.token = token ∧ ∃ expires, j.phase = .leased k expires ∧ now < expires

def Job.Overran (j : Job κ τ ω) (now : τ) : Prop :=
  ∃ s, j.started = some s ∧ s + j.allowance < now

/-- What the service does; `lost` is the outcome of a job taken back for good, `dropped`
that of a job withdrawn before it was granted. -/
inductive Step (lost dropped : ω) : Option (Job κ τ ω) → Event κ τ ω → Option (Job κ τ ω) → Prop
  | submit (budget : ℤ) (allowance : τ) :
    Step lost dropped none (.submitted budget allowance)
      (some ⟨budget, allowance, .waiting, 0, false, none⟩)
  | grant {j : Job κ τ ω} (now : τ) (k : κ) (expires : τ) (hwait : j.phase = .waiting) :
    Step lost dropped (some j) (.granted now k (j.token + 1) expires) (some (j.grant now k expires))
  | renew {j : Job κ τ ω} {now : τ} {k : κ} {n : ℤ} (expires : τ) (hown : j.RenewableBy now k n) :
    Step lost dropped (some j) (.renewed now k n expires (some j.recalled)) (some (j.extend k expires))
  | refuseRenewal {s : Option (Job κ τ ω)} {now : τ} {k : κ} {n : ℤ} (expires : τ)
      (hnot : ∀ j, s = some j → ¬ j.RenewableBy now k n) :
    Step lost dropped s (.renewed now k n expires none) s
  | report {j : Job κ τ ω} {k : κ} {n : ℤ} (verdict : Option ω) (hown : j.HeldBy k n) :
    Step lost dropped (some j) (.reported k n verdict true) (some (j.settle verdict))
  | refuseReport {s : Option (Job κ τ ω)} {k : κ} {n : ℤ} (verdict : Option ω)
      (hnot : ∀ j, s = some j → ¬ j.HeldBy k n) :
    Step lost dropped s (.reported k n verdict false) s
  | reclaim {j : Job κ τ ω} {now : τ} {k : κ} {expires : τ} (hheld : j.phase = .leased k expires)
      (hdue : expires < now ∨ j.Overran now) :
    Step lost dropped (some j) (.reclaimed now)
      (some (j.settle (if j.token < j.budget then none else some lost)))
  | withdraw {j : Job κ τ ω} (hwait : j.phase = .waiting) :
    Step lost dropped (some j) .withdrawn (some { j with phase := .ended dropped, recalled := true })
  | callBack {j : Job κ τ ω} {k : κ} {expires : τ} (hheld : j.phase = .leased k expires)
      (hnot : j.recalled = false) :
    Step lost dropped (some j) .recalled (some { j with recalled := true })

end Service

/-! ## What the answers say -/

/-- What is known from the answers: the last token granted, to whom, until a report
under it is answered, whether a renewal was told of a recall, and whether a report has
ended the job. -/
structure Watch (κ : Type u) where
  token : ℤ := 0
  holder : Option κ := none
  recalled : Bool := false
  settled : Bool := false

/-- The next answer, if it fits the answers before it. -/
def Watch.see [DecidableEq κ] (m : Watch κ) : Event κ τ ω → Option (Watch κ)
  | .granted _ k n _ =>
    if n = m.token + 1 ∧ m.settled = false then some { m with token := n, holder := some k } else none
  | .renewed _ k n _ (some b) =>
    if m.holder = some k ∧ n = m.token ∧ (m.recalled = true → b = true) then
      some { m with recalled := b }
    else none
  | .reported k n verdict true =>
    if m.holder = some k ∧ n = m.token then
      some { m with holder := none, settled := verdict.isSome }
    else none
  | .reported k n _ false =>
    -- the lease was taken back, and no later report under it is accepted
    some (if m.holder = some k ∧ n = m.token then { m with holder := none } else m)
  | _ => some m

/-- What the job is, for all the answers tell. -/
structure Watch.Knows (m : Watch κ) (j : Job κ τ ω) : Prop where
  token : m.token = j.token
  recalled : m.recalled = true → j.recalled = true
  holder : ∀ k expires, j.phase = .leased k expires → m.holder = some k
  settled : m.settled = true → ∃ o, j.phase = .ended o

namespace Watch.Knows

variable {m : Watch κ} {j : Job κ τ ω}

theorem not_settled_waiting (h : m.Knows j) (hwait : j.phase = .waiting) : m.settled = false := by
  by_contra hsettled
  obtain ⟨o, ho⟩ := h.settled (by simpa using hsettled)
  simp [hwait] at ho

theorem not_settled_leased (h : m.Knows j) {k : κ} {expires : τ} (hheld : j.phase = .leased k expires) :
    m.settled = false := by
  by_contra hsettled
  obtain ⟨o, ho⟩ := h.settled (by simpa using hsettled)
  simp [hheld] at ho

end Watch.Knows

section Watched
variable [DecidableEq κ] [LT τ] [Add τ] {lost dropped : ω}

/-- One step of the service is an answer that fits, or no answer. -/
theorem Step.seen {s t : Option (Job κ τ ω)} {e : Event κ τ ω} {m : Watch κ}
    (h : Step lost dropped s e t) (hnone : s = none → m = {}) (hsome : ∀ j, s = some j → m.Knows j) :
    ∃ m', m.see e = some m' ∧ (t = none → m' = {}) ∧ ∀ j, t = some j → m'.Knows j := by
  cases h with
  | submit b a =>
    refine ⟨m, rfl, by simp, fun j hj => ?_⟩
    obtain rfl := Option.some.inj hj
    rw [hnone rfl]
    exact ⟨rfl, by simp, by simp, by simp⟩
  | @grant j now k expires hwait =>
    have hm := hsome j rfl
    refine ⟨{ m with token := j.token + 1, holder := some k }, ?_, by simp, fun j' hj => ?_⟩
    · simp [Watch.see, hm.token, hm.not_settled_waiting hwait]
    · obtain rfl := Option.some.inj hj
      refine ⟨rfl, hm.recalled, ?_, ?_⟩
      · simp [Job.grant]
      · simp [hm.not_settled_waiting hwait]
  | @renew j now k n expires hown =>
    have hm := hsome j rfl
    obtain ⟨rfl, e, hheld, -⟩ := hown
    refine ⟨{ m with recalled := j.recalled }, ?_, by simp, fun j' hj => ?_⟩
    · simp only [Watch.see]
      rw [if_pos ⟨hm.holder k e hheld, hm.token.symm, hm.recalled⟩]
    · obtain rfl := Option.some.inj hj
      refine ⟨hm.token, id, ?_, ?_⟩
      · rintro k' e' he'
        obtain ⟨rfl, -⟩ : k = k' ∧ expires = e' := by simpa [Job.extend] using he'
        exact hm.holder k e hheld
      · simp [hm.not_settled_leased hheld]
  | refuseRenewal expires hnot => exact ⟨m, rfl, hnone, hsome⟩
  | @report j k n verdict hown =>
    have hm := hsome j rfl
    obtain ⟨rfl, e, hheld⟩ := hown
    refine ⟨{ m with holder := none, settled := verdict.isSome }, ?_, by simp, fun j' hj => ?_⟩
    · simp only [Watch.see]
      rw [if_pos ⟨hm.holder k e hheld, hm.token.symm⟩]
    · obtain rfl := Option.some.inj hj
      refine ⟨hm.token, hm.recalled, ?_, ?_⟩
      · cases verdict <;> simp [Job.settle]
      · cases verdict <;> simp [Job.settle]
  | @refuseReport s k n verdict hnot =>
    by_cases hown : m.holder = some k ∧ n = m.token
    · refine ⟨{ m with holder := none }, by simp [Watch.see, hown], fun hs => ?_, fun j hj => ?_⟩
      · obtain rfl := hnone hs
        cases hown.1
      · have hm := hsome j hj
        refine ⟨hm.token, hm.recalled, fun k' e he => ?_, hm.settled⟩
        obtain rfl : k = k' := Option.some.inj (hown.1.symm.trans (hm.holder k' e he))
        exact absurd ⟨hm.token.symm.trans hown.2.symm, e, he⟩ (hnot j hj)
    · exact ⟨m, by simp [Watch.see, hown], hnone, hsome⟩
  | @reclaim j now k expires hheld hdue =>
    have hm := hsome j rfl
    refine ⟨m, rfl, by simp, fun j' hj => ?_⟩
    obtain rfl := Option.some.inj hj
    refine ⟨hm.token, hm.recalled, ?_, ?_⟩
    · split <;> simp [Job.settle]
    · simp [hm.not_settled_leased hheld]
  | @withdraw j hwait =>
    have hm := hsome j rfl
    refine ⟨m, rfl, by simp, fun j' hj => ?_⟩
    obtain rfl := Option.some.inj hj
    exact ⟨hm.token, fun _ => rfl, by simp, fun _ => ⟨dropped, rfl⟩⟩
  | @callBack j k expires hheld hnot =>
    have hm := hsome j rfl
    refine ⟨m, rfl, by simp, fun j' hj => ?_⟩
    obtain rfl := Option.some.inj hj
    exact ⟨hm.token, fun _ => rfl, hm.holder, hm.settled⟩

end Watched

end Fenced

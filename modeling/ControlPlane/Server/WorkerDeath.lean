import ControlPlane.Server.History
import ControlPlane.Worker.System

/-! # The death of a worker

A worker's row is DEAD when the reaper has missed its heartbeats, or at the end
of its own drain. A heartbeat leaves a DEAD row alone and the sweep only writes
DEAD; the status the drain announces is written whatever the row says. -/

namespace ControlPlane
open Keyed Fallible Runs

/-- The worker has been declared dead. -/
def Database.Dead (db : Database) (w : WorkerId) : Prop :=
  ∃ r, db.workers.find? w = some r ∧ r.status = .dead

/-- The call writes another status on the row of a DEAD worker. -/
def Revives (db : Database) (c : Call) : Prop :=
  ∃ w status, c.op = .setWorkerStatus w status ∧ status ≠ .dead ∧ db.Dead w

/-- Whoever is DEAD stays so. -/
def DeathKept (s s' : Database) : Prop := ∀ w, s.Dead w → s'.Dead w

theorem Database.Dead.modify {db : Database} {w : WorkerId} (h : db.Dead w) (p : WorkerRow → Bool)
    (f : WorkerRow → WorkerRow) (hf : ∀ r, (f r).id = r.id)
    (hkeep : ∀ r, r.id = w → r.status = .dead → p r = true → (f r).status = .dead) :
    (updateWorkers db p f hf).Dead w := by
  obtain ⟨r, hr, hdead⟩ := h
  refine ⟨if p r then f r else r, ?_, ?_⟩
  · unfold updateWorkers
    rw [Table.find?_modify, hr]
    rfl
  · split
    · rename_i hp
      exact hkeep r (Table.key_of_find? hr) hdead hp
    · exact hdead

variable [PyText]

/-- **A step keeps the dead dead exactly where it revives none of them.** -/
theorem commit_deathKept_iff (db : Database) (c : Call) :
    DeathKept db (commit db c) ↔ ¬ Revives db c := by
  constructor
  · rintro hkept ⟨w, status, hop, hne, hdead⟩
    obtain ⟨r', hr', hdead'⟩ := hkept w hdead
    obtain ⟨r, hr, -⟩ := hdead
    obtain ⟨now, op⟩ := c
    obtain rfl : op = .setWorkerStatus w status := hop
    have hid : r.id = w := Table.key_of_find? hr
    have hrow : (commit db ⟨now, .setWorkerStatus w status⟩).workers.find? w =
        some { r with status := status } := by
      show (setWorkerStatus db w status).workers.find? w = _
      unfold setWorkerStatus updateWorkers
      rw [Table.find?_modify, hr]
      simp [hid]
    obtain rfl := Option.eq_some_unique hrow hr'
    exact hne hdead'
  · intro hno w hdead
    by_cases hwrites : c.op.writesParties = false
    · obtain ⟨r, hr, hd⟩ := hdead
      exact ⟨r, by rw [(commit_parties hwrites).workers, hr], hd⟩
    rcases commit_eq db c with ⟨r, h⟩ | h
    swap
    · rw [h]
      exact hdead
    generalize commit db c = db' at h
    obtain ⟨now, op⟩ := c
    cases op with
    | createTenant newId name m q =>
      obtain ⟨t, h, -⟩ := mapSnd_ok h
      obtain ⟨r, hr, hd⟩ := hdead
      exact ⟨r, by rw [createTenant_workers h, hr], hd⟩
    | registerWorker v m caps =>
      obtain ⟨t, h, -⟩ := mapSnd_ok h
      obtain ⟨r, hr, hd⟩ := hdead
      exact ⟨r, registerWorker_kept h hr, hd⟩
    | heartbeat v =>
      cases h
      exact hdead.modify _ _ _ fun r _ hd _ => hd
    | setWorkerStatus v status =>
      cases h
      refine hdead.modify _ _ _ fun r hw _ hp => ?_
      by_contra hne
      have hv : r.id = v := by simpa using hp
      exact hno ⟨v, status, rfl, hne, (hv.symm.trans hw) ▸ hdead⟩
    | markDeadWorkers s =>
      cases h
      exact hdead.modify _ _ _ fun r _ _ _ => rfl
    | _ => exact absurd rfl hwrites

/-- **Death is one-way exactly where no status write meets a DEAD row.** In a
sequence of calls from the empty database, of any kinds and in any order, every
DEAD worker is DEAD in every later state if and only if no call of the sequence
writes another status on a DEAD worker's row. -/
theorem death_one_way_iff (calls : List Call) :
    (∀ before later after, calls = before ++ later ++ after → ∀ w,
        (history .empty before).Dead w → (history .empty (before ++ later)).Dead w) ↔
      ∀ before c after, calls = before ++ c :: after → ¬ Revives (history .empty before) c := by
  constructor
  · intro h before c after hsplit
    refine (commit_deathKept_iff _ c).mp fun w hdead => ?_
    have hlater := h before [c] after (by simpa using hsplit) w hdead
    rwa [history_append] at hlater
  · intro h before later after hsplit w hdead
    rw [history_append]
    induction later generalizing before with
    | nil => exact hdead
    | cons c later ih =>
      have hno : ¬ Revives (history .empty before) c :=
        h before c (later ++ after) (by simpa using hsplit)
      have hnext : (history .empty (before ++ [c])).Dead w := by
        rw [history_append]
        exact (commit_deathKept_iff _ c).mpr hno w hdead
      have hlast := ih (before ++ [c]) (by simpa using hsplit) hnext
      rwa [history_append] at hlast

/-- A worker misses its heartbeats and is declared dead; before its next one it
is asked to stop, and its drain announces itself. -/
def stoppedAfterDeath : List Action :=
  [.start "worker" { capacity := 1, capabilities := [] }, .advance 60,
    .external (.markDeadWorkers 30), .worker "worker" .stop, .worker "worker" .drain,
    .worker "worker" .announce]

omit [PyText] in
/-- The DEAD worker is DRAINING again. -/
theorem death_undone_stopped :
    [4, 6].map (fun n => ((exec (@step PyText.plain) .initial (stoppedAfterDeath.take n)).bind
      fun s => s.db.workers.find? "worker").map WorkerRow.status) =
      [some .dead, some .draining] := by
  decide +kernel

end ControlPlane

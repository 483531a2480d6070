import ControlPlane.Worker.Loop

/-! # The settings

What of `Settings` the modelled processes read, with its defaults, and the check
every process makes of its timing before it starts. -/

namespace ControlPlane

structure Settings where
  leaseTtlS : Int := 30
  leaseRenewIntervalS : Int := 7
  heartbeatIntervalS : Int := 5
  workerDeadAfterS : Int := 15
  reaperPeriodS : Int := 1
  claimBatchSize : Int := 5
  workerCapabilities : String := ""
  globalQueueShedThreshold : Int := 0
  gaugeRefreshS : ℚ := 5

/-- `validate_timing`: the text of the error it raises, if it raises one. -/
def Settings.validateTiming (s : Settings) : Except String Unit :=
  if s.leaseTtlS ≤ 3 * s.leaseRenewIntervalS then
    .error ("lease_ttl_s=" ++ toString s.leaseTtlS ++ " must exceed 3 renew intervals (" ++
      toString (3 * s.leaseRenewIntervalS) ++
      "s); otherwise a single dropped renewal costs a worker its lease.")
  else if s.workerDeadAfterS ≤ 2 * s.heartbeatIntervalS then
    .error ("worker_dead_after_s=" ++ toString s.workerDeadAfterS ++
      " must exceed 2 heartbeat intervals (" ++ toString (2 * s.heartbeatIntervalS) ++ "s).")
  else .ok ()

theorem Settings.validateTiming_ok {s : Settings} :
    s.validateTiming = .ok () ↔ 3 * s.leaseRenewIntervalS < s.leaseTtlS ∧
      2 * s.heartbeatIntervalS < s.workerDeadAfterS := by
  unfold validateTiming
  split
  · simp; omega
  · split
    · simp; omega
    · simp; omega

/-- The defaults pass their own check. -/
theorem Settings.default_valid : ({} : Settings).validateTiming = .ok () :=
  validateTiming_ok.mpr (by decide)

section Capabilities
variable [PyText]

/-- `capabilities()`. -/
def Settings.capabilities (s : Settings) : List String :=
  (((s.workerCapabilities.splitOn ",").filter fun c => PyText.strip c ≠ "").map
    fun c => PyText.lower (PyText.strip c)).dedup.insertionSort (· ≤ ·)

/-- What a worker is made of when it is given no capabilities of its own. -/
def Settings.workerConfig (s : Settings) (capacity : Int) (policy : ClaimPolicy) : WorkerConfig where
  capacity := capacity
  capabilities := s.capabilities
  policy := policy
  leaseTtlS := s.leaseTtlS
  claimBatchSize := s.claimBatchSize

theorem normalised_fixed {cs : List String}
    (h : ∀ c ∈ cs, ∃ x, PyText.strip x ≠ "" ∧ c = PyText.lower (PyText.strip x))
    (hnodup : cs.Nodup) (hsorted : cs.Pairwise (· ≤ ·)) : normalised cs = cs := by
  have hkept : cs.filter (fun c => c ≠ "" && PyText.strip c ≠ "") = cs := by
    refine List.filter_eq_self.mpr fun c hc => ?_
    obtain ⟨x, hx, rfl⟩ := h c hc
    simp [PyText.strip_lower_strip, PyText.lower_ne_empty _ hx]
  have hsame : cs.map (fun c => PyText.lower (PyText.strip c)) = cs := by
    refine (List.map_congr_left fun c hc => ?_).trans (List.map_id cs)
    obtain ⟨x, hx, rfl⟩ := h c hc
    rw [PyText.strip_lower_strip, PyText.lower_lower]
    rfl
  unfold normalised
  rw [hkept, hsame, List.dedup_eq_self.mpr hnodup]
  exact List.Pairwise.insertionSort_eq hsorted

/-- The two ways to make a worker agree: what the settings say is normalised already. -/
theorem Settings.capabilities_normalised (s : Settings) :
    normalised s.capabilities = s.capabilities := by
  refine normalised_fixed (fun c hc => ?_) ?_ ?_
  · unfold capabilities at hc
    rw [List.mem_insertionSort, List.mem_dedup] at hc
    obtain ⟨x, hx, rfl⟩ := List.mem_map.mp hc
    exact ⟨x, by simpa using (List.mem_filter.mp hx).2, rfl⟩
  · exact (List.perm_insertionSort _ _).nodup_iff.mpr (List.nodup_dedup _)
  · exact List.pairwise_insertionSort _ _

end Capabilities

end ControlPlane

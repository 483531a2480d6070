import ControlPlane.Domain.Text
import ControlPlane.Lib.Separated
import Mathlib.Data.List.Sort
import Mathlib.Data.List.Sublists
import Mathlib.Data.List.Dedup

/-! # Agents, versions and capabilities

The lifecycles of an agent and of its versions, and which of their statuses a
route may resolve to. Then what a task requires of a worker and what a worker
offers, compared after the same normalisation on both sides. A set of
requirements has a canonical text, its key; a worker can claim exactly the keys
of the subsets of what it offers, so the claim asks for rows by key instead of
filtering the queue. -/

namespace ControlPlane

inductive AgentStatus where
  | active | deprecated | disabled
  deriving DecidableEq, Repr

inductive VersionStatus where
  | draft | active | deprecated | disabled
  deriving DecidableEq, Repr

def AgentStatus.value : AgentStatus → String
  | active => "ACTIVE"
  | deprecated => "DEPRECATED"
  | disabled => "DISABLED"

def VersionStatus.value : VersionStatus → String
  | draft => "DRAFT"
  | active => "ACTIVE"
  | deprecated => "DEPRECATED"
  | disabled => "DISABLED"

/-- Versions a route may resolve to. -/
def routableVersionStatuses : List VersionStatus := [.active]

/-- Agent states a route may resolve to. -/
def routableAgentStatuses : List AgentStatus := [.active]

/-! ## Capabilities -/

variable [PyText]

/-- `sorted({c.strip().lower() for c in capabilities if c and c.strip()})`. -/
def normalised (capabilities : List String) : List String :=
  ((capabilities.filter fun c => c ≠ "" && PyText.strip c ≠ "").map
    fun c => PyText.lower (PyText.strip c)).dedup.insertionSort (· ≤ ·)

def capabilityKey (capabilities : List String) : String :=
  String.intercalate "," (normalised capabilities)

def workerSatisfies (required workerCapabilities : List String) : Bool :=
  (normalised required).all fun c => (normalised workerCapabilities).contains c

/-- A worker declaring more distinct capabilities than this is served by the
containment filter instead of by keys. -/
def maxKeyedClaimCapabilities : Nat := 5

def satisfiableCapabilityKeys (workerCapabilities : List String) : List String :=
  let caps := normalised workerCapabilities
  ((List.range (caps.length + 1)).flatMap fun r =>
    (caps.sublistsLen r).map capabilityKey).dedup.insertionSort (· ≤ ·)

/-! ## Normal forms -/

theorem mem_normalised {c : String} {caps : List String} :
    c ∈ normalised caps ↔ ∃ d ∈ caps, d ≠ "" ∧ PyText.strip d ≠ "" ∧
      PyText.lower (PyText.strip d) = c := by
  simp [normalised, and_assoc]

theorem normalised_sorted (caps : List String) : (normalised caps).Pairwise (· ≤ ·) :=
  List.pairwise_insertionSort _ _

theorem normalised_nodup (caps : List String) : (normalised caps).Nodup :=
  (List.perm_insertionSort _ _).nodup_iff.mpr (List.nodup_dedup _)

/-- Two lists of capabilities that normalise to the same set have one normal form. -/
theorem normalised_eq_of_mem {caps caps' : List String}
    (h : ∀ c, c ∈ normalised caps ↔ c ∈ normalised caps') : normalised caps = normalised caps' :=
  ((List.perm_ext_iff_of_nodup (normalised_nodup _) (normalised_nodup _)).mpr h).eq_of_pairwise
    (fun _ _ _ _ => le_antisymm) (normalised_sorted _) (normalised_sorted _)

/-- An entry of a normal form is its own normal form. -/
theorem normalised_entry {c : String} {caps : List String} (h : c ∈ normalised caps) :
    c ≠ "" ∧ PyText.strip c = c ∧ PyText.lower c = c := by
  obtain ⟨d, -, -, hd, rfl⟩ := mem_normalised.mp h
  exact ⟨PyText.lower_ne_empty _ hd, PyText.strip_lower_strip d, PyText.lower_lower _⟩

theorem normalised_normalised (caps : List String) : normalised (normalised caps) = normalised caps := by
  refine normalised_eq_of_mem fun c => ?_
  constructor
  · intro hc
    obtain ⟨d, hd, -, -, rfl⟩ := mem_normalised.mp hc
    obtain ⟨-, hs, hl⟩ := normalised_entry hd
    rw [hs, hl]
    exact hd
  · intro hc
    obtain ⟨hne, hs, hl⟩ := normalised_entry hc
    exact mem_normalised.mpr ⟨c, hc, hne, by rwa [hs], by rw [hs, hl]⟩

theorem satisfiableCapabilityKeys_normalised (caps : List String) :
    satisfiableCapabilityKeys (normalised caps) = satisfiableCapabilityKeys caps := by
  unfold satisfiableCapabilityKeys
  rw [normalised_normalised]

theorem satisfiableCapabilityKeys_nodup (caps : List String) :
    (satisfiableCapabilityKeys caps).Nodup :=
  (List.perm_insertionSort _ _).nodup_iff.mpr (List.nodup_dedup _)

theorem mem_satisfiableCapabilityKeys {k : String} {caps : List String} :
    k ∈ satisfiableCapabilityKeys caps ↔
      ∃ combo, combo.Sublist (normalised caps) ∧ capabilityKey combo = k := by
  simp only [satisfiableCapabilityKeys, List.mem_insertionSort, List.mem_dedup, List.mem_flatMap,
    List.mem_range, List.mem_map, List.mem_sublistsLen]
  constructor
  · rintro ⟨r, -, combo, ⟨hs, -⟩, hk⟩
    exact ⟨combo, hs, hk⟩
  · rintro ⟨combo, hs, hk⟩
    exact ⟨combo.length, Nat.lt_succ_of_le hs.length_le, combo, ⟨hs, rfl⟩, hk⟩

/-- The key of whatever a worker satisfies is among its keys. -/
theorem capabilityKey_mem_of_satisfies {required caps : List String}
    (h : workerSatisfies required caps = true) :
    capabilityKey required ∈ satisfiableCapabilityKeys caps := by
  unfold workerSatisfies at h
  rw [List.all_eq_true] at h
  have hsub : (normalised required).Sublist (normalised caps) := by
    refine List.sublist_of_subperm_of_pairwise ?_ (normalised_sorted _) (normalised_sorted _)
    exact (normalised_nodup required).subperm fun c hc => by simpa using h c hc
  refine mem_satisfiableCapabilityKeys.mpr ⟨normalised required, hsub, ?_⟩
  unfold capabilityKey
  rw [normalised_normalised]

/-! ## What a key says

A key joins the entries of a normal form by commas, and an entry may hold commas
of its own. A key therefore keeps the normal form up to the places where its
entries end. -/

/-- The entries of the normal form, cut at their commas. -/
def spelling (capabilities : List String) : List (List Char) :=
  Separated.parts ',' ((normalised capabilities).map String.toList)

/-- Cut at commas, the requirements read like a selection of what the worker offers. -/
def SpelledBy (required workerCapabilities : List String) : Prop :=
  ∃ combo, combo.Sublist (normalised workerCapabilities) ∧ spelling combo = spelling required

/-- What the worker offers reads like the requirements, although the worker
lacks one of them: a comma stands where an entry ends on the other side. -/
def Regrouped (required workerCapabilities : List String) : Prop :=
  SpelledBy required workerCapabilities ∧
    ∃ c ∈ normalised required, c ∉ normalised workerCapabilities

theorem toList_ne_nil_of_normalised {caps : List String} :
    ∀ w ∈ (normalised caps).map String.toList, w ≠ [] := by
  intro w hw
  obtain ⟨c, hc, rfl⟩ := List.mem_map.mp hw
  obtain ⟨d, -, -, hd, rfl⟩ := mem_normalised.mp hc
  have hne := PyText.lower_ne_empty _ hd
  intro hnil
  exact hne (String.toList_inj.mp (by simpa using hnil))

theorem toList_capabilityKey (caps : List String) :
    (capabilityKey caps).toList = [','].intercalate ((normalised caps).map String.toList) := by
  unfold capabilityKey
  rw [String.toList_intercalate]
  rfl

/-- Two requirements have one key exactly when they are spelled alike. -/
theorem capabilityKey_eq_iff {a b : List String} :
    capabilityKey a = capabilityKey b ↔ spelling a = spelling b := by
  rw [← String.toList_inj, toList_capabilityKey, toList_capabilityKey]
  exact Separated.join_eq_iff toList_ne_nil_of_normalised toList_ne_nil_of_normalised

/-- **A worker's keys** are the keys of what it can spell. -/
theorem capabilityKey_mem_iff {required caps : List String} :
    capabilityKey required ∈ satisfiableCapabilityKeys caps ↔ SpelledBy required caps := by
  rw [mem_satisfiableCapabilityKeys]
  constructor
  · intro h
    obtain ⟨combo, hsub, hkey⟩ := h
    exact ⟨combo, hsub, capabilityKey_eq_iff.mp hkey⟩
  · intro h
    obtain ⟨combo, hsub, hspell⟩ := h
    exact ⟨combo, hsub, capabilityKey_eq_iff.mpr hspell⟩

theorem workerSatisfies_iff {required caps : List String} :
    workerSatisfies required caps = true ↔ ∀ c ∈ normalised required, c ∈ normalised caps := by
  simp [workerSatisfies]

/-- **Keyed matching is exact exactly without a regrouping**: the key of the
requirements is among the worker's keys just when the worker satisfies them, if
and only if the worker's entries do not regroup into requirements it lacks. -/
theorem keyed_matching_exact_iff (required workerCapabilities : List String) :
    (capabilityKey required ∈ satisfiableCapabilityKeys workerCapabilities ↔
        workerSatisfies required workerCapabilities = true) ↔
      ¬ Regrouped required workerCapabilities := by
  have hmem : capabilityKey required ∈ satisfiableCapabilityKeys workerCapabilities ↔
      SpelledBy required workerCapabilities := capabilityKey_mem_iff
  have hsat : workerSatisfies required workerCapabilities = true ↔
      ∀ c ∈ normalised required, c ∈ normalised workerCapabilities := workerSatisfies_iff
  constructor
  · intro h hre
    obtain ⟨hspell, c, hc, hno⟩ := hre
    exact hno (hsat.mp (h.mp (hmem.mpr hspell)) c hc)
  · intro h
    refine ⟨fun hkey => hsat.mpr fun c hc => ?_, capabilityKey_mem_of_satisfies⟩
    by_contra hno
    exact h ⟨hmem.mp hkey, c, hc, hno⟩

/-- Requirements listed as the worker lists its capabilities are satisfied. -/
theorem satisfies_of_listed {required caps : List String}
    (h : ∀ c ∈ required, c ∈ normalised caps) : workerSatisfies required caps = true := by
  refine workerSatisfies_iff.mpr fun c hc => ?_
  obtain ⟨d, hd, -, -, rfl⟩ := mem_normalised.mp hc
  obtain ⟨-, hs, hl⟩ := normalised_entry (h d hd)
  rw [hs, hl]
  exact h d hd

theorem SpelledBy.mono {required caps caps' : List String} (h : SpelledBy required caps)
    (hsub : ∀ c ∈ normalised caps, c ∈ normalised caps') : SpelledBy required caps' := by
  obtain ⟨combo, hcombo, hspell⟩ := h
  refine ⟨combo, List.sublist_of_subperm_of_pairwise ?_ ((normalised_sorted caps).sublist hcombo)
    (normalised_sorted caps'), hspell⟩
  exact ((normalised_nodup caps).sublist hcombo).subperm fun c hc => hsub c (hcombo.subset hc)

/-- Entries without commas cannot be regrouped. -/
theorem not_regrouped_of_comma_free {required caps : List String}
    (hr : ∀ c ∈ normalised required, ',' ∉ c.toList)
    (hw : ∀ c ∈ normalised caps, ',' ∉ c.toList) : ¬ Regrouped required caps := by
  intro h
  obtain ⟨⟨combo, hsub, hspell⟩, c, hc, hno⟩ := h
  have hfree : ∀ ws : List String, (∀ c ∈ ws, ',' ∉ c.toList) →
      Separated.parts ',' (ws.map String.toList) = ws.map String.toList := by
    intro ws hws
    refine Separated.parts_of_free fun w hw => ?_
    obtain ⟨c, hc, rfl⟩ := List.mem_map.mp hw
    exact hws c hc
  have hcombo : ∀ c ∈ normalised combo, c ∈ normalised caps := by
    intro c hc
    obtain ⟨d, hd, hne, hs, rfl⟩ := mem_normalised.mp hc
    rw [← normalised_normalised caps]
    exact mem_normalised.mpr ⟨d, hsub.subset hd, hne, hs, rfl⟩
  unfold spelling at hspell
  rw [hfree _ hr, hfree _ fun c hc => hw c (hcombo c hc)] at hspell
  have hsame : normalised combo = normalised required :=
    List.map_injective_iff.mpr (fun a b => String.toList_inj.mp) hspell
  exact hno (hcombo c (hsame ▸ hc))

omit [PyText] in
/-- A comma inside a requirement: the worker offers two entries that, joined,
read like the one it does not offer. -/
theorem keyed_matching_inexact :
    @capabilityKey PyText.plain ["gpu,internet"] ∈
        @satisfiableCapabilityKeys PyText.plain ["gpu", "internet"] ∧
      @workerSatisfies PyText.plain ["gpu,internet"] ["gpu", "internet"] = false := by
  decide +kernel

end ControlPlane

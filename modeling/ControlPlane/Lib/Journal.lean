import Mathlib.Data.List.Basic
import Mathlib.Data.List.Count

/-! # Journals

A journal is a list of entries, some of which name the state they move a
machine to. Folding the entries in order gives back the state, provided each
step of the machine appends one such entry when its state changes and none when
it does not (`Records`). -/

namespace Journal

universe u v

variable {ε : Type u} {σ : Type v}

/-- The states the entries move to, in order. -/
def changes (target : ε → Option σ) (es : List ε) : List σ := es.filterMap target

/-- The state after the entries, from the state before them. -/
def replay (target : ε → Option σ) (s : Option σ) (es : List ε) : Option σ :=
  es.foldl (fun s e => (target e).or s) s

variable {target : ε → Option σ}

@[simp] theorem changes_append (es fs : List ε) :
    changes target (es ++ fs) = changes target es ++ changes target fs :=
  List.filterMap_append

theorem replay_append (s : Option σ) (es fs : List ε) :
    replay target s (es ++ fs) = replay target (replay target s es) fs :=
  List.foldl_append

/-- Only the last state named matters. -/
theorem replay_eq_last (es : List ε) (s : Option σ) :
    replay target s es = (changes target es).getLast?.or s := by
  induction es generalizing s with
  | nil => simp [replay, changes]
  | cons e es ih =>
    rw [show replay target s (e :: es) = replay target ((target e).or s) es from rfl, ih]
    cases h : target e with
    | none => simp [changes, h]
    | some d => simp [changes, h, List.getLast?_cons]

variable [DecidableEq σ]

/-- The entries record the step from one state to another: the new state once if
it is another one, nothing if it is the same. -/
def Records (target : ε → Option σ) (s s' : Option σ) (es : List ε) : Prop :=
  changes target es = if s' = s then [] else s'.toList

/-- Entries that record a step replay it. -/
theorem Records.replay {s s' : Option σ} {es : List ε} (h : Records target s s' es)
    (hkept : s' = none → s = none) : replay target s es = s' := by
  rw [replay_eq_last, h]
  by_cases he : s' = s
  · rw [if_pos he, he]
    rfl
  · rw [if_neg he]
    cases s' with
    | none => exact absurd (hkept rfl).symm he
    | some d => rfl

/-- A journal that replays to the state before a step, with the entries that
record the step, replays to the state after it. -/
theorem Records.extend {s s' : Option σ} {es fs : List ε} (h : Records target s s' fs)
    (hkept : s' = none → s = none) (hs : Journal.replay target none es = s) :
    Journal.replay target none (es ++ fs) = s' := by
  rw [replay_append, hs]
  exact h.replay hkept

/-! ## Growth -/

/-- The journal has grown, by entries of one kind. -/
def Grows (P : ε → Prop) (es es' : List ε) : Prop := ∃ new, es' = es ++ new ∧ ∀ e ∈ new, P e

namespace Grows

variable {P : ε → Prop} {es fs gs : List ε}

theorem refl (es : List ε) : Grows P es es := ⟨[], (List.append_nil es).symm, by simp⟩

theorem of_eq (h : fs = es) : Grows P es fs := by
  rw [h]
  exact refl es

theorem one {e : ε} (h : fs = es ++ [e]) (he : P e) : Grows P es fs := ⟨[e], h, by simpa using he⟩

theorem trans (h : Grows P es fs) (h' : Grows P fs gs) : Grows P es gs := by
  obtain ⟨new, rfl, hnew⟩ := h
  obtain ⟨more, rfl, hmore⟩ := h'
  refine ⟨new ++ more, List.append_assoc es new more, fun e he => ?_⟩
  exact (List.mem_append.mp he).elim (hnew e) (hmore e)

/-- What is in the journal stays there. -/
theorem isPrefix (h : Grows P es fs) : es <+: fs := by
  obtain ⟨new, rfl, -⟩ := h
  exact List.prefix_append es new

/-- Entries of another kind are as many as before. -/
theorem countP_eq (h : Grows P es fs) {q : ε → Bool} (hq : ∀ e, P e → q e = false) :
    fs.countP q = es.countP q := by
  obtain ⟨new, rfl, hnew⟩ := h
  have hnone : new.countP q = 0 :=
    List.countP_eq_zero.mpr fun e he => by simp [hq e (hnew e he)]
  rw [List.countP_append, hnone, Nat.add_zero]

theorem mono {Q : ε → Prop} (h : Grows P es fs) (hPQ : ∀ e, P e → Q e) : Grows Q es fs := by
  obtain ⟨new, rfl, hnew⟩ := h
  exact ⟨new, rfl, fun e he => hPQ e (hnew e he)⟩

end Grows

end Journal

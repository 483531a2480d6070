import ControlPlane.Lib.Runs
import Mathlib.Logic.Relation

/-! # Transactions, statement by statement

A transaction is a program of statements over committed data. A statement waits
until some locks are free, sees what is committed at that moment and which locks
the others hold, takes locks and goes on; a row it cannot see changed by others
is one it holds the lock of. What a transaction writes takes effect with its
commit, where its locks are released; it may be rolled back before.

The same program has two meanings: what it does alone (`Tx.alone`), and what any
number of them do interleaved (`act`), which agree when nobody else is there
(`alone_runs`). A `Discipline` says what a transaction may commit, given the
locks it holds; a program that obeys it whatever the others commit in between
(`Discipline.Ok`) obeys it in every interleaving (`Discipline.sound_run`). -/

namespace Transactions
open Runs Relation

variable {σ L ε α π ω : Type}

inductive Tx (σ L ε α π : Type) where
  /-- the transaction ends without an effect -/
  | fail (e : ε)
  /-- a statement; `point` says where in the program it stands -/
  | stmt (point : π) (waits : List L) (takes : σ → (L → Bool) → List L)
      (next : σ → (L → Bool) → Tx σ L ε α π)
  /-- the writes of the transaction, and its commit -/
  | commit (point : π) (write : σ → Except ε (σ × α))

namespace Tx

/-- A statement that only reads. -/
def read (point : π) (next : σ → Tx σ L ε α π) : Tx σ L ε α π :=
  .stmt point [] (fun _ _ => []) fun s _ => next s

/-- The transaction with no other around. -/
def alone : Tx σ L ε α π → σ → Except ε (σ × α)
  | fail e, _ => .error e
  | stmt _ _ _ next, s => (next s fun _ => false).alone s
  | commit _ write, s => write s

@[simp] theorem alone_fail (e : ε) (s : σ) : (fail e : Tx σ L ε α π).alone s = .error e := rfl

@[simp] theorem alone_stmt (point : π) (waits : List L) (takes : σ → (L → Bool) → List L)
    (next : σ → (L → Bool) → Tx σ L ε α π) (s : σ) :
    (stmt point waits takes next).alone s = (next s fun _ => false).alone s := rfl

@[simp] theorem alone_read (point : π) (next : σ → Tx σ L ε α π) (s : σ) :
    (read point next).alone s = (next s).alone s := rfl

@[simp] theorem alone_commit (point : π) (write : σ → Except ε (σ × α)) (s : σ) :
    (commit point write : Tx σ L ε α π).alone s = write s := rfl

def point? : Tx σ L ε α π → Option π
  | fail _ => none
  | stmt point .. => some point
  | commit point _ => some point

/-- Whatever its statements see, what the transaction commits is related to the
data before by `R`. -/
def Writes (R : σ → σ → Prop) : Tx σ L ε α π → Prop
  | fail _ => True
  | stmt _ _ _ next => ∀ s other, (next s other).Writes R
  | commit _ write => ∀ s s' a, write s = .ok (s', a) → R s s'

theorem Writes.mono {R R' : σ → σ → Prop} (hR : ∀ {s s'}, R s s' → R' s s') :
    ∀ {p : Tx σ L ε α π}, p.Writes R → p.Writes R'
  | fail _, _ => trivial
  | stmt _ _ _ _, h => fun s other => (h s other).mono hR
  | commit _ _, h => fun s s' a hw => hR (h s s' a hw)

theorem Writes.alone {R : σ → σ → Prop} {s s' : σ} {a : α} :
    ∀ {p : Tx σ L ε α π}, p.Writes R → p.alone s = .ok (s', a) → R s s'
  | fail _, _, ha => by cases ha
  | stmt _ _ _ _, h, ha => (h s fun _ => false).alone ha
  | commit _ _, h, ha => h s s' a ha

end Tx

inductive Status (σ L ε α π : Type) where
  | running (p : Tx σ L ε α π)
  | done (r : Except ε α)
  | aborted

def Status.ended : Status σ L ε α π → Bool
  | running _ => false
  | _ => true

/-- A transaction that was begun, with the operation it performs. -/
structure Session (σ L ε α π ω : Type) where
  op : ω
  status : Status σ L ε α π

/-- The committed data, the transactions and who holds which lock. -/
structure Machine (σ L ε α π ω : Type) where
  db : σ
  txs : List (Session σ L ε α π ω) := []
  locks : L → Option Nat := fun _ => none

inductive Action (ω : Type) where
  | begin (o : ω)
  | next (k : Nat)
  | abort (k : Nat)

/-- The operations that are begun. -/
def begun (acts : List (Action ω)) : List ω :=
  acts.filterMap fun a => match a with
    | .begin o => some o
    | _ => none

theorem mem_begun {acts : List (Action ω)} {o : ω} : o ∈ begun acts ↔ .begin o ∈ acts := by
  unfold begun
  rw [List.mem_filterMap]
  constructor
  · intro h
    obtain ⟨a, ha, he⟩ := h
    split at he
    · rwa [← Option.some.inj he]
    · cases he
  · exact fun h => ⟨_, h, rfl⟩

namespace Machine

def heldByOther (m : Machine σ L ε α π ω) (k : Nat) (l : L) : Bool := (m.locks l).any fun j => j != k

/-- The locks of one transaction. -/
def held (m : Machine σ L ε α π ω) (k : Nat) (l : L) : Prop := m.locks l = some k

/-- The end of a transaction: its locks are released. -/
def finish (m : Machine σ L ε α π ω) (k : Nat) (x : Session σ L ε α π ω) (db : σ)
    (status : Status σ L ε α π) : Machine σ L ε α π ω where
  db := db
  txs := m.txs.set k { x with status := status }
  locks l := (m.locks l).filter fun j => j != k

theorem heldByOther_eq_false {m : Machine σ L ε α π ω} {k : Nat} {l : L} :
    m.heldByOther k l = false ↔ m.locks l = none ∨ m.held k l := by
  unfold heldByOther held
  cases m.locks l with
  | none => simp
  | some j => simp

end Machine

variable [DecidableEq L]

/-- The next step of a transaction. -/
def advance (m : Machine σ L ε α π ω) (k : Nat) (x : Session σ L ε α π ω) :
    Option (Machine σ L ε α π ω) :=
  match x.status with
  | .running (.fail e) => some (m.finish k x m.db (.done (.error e)))
  | .running (.stmt _ waits takes next) =>
    let other := m.heldByOther k
    let taken := takes m.db other
    if waits.any other || taken.any other then none
    else some
      { m with
        txs := m.txs.set k { x with status := .running (next m.db other) }
        locks := fun l => if l ∈ taken then some k else m.locks l }
  | .running (.commit _ write) =>
    match write m.db with
    | .ok (db, a) => some (m.finish k x db (.done (.ok a)))
    | .error e => some (m.finish k x m.db (.done (.error e)))
  | _ => none

def act (code : ω → Tx σ L ε α π) (m : Machine σ L ε α π ω) : Action ω → Option (Machine σ L ε α π ω)
  | .begin o => some { m with txs := m.txs ++ [⟨o, .running (code o)⟩] }
  | .next k => (m.txs[k]?).bind (advance m k)
  | .abort k => (m.txs[k]?).bind fun x =>
    match x.status with
    | .running _ => some (m.finish k x m.db .aborted)
    | _ => none

theorem act_next {code : ω → Tx σ L ε α π} {m : Machine σ L ε α π ω} {k : Nat}
    {x : Session σ L ε α π ω} (hx : m.txs[k]? = some x) : act code m (.next k) = advance m k x := by
  show (m.txs[k]?).bind (advance m k) = _
  rw [hx, Option.bind_some]

omit [DecidableEq L] in
theorem held_finish (m : Machine σ L ε α π ω) (k : Nat) (x : Session σ L ε α π ω) (db : σ)
    (status : Status σ L ε α π) (j : Nat) (hj : j ≠ k) :
    (m.finish k x db status).held j = m.held j := by
  funext l
  show ((m.locks l).filter (fun i => i != k) = some j) = (m.locks l = some j)
  cases m.locks l with
  | none => rfl
  | some i =>
    by_cases hi : i = k
    · subst hi
      simp [Option.filter, Ne.symm hj]
    · simp [Option.filter, hi]

/-- A statement that is executed leads to what follows it. -/
theorem advance_stmt {m m' : Machine σ L ε α π ω} {k : Nat} {x : Session σ L ε α π ω} {point : π}
    {waits : List L} {takes : σ → (L → Bool) → List L} {next : σ → (L → Bool) → Tx σ L ε α π}
    (hst : x.status = .running (.stmt point waits takes next)) (h : advance m k x = some m') :
    m'.txs = m.txs.set k { x with status := .running (next m.db (m.heldByOther k)) } := by
  unfold advance at h
  rw [hst] at h
  dsimp only at h
  split at h
  · cases h
  · cases h
    rfl

/-- One transaction moves on: it ends, or executes a statement and takes its
locks, or commits, or is rolled back. -/
inductive Moved (m m' : Machine σ L ε α π ω) (k : Nat) : Tx σ L ε α π → Status σ L ε α π → Prop
  | fail {e : ε} (hdb : m'.db = m.db) : Moved m m' k (.fail e) (.done (.error e))
  | stmt {point : π} {waits : List L} {takes : σ → (L → Bool) → List L}
      {next : σ → (L → Bool) → Tx σ L ε α π} (hdb : m'.db = m.db)
      (hwaits : ∀ l ∈ waits, m.heldByOther k l = false)
      (htakes : ∀ l ∈ takes m.db (m.heldByOther k), m.heldByOther k l = false)
      (hheld : ∀ l, m'.held k l ↔ m.held k l ∨ l ∈ takes m.db (m.heldByOther k)) :
      Moved m m' k (.stmt point waits takes next) (.running (next m.db (m.heldByOther k)))
  | commit {point : π} {write : σ → Except ε (σ × α)} {a : α} (hw : write m.db = .ok (m'.db, a)) :
      Moved m m' k (.commit point write) (.done (.ok a))
  | raise {point : π} {write : σ → Except ε (σ × α)} {e : ε} (hdb : m'.db = m.db)
      (hw : write m.db = .error e) : Moved m m' k (.commit point write) (.done (.error e))
  | abort {p : Tx σ L ε α π} (hdb : m'.db = m.db) : Moved m m' k p .aborted

theorem advance_moved {m m' : Machine σ L ε α π ω} {k : Nat} {x : Session σ L ε α π ω}
    (h : advance m k x = some m') :
    ∃ p status, x.status = .running p ∧ m'.txs = m.txs.set k { x with status := status } ∧
      Moved m m' k p status ∧ ∀ j, j ≠ k → m'.held j = m.held j := by
  unfold advance at h
  split at h
  · rename_i e hst
    cases h
    exact ⟨_, _, hst, rfl, .fail rfl, held_finish m k x m.db _⟩
  · rename_i point waits takes next hst
    dsimp only at h
    split at h
    · cases h
    rename_i hguard
    simp only [Bool.or_eq_true, not_or, Bool.not_eq_true, List.any_eq_false] at hguard
    cases h
    refine ⟨_, _, hst, rfl, .stmt rfl hguard.1 hguard.2 fun l => ?_, fun j hj => funext fun l => ?_⟩
    · show ((if l ∈ takes m.db (m.heldByOther k) then some k else m.locks l) = some k) ↔ _
      by_cases hl : l ∈ takes m.db (m.heldByOther k) <;> simp [hl, Machine.held]
    · show ((if l ∈ takes m.db (m.heldByOther k) then some k else m.locks l) = some j) =
        (m.locks l = some j)
      split
      · rename_i hl
        -- what is taken was free, or held by the same transaction
        refine propext ⟨fun he => absurd (Option.some.inj he).symm hj, fun he => ?_⟩
        rcases Machine.heldByOther_eq_false.mp (hguard.2 l hl) with hnone | hheld
        · rw [hnone] at he
          cases he
        · exact absurd (Option.some.inj ((show m.locks l = some k from hheld).symm.trans he)).symm hj
      · rfl
  · rename_i point write hst
    split at h
    · rename_i db a hw
      cases h
      exact ⟨_, _, hst, rfl, .commit hw, held_finish m k x db _⟩
    · rename_i e hw
      cases h
      exact ⟨_, _, hst, rfl, .raise rfl hw, held_finish m k x m.db _⟩
  · cases h

/-- **What a step does to one transaction**: nothing, unless it begins it, moves
it on or rolls it back. -/
theorem act_session {code : ω → Tx σ L ε α π} {m m' : Machine σ L ε α π ω} {a : Action ω}
    (h : act code m a = some m') {k : Nat} {x' : Session σ L ε α π ω}
    (hx' : m'.txs[k]? = some x') :
    (a ≠ .next k ∧ m.txs[k]? = some x' ∧ m'.held k = m.held k) ∨
      (m.txs[k]? = none ∧ x'.status = .running (code x'.op) ∧ m'.held k = m.held k) ∨
      ∃ x p, m.txs[k]? = some x ∧ x'.op = x.op ∧ x.status = .running p ∧
        Moved m m' k p x'.status ∧ (a = .next k ∨ x'.status = .aborted) := by
  -- the entry of one transaction is replaced
  have hset : ∀ {j : Nat} {x y : Session σ L ε α π ω}, m.txs[j]? = some x → m'.txs = m.txs.set j y →
      (k = j ∧ x' = y) ∨ (k ≠ j ∧ m.txs[k]? = some x') := by
    intro j x y hx htxs
    rw [htxs, List.getElem?_set] at hx'
    split at hx'
    · rename_i hjk
      split at hx'
      · exact Or.inl ⟨hjk.symm, (Option.some.inj hx').symm⟩
      · cases hx'
    · rename_i hjk
      exact Or.inr ⟨Ne.symm hjk, hx'⟩
  cases a with
  | begin o =>
    cases h
    dsimp only at hx'
    rw [List.getElem?_append] at hx'
    split at hx'
    · refine Or.inl ⟨?_, hx', rfl⟩
      intro he
      cases he
    · rename_i hk
      obtain ⟨hlt, he⟩ := List.getElem?_eq_some_iff.mp hx'
      rw [List.getElem_singleton] at he
      subst he
      exact Or.inr (Or.inl ⟨List.getElem?_eq_none (Nat.le_of_not_lt hk), rfl, rfl⟩)
  | next j =>
    obtain ⟨x, hx, hadv⟩ := Option.bind_eq_some_iff.mp h
    obtain ⟨p, status, hst, htxs, hmoved, hothers⟩ := advance_moved hadv
    rcases hset hx htxs with ⟨rfl, rfl⟩ | ⟨hk, hold⟩
    · exact Or.inr (Or.inr ⟨x, p, hx, rfl, hst, hmoved, Or.inl rfl⟩)
    · refine Or.inl ⟨?_, hold, hothers k hk⟩
      intro he
      cases he
      exact hk rfl
  | abort j =>
    obtain ⟨x, hx, habort⟩ := Option.bind_eq_some_iff.mp h
    split at habort
    · rename_i p hst
      cases habort
      rcases hset hx rfl with ⟨rfl, rfl⟩ | ⟨hk, hold⟩
      · exact Or.inr (Or.inr ⟨x, p, hx, rfl, hst, .abort rfl, Or.inr rfl⟩)
      · refine Or.inl ⟨?_, hold, held_finish m j x m.db _ k hk⟩
        intro he
        cases he
    · cases habort

/-- A transaction that was begun stays on the list. -/
theorem act_begun {code : ω → Tx σ L ε α π} {m m' : Machine σ L ε α π ω} {a : Action ω}
    (h : act code m a = some m') {k : Nat} (hk : k < m.txs.length) : k < m'.txs.length := by
  cases a with
  | begin o =>
    cases h
    rw [List.length_append]
    omega
  | next j =>
    obtain ⟨x, -, hadv⟩ := Option.bind_eq_some_iff.mp h
    obtain ⟨p, status, -, htxs, -, -⟩ := advance_moved hadv
    rwa [htxs, List.length_set]
  | abort j =>
    obtain ⟨x, -, habort⟩ := Option.bind_eq_some_iff.mp h
    split at habort
    · cases habort
      unfold Machine.finish
      rwa [List.length_set]
    · cases habort

/-- A transaction that was not on the list has just been begun. -/
theorem act_new {code : ω → Tx σ L ε α π} {m m' : Machine σ L ε α π ω} {a : Action ω}
    (h : act code m a = some m') {k : Nat} {x' : Session σ L ε α π ω} (hnew : m.txs[k]? = none)
    (hx' : m'.txs[k]? = some x') : a = .begin x'.op := by
  have hk := (List.getElem?_eq_some_iff.mp hx').1
  have hlen := List.getElem?_eq_none_iff.mp hnew
  cases a with
  | begin o =>
    cases h
    dsimp only at hx'
    rw [List.getElem?_append_right hlen] at hx'
    obtain ⟨hlt, he⟩ := List.getElem?_eq_some_iff.mp hx'
    rw [List.getElem_singleton] at he
    rw [← he]
  | next j =>
    obtain ⟨x, -, hadv⟩ := Option.bind_eq_some_iff.mp h
    obtain ⟨p, status, -, htxs, -⟩ := advance_moved hadv
    rw [htxs, List.length_set] at hk
    exact absurd hk (Nat.not_lt.mpr hlen)
  | abort j =>
    obtain ⟨x, -, habort⟩ := Option.bind_eq_some_iff.mp h
    split at habort
    · cases habort
      unfold Machine.finish at hk
      rw [List.length_set] at hk
      exact absurd hk (Nat.not_lt.mpr hlen)
    · cases habort

/-! ## What an interleaving commits -/

/-- What the open transactions have still to commit is related by `R`, which
looks at their operation. -/
def Confined (R : ω → σ → σ → Prop) (m : Machine σ L ε α π ω) : Prop :=
  ∀ (k : Nat) (x : Session σ L ε α π ω) p, m.txs[k]? = some x → x.status = .running p →
    p.Writes (R x.op)

/-- The next step of the transaction is its commit. -/
def Machine.Committing (m : Machine σ L ε α π ω) (k : Nat) (o : ω) : Prop :=
  ∃ (x : Session σ L ε α π ω) (point : π) (write : σ → Except ε (σ × α)),
    m.txs[k]? = some x ∧ x.op = o ∧ x.status = .running (.commit point write)

omit [DecidableEq L] in
theorem Confined.start (R : ω → σ → σ → Prop) (s : σ) :
    Confined R ({ db := s } : Machine σ L ε α π ω) := by
  intro k x p hx
  simp at hx

theorem Confined.step {R : ω → σ → σ → Prop} {code : ω → Tx σ L ε α π}
    {m m' : Machine σ L ε α π ω} {a : Action ω} (hcode : ∀ o, (code o).Writes (R o))
    (hm : Confined R m) (h : act code m a = some m') : Confined R m' := by
  intro k x' p' hx' hp'
  rcases act_session h hx' with ⟨-, hold, -⟩ | ⟨-, hst, -⟩ | ⟨x, p, hx, hop, hst, hmoved, -⟩
  · exact hm k x' p' hold hp'
  · obtain rfl := Status.running.inj (hst.symm.trans hp')
    exact hcode x'.op
  · have hp := hm k x p hx hst
    rw [hop]
    rw [hp'] at hmoved
    cases hmoved with
    | stmt => exact hp _ _

/-- A step changes the committed data by the commit of one operation, or not at all. -/
theorem Confined.commits {R : ω → σ → σ → Prop} {code : ω → Tx σ L ε α π}
    {m m' : Machine σ L ε α π ω} {a : Action ω} (hm : Confined R m) (h : act code m a = some m') :
    m'.db = m.db ∨ ∃ k o, a = .next k ∧ m.Committing k o ∧ R o m.db m'.db := by
  cases a with
  | begin o =>
    cases h
    exact Or.inl rfl
  | next k =>
    obtain ⟨x, hx, hadv⟩ := Option.bind_eq_some_iff.mp h
    obtain ⟨p, status, hst, -, hmoved, -⟩ := advance_moved hadv
    have hp := hm k x p hx hst
    cases hmoved with
    | fail hdb => exact Or.inl hdb
    | stmt hdb => exact Or.inl hdb
    | commit hw => exact Or.inr ⟨k, x.op, rfl, ⟨x, _, _, hx, rfl, hst⟩, hp _ _ _ hw⟩
    | raise hdb => exact Or.inl hdb
    | abort hdb => exact Or.inl hdb
  | abort k =>
    obtain ⟨x, -, habort⟩ := Option.bind_eq_some_iff.mp h
    split at habort
    · cases habort
      exact Or.inl rfl
    · cases habort

/-! ## Disciplines -/

/-- What holds of the committed data, what a transaction that holds these locks
may commit, and what is promised of an operation that ended, now and ever after. -/
structure Discipline (σ L ε α ω : Type) where
  inv : σ → Prop
  guar : (L → Prop) → σ → σ → Prop
  post : ω → Except ε α → σ → Prop
  stable : ∀ {o r H s s'}, post o r s → guar H s s' → inv s' → post o r s'

namespace Discipline

variable (D : Discipline σ L ε α ω)

/-- A commit of a transaction that holds none of these locks. -/
def Other (H : L → Prop) (s s' : σ) : Prop :=
  ∃ H' : L → Prop, (∀ l, H l → ¬ H' l) ∧ D.guar H' s s' ∧ D.inv s'

/-- What others may commit under a transaction that holds these locks. -/
def Rely (H : L → Prop) : σ → σ → Prop := ReflTransGen (D.Other H)

omit [DecidableEq L] in
/-- What every commit of the others keeps is kept for as long as one waits. -/
theorem rely_keeps {H : L → Prop} {P : σ → Prop} (hP : ∀ {s s'}, P s → D.Other H s s' → P s')
    {s s' : σ} (h : D.Rely H s s') (hs : P s) : P s' := by
  induction h with
  | refl => exact hs
  | tail _ hstep ih => exact hP ih hstep

/-- Whatever the others commit before each of its statements, the program obeys
the discipline. -/
def Ok (o : ω) : Tx σ L ε α π → (L → Prop) → σ → Prop
  | .fail e, H, s => ∀ s', D.Rely H s s' → D.inv s' → D.post o (.error e) s'
  | .stmt _ waits takes next, H, s => ∀ s' other, D.Rely H s s' → D.inv s' →
      (∀ l, H l → other l = false) → (∀ l ∈ waits, other l = false) →
      (∀ l ∈ takes s' other, other l = false) →
      Ok o (next s' other) (fun l => H l ∨ l ∈ takes s' other) s'
  | .commit _ write, H, s => ∀ s', D.Rely H s s' → D.inv s' →
      (∀ s'' a, write s' = .ok (s'', a) → D.inv s'' ∧ D.guar H s' s'' ∧ D.post o (.ok a) s'') ∧
      ∀ e, write s' = .error e → D.post o (.error e) s'

variable {D}

omit [DecidableEq L] in
theorem Ok.later {o : ω} {p : Tx σ L ε α π} {H : L → Prop} {s s' : σ} (h : D.Ok o p H s)
    (hr : D.Rely H s s') : D.Ok o p H s' := by
  cases p with
  | fail e => exact fun s'' hs => h s'' (hr.trans hs)
  | stmt point waits takes next => exact fun s'' other hs => h s'' other (hr.trans hs)
  | commit point write => exact fun s'' hs => h s'' (hr.trans hs)

omit [DecidableEq L] in
/-- A program whose commits keep the discipline whatever locks it holds, and of
which nothing is promised, need not look at what the others do. -/
theorem Ok.of_writes {R : σ → σ → Prop} {o : ω} (hpost : ∀ r s, D.post o r s)
    (hR : ∀ {s s'} (H : L → Prop), D.inv s → R s s' → D.inv s' ∧ D.guar H s s') :
    ∀ {p : Tx σ L ε α π} {H : L → Prop} {s : σ}, p.Writes R → D.Ok o p H s
  | .fail e, _, _, _ => fun s' _ _ => hpost _ s'
  | .stmt _ _ _ _, _, _, h => fun s' other _ _ _ _ _ => Ok.of_writes hpost hR (h s' other)
  | .commit _ _, H, _, h => by
    intro s' _ hinv
    refine ⟨fun s'' a hw => ?_, fun e _ => hpost _ s'⟩
    obtain ⟨hinv', hguar⟩ := hR H hinv (h s' s'' a hw)
    exact ⟨hinv', hguar, hpost _ s''⟩

/-- The machine's data, its open transactions and its finished ones are as the
discipline says; only begun transactions hold locks. -/
structure Sound (D : Discipline σ L ε α ω) (m : Machine σ L ε α π ω) : Prop where
  inv : D.inv m.db
  owned : ∀ l k, m.locks l = some k → k < m.txs.length
  running : ∀ (k : Nat) (x : Session σ L ε α π ω) p, m.txs[k]? = some x → x.status = .running p →
    D.Ok x.op p (m.held k) m.db
  done : ∀ (k : Nat) (x : Session σ L ε α π ω) r, m.txs[k]? = some x → x.status = .done r →
    D.post x.op r m.db

/-- What a step commits, it may. -/
def Commits (D : Discipline σ L ε α ω) (m : Machine σ L ε α π ω) (a : Action ω)
    (m' : Machine σ L ε α π ω) : Prop :=
  m'.db = m.db ∨ ∃ k, a = .next k ∧ D.guar (m.held k) m.db m'.db

omit [DecidableEq L] in
theorem Sound.start {s : σ} (h : D.inv s) : Sound D ({ db := s } : Machine σ L ε α π ω) where
  inv := h
  owned l k hl := by cases hl
  running k x p hx := by simp at hx
  done k x r hx := by simp at hx

omit [DecidableEq L] in
/-- One transaction moves on: it takes locks nobody else holds and commits what
it may, if anything. -/
theorem Sound.move {m m' : Machine σ L ε α π ω} {k : Nat} {x : Session σ L ε α π ω}
    {status : Status σ L ε α π} (h : Sound D m) (hx : m.txs[k]? = some x)
    (htxs : m'.txs = m.txs.set k { x with status := status }) (hinv : D.inv m'.db)
    (hguar : m'.db = m.db ∨ D.guar (m.held k) m.db m'.db)
    (hothers : ∀ j, j ≠ k → m'.held j = m.held j)
    (hrunning : ∀ p, status = .running p → D.Ok x.op p (m'.held k) m'.db)
    (hdone : ∀ r, status = .done r → D.post x.op r m'.db) : Sound D m' := by
  have hk : k < m.txs.length := (List.getElem?_eq_some_iff.mp hx).1
  have hrely : ∀ j, j ≠ k → D.Rely (m.held j) m.db m'.db := by
    intro j hj
    rcases hguar with he | hg
    · rw [he]
      exact .refl
    · refine .single ⟨m.held k, fun l hl hl' => hj ?_, hg, hinv⟩
      exact Option.some.inj ((show m.locks l = some j from hl).symm.trans hl')
  have hcase : ∀ j y, m'.txs[j]? = some y →
      (j = k ∧ y = { x with status := status }) ∨ (j ≠ k ∧ m.txs[j]? = some y) := by
    intro j y hy
    rw [htxs, List.getElem?_set] at hy
    split at hy
    · rename_i hkj
      exact Or.inl ⟨hkj.symm, (Option.some.inj hy).symm⟩
    · rename_i hkj
      exact Or.inr ⟨Ne.symm hkj, hy⟩
  refine ⟨hinv, fun l j hl => ?_, fun j y p hy hp => ?_, fun j y r hy hr => ?_⟩
  · rw [htxs, List.length_set]
    by_cases hj : j = k
    · rw [hj]
      exact hk
    · exact h.owned l j ((congrFun (hothers j hj) l).mp hl)
  · rcases hcase j y hy with ⟨rfl, rfl⟩ | ⟨hj, hold⟩
    · exact hrunning p hp
    · rw [hothers j hj]
      exact (h.running j y p hold hp).later (hrely j hj)
  · rcases hcase j y hy with ⟨rfl, rfl⟩ | ⟨hj, hold⟩
    · exact hdone r hr
    · have hpost := h.done j y r hold hr
      rcases hguar with he | hg
      · rw [he]
        exact hpost
      · exact D.stable hpost hg hinv

/-- A step of one transaction. -/
theorem advance_sound {m m' : Machine σ L ε α π ω} {k : Nat} {x : Session σ L ε α π ω}
    (h : Sound D m) (hx : m.txs[k]? = some x) (hm : advance m k x = some m') :
    Sound D m' ∧ D.Commits m (.next k) m' := by
  obtain ⟨p, status, hst, htxs, hmoved, hothers⟩ := advance_moved hm
  have hok := h.running k x p hx hst
  cases hmoved with
  | fail hdb =>
    refine ⟨h.move hx htxs (hdb ▸ h.inv) (Or.inl hdb) hothers ?_ ?_, Or.inl hdb⟩
    · intro p hp
      cases hp
    · intro r hr
      cases hr
      rw [hdb]
      exact hok m.db .refl h.inv
  | stmt hdb hwaits htakes hheld =>
    refine ⟨h.move hx htxs (hdb ▸ h.inv) (Or.inl hdb) hothers ?_ ?_, Or.inl hdb⟩
    · intro p hp
      cases hp
      have hown : ∀ l, m.held k l → m.heldByOther k l = false := fun l hl =>
        Machine.heldByOther_eq_false.mpr (Or.inr hl)
      have hlater := hok m.db (m.heldByOther k) .refl h.inv hown hwaits htakes
      rw [hdb, show m'.held k = _ from funext fun l => propext (hheld l)]
      exact hlater
    · intro r hr
      cases hr
  | commit hw =>
    obtain ⟨hinv, hguar, hpost⟩ := (hok m.db .refl h.inv).1 _ _ hw
    refine ⟨h.move hx htxs hinv (Or.inr hguar) hothers ?_ ?_, Or.inr ⟨k, rfl, hguar⟩⟩
    · intro p hp
      cases hp
    · intro r hr
      cases hr
      exact hpost
  | raise hdb hw =>
    refine ⟨h.move hx htxs (hdb ▸ h.inv) (Or.inl hdb) hothers ?_ ?_, Or.inl hdb⟩
    · intro p hp
      cases hp
    · intro r hr
      cases hr
      rw [hdb]
      exact (hok m.db .refl h.inv).2 _ hw
  | abort hdb =>
    refine ⟨h.move hx htxs (hdb ▸ h.inv) (Or.inl hdb) hothers ?_ ?_, Or.inl hdb⟩
    · intro p hp
      cases hp
    · intro r hr
      cases hr

/-- **One step of the interleaving**, when the programs of the operations that
are begun obey the discipline. -/
theorem act_sound {code : ω → Tx σ L ε α π} {m m' : Machine σ L ε α π ω} {a : Action ω}
    (h : Sound D m) (hm : act code m a = some m')
    (hcode : ∀ o, a = .begin o → ∀ s, D.inv s → D.Ok o (code o) (fun _ => False) s) :
    Sound D m' ∧ D.Commits m a m' := by
  cases a with
  | begin o =>
    cases hm
    have hnone : m.held m.txs.length = fun _ => False := by
      funext l
      exact propext ⟨fun hl => absurd (h.owned l _ hl) (Nat.lt_irrefl _), False.elim⟩
    have hcase : ∀ k x, (m.txs ++ [⟨o, .running (code o)⟩])[k]? = some x →
        m.txs[k]? = some x ∨ (k = m.txs.length ∧ x = ⟨o, .running (code o)⟩) := by
      intro k x hx
      rw [List.getElem?_append] at hx
      split at hx
      · exact Or.inl hx
      · rename_i hk
        obtain ⟨hlt, he⟩ := List.getElem?_eq_some_iff.mp hx
        rw [List.length_singleton] at hlt
        refine Or.inr ⟨by omega, ?_⟩
        simpa using he.symm
    refine ⟨⟨h.inv, fun l k hl => ?_, fun k x p hx hp => ?_, fun k x r hx hr => ?_⟩, Or.inl rfl⟩
    · rw [List.length_append]
      exact Nat.lt_of_lt_of_le (h.owned l k hl) (Nat.le_add_right _ _)
    · rcases hcase k x hx with hold | ⟨rfl, rfl⟩
      · exact h.running k x p hold hp
      · cases hp
        show D.Ok o (code o) (m.held m.txs.length) m.db
        rw [hnone]
        exact hcode o rfl m.db h.inv
    · rcases hcase k x hx with hold | ⟨rfl, rfl⟩
      · exact h.done k x r hold hr
      · cases hr
  | next k =>
    obtain ⟨x, hx, hm⟩ := Option.bind_eq_some_iff.mp hm
    exact advance_sound h hx hm
  | abort k =>
    obtain ⟨x, hx, hm⟩ := Option.bind_eq_some_iff.mp hm
    split at hm
    · cases hm
      refine ⟨h.move hx rfl h.inv (Or.inl rfl) (held_finish m k x m.db _) ?_ ?_, Or.inl rfl⟩
      · intro p hp
        cases hp
      · intro r hr
        cases hr
    · cases hm

/-- **Every interleaving obeys the discipline.** -/
theorem sound_run {code : ω → Tx σ L ε α π} {m m' : Machine σ L ε α π ω} {acts : List (Action ω)}
    (h : Run (fun m a m' => act code m a = some m') m acts m') (hm : Sound D m)
    (hcode : ∀ o, .begin o ∈ acts → ∀ s, D.inv s → D.Ok o (code o) (fun _ => False) s) :
    Sound D m' ∧ Run (fun m a m' => act code m a = some m' ∧ Sound D m ∧ Sound D m' ∧
      D.Commits m a m') m acts m' := by
  induction h with
  | nil m => exact ⟨hm, .nil m⟩
  | cons hstep _ ih =>
    obtain ⟨hsound, hcommit⟩ := act_sound hm hstep fun o ho => hcode o (by simp [ho])
    obtain ⟨hlast, hrun⟩ := ih hsound fun o ho => hcode o (by simp [ho])
    exact ⟨hlast, .cons ⟨hstep, hm, hsound, hcommit⟩ hrun⟩

end Discipline

/-! ## A transaction alone -/

/-- How the only transaction of a machine ended. -/
def endAlone (s : σ) (o : ω) : Except ε (σ × α) → σ × List (Session σ L ε α π ω)
  | .ok (s', a) => (s', [⟨o, .done (.ok a)⟩])
  | .error e => (s, [⟨o, .done (.error e)⟩])

/-- **With nobody else around**, the interleaving has a run in which a
transaction does what its program does alone. -/
theorem alone_runs (code : ω → Tx σ L ε α π) (o : ω) : ∀ (p : Tx σ L ε α π)
    (m : Machine σ L ε α π ω), m.txs = [⟨o, .running p⟩] → (∀ l, m.heldByOther 0 l = false) →
    ∃ acts m', exec (act code) m acts = some m' ∧ (m'.db, m'.txs) = endAlone m.db o (p.alone m.db)
  | .fail e, m, htxs, _ => by
    have hx : m.txs[0]? = some ⟨o, .running (.fail e)⟩ := by rw [htxs]; rfl
    have hstep : act code m (.next 0) =
        some (m.finish 0 ⟨o, .running (.fail e)⟩ m.db (.done (.error e))) := act_next hx
    refine ⟨[.next 0], _, exec_cons hstep [], ?_⟩
    unfold Machine.finish
    rw [htxs]
    rfl
  | .stmt point waits takes next, m, htxs, hfree => by
    have hx : m.txs[0]? = some ⟨o, .running (.stmt point waits takes next)⟩ := by rw [htxs]; rfl
    have hother : m.heldByOther 0 = fun _ => false := funext hfree
    let m₁ : Machine σ L ε α π ω :=
      { m with
        txs := [⟨o, .running (next m.db fun _ => false)⟩]
        locks := fun l => if l ∈ takes m.db (fun _ => false) then some 0 else m.locks l }
    have hstep : act code m (.next 0) = some m₁ := by
      rw [act_next hx]
      unfold advance
      dsimp only
      rw [hother, htxs]
      simp [m₁]
    have hfree₁ : ∀ l, m₁.heldByOther 0 l = false := by
      intro l
      rw [Machine.heldByOther_eq_false]
      by_cases hl : l ∈ takes m.db fun _ => false
      · exact Or.inr (if_pos hl)
      · rcases Machine.heldByOther_eq_false.mp (hfree l) with hn | hh
        · exact Or.inl ((if_neg hl).trans hn)
        · exact Or.inr ((if_neg hl).trans hh)
    obtain ⟨acts, m', hacts, hend⟩ := alone_runs code o (next m.db fun _ => false) m₁ rfl hfree₁
    exact ⟨.next 0 :: acts, m', (exec_cons hstep acts).trans hacts, hend⟩
  | .commit point write, m, htxs, _ => by
    have hx : m.txs[0]? = some ⟨o, .running (.commit point write)⟩ := by rw [htxs]; rfl
    cases hw : write m.db with
    | ok r =>
      have hstep : act code m (.next 0) =
          some (m.finish 0 ⟨o, .running (.commit point write)⟩ r.1 (.done (.ok r.2))) := by
        rw [act_next hx]
        unfold advance
        dsimp only
        rw [hw]
      refine ⟨[.next 0], _, exec_cons hstep [], ?_⟩
      unfold Machine.finish Tx.alone
      rw [htxs, hw]
      rfl
    | error e =>
      have hstep : act code m (.next 0) =
          some (m.finish 0 ⟨o, .running (.commit point write)⟩ m.db (.done (.error e))) := by
        rw [act_next hx]
        unfold advance
        dsimp only
        rw [hw]
      refine ⟨[.next 0], _, exec_cons hstep [], ?_⟩
      unfold Machine.finish Tx.alone
      rw [htxs, hw]
      rfl

end Transactions

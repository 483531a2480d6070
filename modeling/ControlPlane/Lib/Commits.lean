import ControlPlane.Lib.Transactions

/-! # What commits answer

A transaction answers with its commit. `Discipline.Answers` relates what a program
commits and answers to the data before, whatever the others commit before each of its
statements; if the program of every operation keeps to such a relation, so does every
commit of every interleaving (`Discipline.answers_run`). -/

namespace Transactions
open Runs

variable {σ L ε α π ω : Type}

namespace Tx

/-- Whatever its statements see, what the transaction commits and answers is related to
the data before by `T`. -/
def Answers (T : σ → σ → α → Prop) : Tx σ L ε α π → Prop
  | fail _ => True
  | stmt _ _ _ next => ∀ s other, (next s other).Answers T
  | commit _ write => ∀ s s' a, write s = .ok (s', a) → T s s' a

theorem Writes.answers {R : σ → σ → Prop} {T : σ → σ → α → Prop} (hT : ∀ {s s'} a, R s s' → T s s' a) :
    ∀ {p : Tx σ L ε α π}, p.Writes R → p.Answers T
  | fail _, _ => trivial
  | stmt _ _ _ _, h => fun s other => (h s other).answers hT
  | commit _ _, h => fun s s' a hw => hT a (h s s' a hw)

end Tx

/-- The operation that a step commits, with its answer. -/
def Machine.commitOf (m : Machine σ L ε α π ω) : Action ω → Option (ω × α)
  | .next k => (m.txs[k]?).bind fun x =>
    match x.status with
    | .running (.commit _ write) =>
      match write m.db with
      | .ok (_, a) => some (x.op, a)
      | .error _ => none
    | _ => none
  | _ => none

namespace Discipline

section
variable (D : Discipline σ L ε α ω)

/-- Whatever the others commit before each of its statements, what the program commits
and answers is related to the data before by `T`. -/
def Answers (T : σ → σ → α → Prop) : Tx σ L ε α π → (L → Prop) → σ → Prop
  | .fail _, _, _ => True
  | .stmt _ waits takes next, H, s => ∀ s' other, D.Rely H s s' → D.inv s' →
      (∀ l, H l → other l = false) → (∀ l ∈ waits, other l = false) →
      (∀ l ∈ takes s' other, other l = false) →
      Answers T (next s' other) (fun l => H l ∨ l ∈ takes s' other) s'
  | .commit _ write, H, s => ∀ s', D.Rely H s s' → D.inv s' →
      ∀ s'' a, write s' = .ok (s'', a) → T s' s'' a

end

variable {D : Discipline σ L ε α ω} {T : σ → σ → α → Prop}

theorem Answers.later {p : Tx σ L ε α π} {H : L → Prop} {s s' : σ} (h : D.Answers T p H s)
    (hr : D.Rely H s s') : D.Answers T p H s' := by
  cases p with
  | fail e => trivial
  | stmt point waits takes next => exact fun s'' other hs => h s'' other (hr.trans hs)
  | commit point write => exact fun s'' hs => h s'' (hr.trans hs)

/-- What the open transactions have still to commit and answer is as `T` says. -/
def Answering (D : Discipline σ L ε α ω) (T : ω → σ → σ → α → Prop)
    (m : Machine σ L ε α π ω) : Prop :=
  ∀ (k : Nat) (x : Session σ L ε α π ω) p, m.txs[k]? = some x → x.status = .running p →
    D.Answers (T x.op) p (m.held k) m.db

variable {T : ω → σ → σ → α → Prop}

theorem Answering.start (s : σ) : Answering D T ({ db := s } : Machine σ L ε α π ω) := by
  intro k x p hx
  simp at hx

variable [DecidableEq L] {code : ω → Tx σ L ε α π} {m m' : Machine σ L ε α π ω} {a : Action ω}

omit [DecidableEq L] in
/-- What a step commits, the transactions it does not belong to may rely on. -/
theorem Commits.rely (hc : D.Commits m a m') (hinv : D.inv m'.db) {k : Nat} (hk : a ≠ .next k) :
    D.Rely (m.held k) m.db m'.db := by
  rcases hc with he | ⟨j, rfl, hg⟩
  · rw [he]
    exact .refl
  · refine .single ⟨m.held j, fun l hl hl' => hk ?_, hg, hinv⟩
    have hjk : some k = some j := (show m.locks l = some k from hl).symm.trans hl'
    rw [Option.some.inj hjk]

theorem Answering.step (hm : Answering D T m) (hs : Sound D m) (hs' : Sound D m')
    (hc : D.Commits m a m') (h : act code m a = some m')
    (hcode : ∀ o, a = .begin o → ∀ s, D.inv s → D.Answers (T o) (code o) (fun _ => False) s) :
    Answering D T m' := by
  intro k x' p' hx' hp'
  rcases act_session h hx' with ⟨hnext, hold, hheld⟩ | ⟨hnew, hst, hheld⟩ |
    ⟨x, p, hx, hop, hst, hmoved, -⟩
  · rw [hheld]
    exact (hm k x' p' hold hp').later (hc.rely hs'.inv hnext)
  · -- it has just begun, and holds nothing
    obtain rfl := Status.running.inj (hst.symm.trans hp')
    have hnone : m'.held k = fun _ => False := by
      rw [hheld]
      funext l
      exact propext ⟨fun hl => by
        have hlt := hs.owned l k hl
        rw [List.getElem?_eq_none_iff] at hnew
        omega, False.elim⟩
    rw [hnone]
    exact hcode x'.op (act_new h hnew hx') m'.db hs'.inv
  · have hp := hm k x p hx hst
    rw [hop]
    rw [hp'] at hmoved
    cases hmoved with
    | stmt hdb hwaits htakes hheld =>
      have hown : ∀ l, m.held k l → m.heldByOther k l = false := fun l hl =>
        Machine.heldByOther_eq_false.mpr (.inr hl)
      have hlater := hp m.db (m.heldByOther k) .refl hs.inv hown hwaits htakes
      rw [hdb, show m'.held k = _ from funext fun l => propext (hheld l)]
      exact hlater

/-- **A step commits and answers as `T` says, or changes nothing.** -/
theorem Answering.commits (hm : Answering D T m) (hs : Sound D m) (h : act code m a = some m') :
    (m'.db = m.db ∧ m.commitOf a = none) ∨
      ∃ o b, m.commitOf a = some (o, b) ∧ T o m.db m'.db b := by
  cases a with
  | begin o =>
    cases h
    exact .inl ⟨rfl, rfl⟩
  | abort k =>
    obtain ⟨x, -, habort⟩ := Option.bind_eq_some_iff.mp h
    split at habort
    · cases habort
      exact .inl ⟨rfl, rfl⟩
    · cases habort
  | next k =>
    obtain ⟨x, hx, hadv⟩ := Option.bind_eq_some_iff.mp h
    have hopen := hm k x
    have hof : m.commitOf (.next k) = _ := congrArg (Option.bind · _) hx
    rw [Option.bind_some] at hof
    unfold advance at hadv
    split at hadv
    · rename_i e hst
      cases hadv
      rw [hst] at hof
      exact .inl ⟨rfl, hof⟩
    · rename_i point waits takes next hst
      rw [hst] at hof
      dsimp only at hadv
      split at hadv
      · cases hadv
      · cases hadv
        exact .inl ⟨rfl, hof⟩
    · rename_i point write hst
      rw [hst] at hof
      dsimp only at hof
      split at hadv
      · rename_i db b hw
        cases hadv
        rw [hw] at hof
        exact .inr ⟨x.op, b, hof, hopen _ hx hst m.db .refl hs.inv db b hw⟩
      · rename_i e hw
        cases hadv
        rw [hw] at hof
        exact .inl ⟨rfl, hof⟩
    · cases hadv

end Discipline

end Transactions

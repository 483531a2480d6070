import ControlPlane.Server.Interleaving

/-! # Idempotent submission

Submissions under one key meet at the key. Whoever inserts holds it until it
commits or is rolled back; the others wait, and then insert or find the row. A row
stays with its key and its payload, so what a submission has found in one
statement is what the next one reads. -/

namespace ControlPlane
open Keyed Fallible Transactions Runs

/-! ## One creation for each task -/

/-- The TASK_CREATED events of a task. -/
def TaskView.creations (v : TaskView) : Nat := v.events.countP fun e => e.eventType == .taskCreated

/-- There is one from when the task exists. -/
def TaskView.CreatedOnce (v : TaskView) : Prop := v.creations = v.row.isSome.toNat

theorem TaskView.CreatedOnce.extend {v v' : TaskView} {es : List TaskEvent} (h : v.CreatedOnce)
    (hev : v'.events = v.events ++ es) (hes : ∀ e ∈ es, e.eventType ≠ .taskCreated)
    (hrow : v'.row.isSome = v.row.isSome) : v'.CreatedOnce := by
  have hnone : (es.countP fun e => e.eventType == .taskCreated) = 0 :=
    List.countP_eq_zero.mpr fun e he => by simpa using hes e he
  unfold CreatedOnce creations at *
  rw [hev, List.countP_append, hnone, hrow]
  exact h

theorem standaloneEvents_not_created {ty : EventType} (h : ty ∈ standaloneEvents) :
    ty ≠ .taskCreated := by
  intro he
  subst he
  simp [standaloneEvents] at h

theorem Ending.eventType_ne_created (e : Ending) : e.eventType ≠ .taskCreated := by
  cases e <;> simp [Ending.eventType]

theorem reapEventType_ne_created (a m : Int) : reapEventType a m ≠ .taskCreated := by
  unfold reapEventType
  split <;> simp

section
variable [PyText]

/-- One case for each kind of step: only a submission writes the event. -/
theorem TaskStep.created_once {c : Call} {i : TaskId} {v v' : TaskView} (h : TaskStep c i v v')
    (hop : c.op.Standalone) (hv : v.CreatedOnce) : v'.CreatedOnce := by
  cases h with
  | skip => exact hv
  | noted e hrec =>
    obtain ⟨a, w, data, hrec⟩ := hrec
    refine hv.extend rfl (fun f hf => ?_) rfl
    obtain rfl := List.mem_singleton.mp hf
    exact standaloneEvents_not_created (hop _ _ _ _ _ hrec)
  | submitted hsub hv => rfl
  | claimed hclaim hr hc =>
    refine hv.extend rfl (fun f hf => ?_) (by rw [hr]; rfl)
    obtain rfl := List.mem_singleton.mp hf
    simp [claimedEvent]
  | renewed hren hr hf => exact hv.extend (List.append_nil _).symm (by simp) (by rw [hr]; rfl)
  | @completed e a w t hcomp hr hf =>
    refine hv.extend rfl (fun f hf => ?_) (by rw [hr]; rfl)
    obtain rfl := List.mem_singleton.mp hf
    exact e.eventType_ne_created
  | @reaped o limit scan t hreap hr hs ho =>
    refine hv.extend rfl (fun f hf => ?_) (by rw [hr]; rfl)
    simp only [List.mem_cons, List.not_mem_nil, or_false] at hf
    rcases hf with rfl | rfl
    · exact reapEventType_ne_created _ _
    · simp
  | cancelled hcan hr hq ht' he =>
    refine hv.extend rfl (fun f hf => ?_) (by rw [hr]; rfl)
    obtain rfl := List.mem_singleton.mp hf
    rw [he]
    simp
  | flagged hcan hr hs hf he =>
    refine hv.extend rfl (fun f hf => ?_) (by rw [hr]; rfl)
    obtain rfl := List.mem_singleton.mp hf
    rw [he]
    simp

theorem StoreWrites.created_once {H : Lock → Prop} {s s' : Store} (h : StoreWrites H s s')
    (hs : ∀ i, (s.db.view i).CreatedOnce) (i : TaskId) : (s'.db.view i).CreatedOnce := by
  obtain ⟨c, hop, hsteps⟩ := h.tasks.steps
  exact (hsteps i).created_once hop (hs i)

/-! ## What a submission returns -/

/-- The result of `submit_task` in an answer. -/
def Answer.submission? : Answer → Option SubmitResult
  | .reply (.submitted res) => some res
  | .task created row => some ⟨created, row⟩
  | _ => none

omit [PyText] in
/-- The arguments of one request have one key and one payload. -/
theorem Request.Submits.same {r : Request} {i j : TaskId} {args args' : SubmitArgs}
    (h : r.Submits i args) (h' : r.Submits j args') :
    args.idemKey = args'.idemKey ∧ args.payload = args'.payload := by
  cases h with
  | call hop =>
    cases h' with
    | call hop' =>
      rw [hop] at hop'
      cases hop'
      exact ⟨rfl, rfl⟩
    | direct taskType hop' => rw [hop] at hop'; cases hop'
    | routed taskType res hop' => rw [hop] at hop'; cases hop'
  | direct taskType hop =>
    cases h' with
    | call hop' => rw [hop] at hop'; cases hop'
    | direct taskType hop' =>
      rw [hop] at hop'
      cases hop'
      exact ⟨rfl, rfl⟩
    | routed taskType res hop' =>
      rw [hop] at hop'
      cases hop'
      exact ⟨rfl, rfl⟩
  | routed taskType res hop =>
    cases h' with
    | call hop' => rw [hop] at hop'; cases hop'
    | direct taskType hop' =>
      rw [hop] at hop'
      cases hop'
      exact ⟨rfl, rfl⟩
    | routed taskType res hop' =>
      rw [hop] at hop'
      cases hop'
      exact ⟨rfl, rfl⟩

/-- A task that was returned comes from a submission that ended as it may. -/
theorem RequestPost.submission {r : Request} {s : Store} {a : Answer} {sub : SubmitResult}
    {newId : TaskId} {args : SubmitArgs} (h : RequestPost r (.ok a) s)
    (hr : r.Submits newId args) (ha : a.submission? = some sub) :
    ∃ newId' args', r.Submits newId' args' ∧ SubmitOutcome r.now newId' args' s (.ok sub) := by
  have hendpoint : ∀ {newId body env}, r.op = .api (.submit newId body env) →
      ∃ newId' args', r.Submits newId' args' ∧ SubmitOutcome r.now newId' args' s (.ok sub) := by
    intro newId body env hop
    obtain ⟨args', sub', hsub, hx, rfl⟩ := h.endpoint newId body env a hop rfl
    obtain rfl := Option.some.inj ha
    exact ⟨newId, args', hsub, hx⟩
  cases hr with
  | call hop =>
    obtain ⟨x, hx, hres⟩ := h.call newId args hop
    cases x with
    | error e => cases hres
    | ok sub' =>
      obtain rfl := Except.ok.inj hres
      obtain rfl := Option.some.inj ha
      exact ⟨newId, args, .call hop, hx⟩
  | direct taskType hop => exact hendpoint hop
  | routed taskType res hop => exact hendpoint hop

omit [PyText] in
/-- One row has a key. -/
theorem key_unique {db : Database} {i j : TaskId} {t u : Task} {κ : TenantId × String}
    (ht : db.task? i = some t) (hu : db.task? j = some u) (hkt : t.idemKey = some κ)
    (hku : u.idemKey = some κ) : j = i := by
  rw [← Database.row_id ht, ← Database.row_id hu]
  exact db.tasks_idem u (Table.mem_of_find? hu) t (Table.mem_of_find? ht) (by rw [hku]; rfl)
    (hku.trans hkt.symm)

/-! ## A call that meets a row with another payload -/

/-- How such a call is refused; a row that the table does not accept is refused before. -/
def Refusal (now : Time) (newId : TaskId) (args : SubmitArgs) (i : TaskId) (e : Raised) : Prop :=
  e = .payloadMismatch i ∨
    ∃ d, (submittedTask now newId args).refused = some d ∧ e = .integrity d

/-- Where such a call can be: it has not inserted, reads the row, is refused, or
was rolled back. It returns no task. -/
inductive Refusing (now : Time) (newId : TaskId) (args : SubmitArgs) (answer : SubmitResult → Answer)
    (refuse : Raised → Failure) (i : TaskId) : Status Store Lock Failure Answer Point → Prop
  | inserting :
      Refusing now newId args answer refuse i (.running (submitTx now newId args answer refuse))
  | reading : Refusing now newId args answer refuse i (.running (existingTx args answer refuse))
  | raising {e : Raised} (he : Refusal now newId args i e) :
    Refusing now newId args answer refuse i (.running (.fail (refuse e)))
  | refused {e : Raised} (he : Refusal now newId args i e) :
    Refusing now newId args answer refuse i (.done (.error (refuse e)))
  | aborted : Refusing now newId args answer refuse i .aborted

/-- One case for each place: while the row is there, the call moves on to its refusal. -/
theorem Refusing.moved {now : Time} {newId : TaskId} {args : SubmitArgs}
    {answer : SubmitResult → Answer} {refuse : Raised → Failure} {i : TaskId} {t : Task}
    {κ : TenantId × String} {m m' : Server} {k : Nat} {p : Program}
    {status : Status Store Lock Failure Answer Point}
    (h : Refusing now newId args answer refuse i (.running p)) (hκ : args.idemKey = some κ)
    (ht : m.db.db.task? i = some t) (hkey : t.idemKey = some κ) (hdiffers : args.differs t)
    (hm : Moved m m' k p status) : Refusing now newId args answer refuse i status := by
  cases h with
  | inserting =>
    unfold submitTx at hm
    cases hm with
    | stmt hdb hwaits htakes hheld =>
      dsimp only
      rcases insertTask_cases m.db.db (submittedTask now newId args) with ⟨c, hc, hins⟩ |
        ⟨κ', -, -, hins⟩ | ⟨hfree, -⟩
      · rw [hins]
        exact .raising (Or.inr ⟨c, hc, rfl⟩)
      · rw [hins]
        exact .reading
      · exact absurd hkey (hfree κ hκ t (Table.mem_of_find? ht))
    | abort hdb => exact .aborted
  | reading =>
    unfold existingTx at hm
    cases hm with
    | stmt hdb hwaits htakes hheld =>
      dsimp only
      rw [(existingSubmission_of_key hκ ht hkey).1 hdiffers]
      exact .raising (Or.inl rfl)
    | abort hdb => exact .aborted
  | raising he =>
    cases hm with
    | fail hdb => exact .refused he
    | abort hdb => exact .aborted

/-! ## Every interleaving -/

/-- **What a committed task with a key promises** from then on, whatever is
submitted under its key. -/
structure Deduplicated (m m' : Server) (i : TaskId) (t : Task) (κ : TenantId × String) : Prop where
  only : ∀ j u, m'.db.db.task? j = some u → u.idemKey = some κ → j = i
  stays : m'.db.Holds i t.pinned
  created : (m'.db.db.view i).creations = 1
  returned : ∀ (k : Nat) x newId args a sub, m'.txs[k]? = some x → x.op.Submits newId args →
    args.idemKey = some κ → x.status = .done (.ok a) → a.submission? = some sub →
    sub.task.id = i ∧ sub.task.pinned = t.pinned ∧ (sub.created = false → ¬ args.differs t)
  refused : ∀ (k : Nat) x x' now newId args answer refuse, m.txs[k]? = some x →
    x.status = .running (submitTx now newId args answer refuse) → args.idemKey = some κ →
    args.differs t → m'.txs[k]? = some x' → Refusing now newId args answer refuse i x'.status

/-- A step of an interleaving that keeps to the discipline. -/
abbrev KeptStep (m : Server) (a : Action Request) (m' : Server) : Prop :=
  act requestTx m a = some m' ∧ Discipline.Sound (discipline False) m ∧
    Discipline.Sound (discipline False) m' ∧ Discipline.Commits (discipline False) m a m'

/-- What no transaction's writes undo stays. -/
theorem commits_keep {P : Store → Prop}
    (hP : ∀ {H : Lock → Prop} {s s' : Store}, StoreWrites H s s' → P s → P s') {m m' : Server}
    {a : Action Request} (h : Discipline.Commits (discipline False) m a m') (hm : P m.db) :
    P m'.db := by
  rcases h with he | ⟨k, -, hwrites⟩
  · rwa [he]
  · exact hP hwrites hm

/-- By induction on the run: the row stays, and one's own steps lead to the refusal. -/
theorem refusing_run {m m' : Server} {acts : List (Action Request)}
    (hrun : Run KeptStep m acts m') {i : TaskId} {t : Task} {κ : TenantId × String}
    (ht : m.db.Holds i t.pinned) (hkey : t.idemKey = some κ) {k : Nat}
    {x x' : Session Store Lock Failure Answer Point Request} {now : Time} {newId : TaskId}
    {args : SubmitArgs} {answer : SubmitResult → Answer} {refuse : Raised → Failure}
    (hx : m.txs[k]? = some x) (hstart : x.status = .running (submitTx now newId args answer refuse))
    (hκ : args.idemKey = some κ) (hdiffers : args.differs t) (hx' : m'.txs[k]? = some x') :
    Refusing now newId args answer refuse i x'.status := by
  let I : Server → Prop := fun s => s.db.Holds i t.pinned ∧ k < s.txs.length ∧
    ∀ y, s.txs[k]? = some y → Refusing now newId args answer refuse i y.status
  have hstep : ∀ {s a s'}, I s → KeptStep s a s' → I s' := by
    intro s a s' hs h
    obtain ⟨hholds, hk, hplace⟩ := hs
    obtain ⟨hact, -, -, hcommits⟩ := h
    refine ⟨commits_keep (fun hw hs => hw.holds hs) hcommits hholds, act_begun hact hk, fun y' hy' => ?_⟩
    rcases act_session hact hy' with ⟨-, hold, -⟩ | ⟨hnone, -, -⟩ | ⟨y, p, hy, -, hst, hmoved, -⟩
    · exact hplace y' hold
    · rw [List.getElem?_eq_none_iff] at hnone
      omega
    · have hrunning := hplace y hy
      rw [hst] at hrunning
      obtain ⟨u, hu, hpinned⟩ := hholds
      have hsame : u.payload = t.payload := congrArg Task.Pinned.payload hpinned
      refine hrunning.moved hκ hu ((Task.idemKey_of_pinned hpinned).trans hkey) ?_ hmoved
      unfold SubmitArgs.differs
      rw [hsame]
      exact hdiffers
  have hI : I m := by
    refine ⟨ht, (List.getElem?_eq_some_iff.mp hx).1, fun y hy => ?_⟩
    obtain rfl := Option.eq_some_unique hx hy
    rw [hstart]
    exact .inserting
  have hlast : I m' := hrun.invariant (I := I) (fun hs h => hstep hs h) hI
  exact hlast.2.2 x' hx'

/-- A submission that returned a task under the key returned the row. -/
theorem outcome_row {s : Store} {now : Time} {newId : TaskId} {args : SubmitArgs}
    {sub : SubmitResult} {κ : TenantId × String} {i : TaskId} {p : Task.Pinned}
    (h : SubmitOutcome now newId args s (.ok sub)) (hκ : args.idemKey = some κ)
    (honly : ∀ j u, s.db.task? j = some u → u.idemKey = some κ → j = i) (hrow : s.Holds i p) :
    sub.task.id = i ∧ sub.task.pinned = p ∧ (sub.created = false → ¬ args.differs sub.task) := by
  have hsame : ∀ {j}, s.Holds j sub.task.pinned → sub.task.idemKey = some κ →
      j = i ∧ sub.task.pinned = p := by
    intro j hholds hkey
    obtain ⟨u, hu, hpinned⟩ := hholds
    obtain ⟨v, hv, rfl⟩ := hrow
    obtain rfl := honly j u hu ((Task.idemKey_of_pinned hpinned).trans hkey)
    obtain rfl := Option.eq_some_unique hu hv
    exact ⟨rfl, hpinned.symm⟩
  match sub with
  | ⟨true, task⟩ =>
    obtain ⟨rfl, hholds⟩ := h
    obtain ⟨hid, hpinned⟩ := hsame hholds hκ
    exact ⟨hid, hpinned, fun hc => by cases hc⟩
  | ⟨false, task⟩ =>
    obtain ⟨hholds, ⟨κ', hκ', hkey⟩, hequal⟩ := h
    obtain rfl := Option.eq_some_unique hκ' hκ
    obtain ⟨hid, hpinned⟩ := hsame hholds hkey
    exact ⟨hid, hpinned, fun _ => hequal⟩

/-- **Idempotent submission.** In every interleaving of the statements of
submissions and other requests, with any of them rolled back, a committed task
with a key stays the only one, created once; a submission under the key returns
that row or none, and is refused if its payload is another. A submission without
a key always creates. -/
theorem submission_idempotent {m m' : Server} {acts acts' : List (Action Request)}
    (hrun : Interleaves .empty acts m) (hrun' : Interleaves m acts' m')
    (hbegun : ∀ r ∈ begun (acts ++ acts'), r.Standalone) :
    (∀ i t κ, m.db.db.task? i = some t → t.idemKey = some κ → Deduplicated m m' i t κ) ∧
      ∀ (k : Nat) x newId args a sub, m'.txs[k]? = some x → x.op.Submits newId args →
        args.idemKey = none → x.status = .done (.ok a) → a.submission? = some sub →
        sub.created = true := by
  have hstand : ∀ r, Action.begin r ∈ acts ++ acts' → r.Standalone := fun r hr =>
    hbegun r (mem_begun.mpr hr)
  have hempty : Discipline.Sound (discipline False) Server.empty := empty_sound
  obtain ⟨hsound, hkept⟩ := requests_sound hrun hempty (fun r hr => hstand r (by simp [hr]))
    fun h => h.elim
  obtain ⟨hsound', hkept'⟩ := requests_sound hrun' hsound
    (fun r hr => hstand r (by simp [hr])) fun h => h.elim
  have hcreated : ∀ i, (m'.db.db.view i).CreatedOnce := by
    refine (hkept.append hkept').invariant (I := fun s => ∀ i, (s.db.db.view i).CreatedOnce)
      (fun hs h => commits_keep
        (P := fun s : Store => ∀ i, (s.db.view i).CreatedOnce) (fun hw => hw.created_once)
        h.2.2.2 hs) fun i => rfl
  have houtcome : ∀ {k : Nat} {x newId args a sub}, m'.txs[k]? = some x →
      x.op.Submits newId args → x.status = .done (.ok a) → a.submission? = some sub →
      ∃ newId' args', args'.idemKey = args.idemKey ∧ args'.payload = args.payload ∧
        SubmitOutcome x.op.now newId' args' m'.db (.ok sub) := by
    intro k x newId args a sub hx hsub hst ha
    have hpost : RequestPost x.op (.ok a) m'.db := hsound'.done k x _ hx hst
    obtain ⟨newId', args', hsub', hout⟩ := hpost.submission hsub ha
    obtain ⟨hκ, hp⟩ := hsub'.same hsub
    exact ⟨newId', args', hκ, hp, hout⟩
  refine ⟨fun i t κ ht hkey => ?_, fun k x newId args a sub hx hsub hnone hst ha => ?_⟩
  · have hstays : m'.db.Holds i t.pinned :=
      hkept'.invariant (I := fun s => s.db.Holds i t.pinned)
        (fun hs h => commits_keep (fun hw hs => hw.holds hs) h.2.2.2 hs) ⟨t, ht, rfl⟩
    obtain ⟨t', ht', hpinned⟩ := hstays
    have honly : ∀ j u, m'.db.db.task? j = some u → u.idemKey = some κ → j = i := fun j u hu hku =>
      key_unique ht' hu ((Task.idemKey_of_pinned hpinned).trans hkey) hku
    refine ⟨honly, ⟨t', ht', hpinned⟩, ?_, ?_, ?_⟩
    · have hone := hcreated i
      unfold TaskView.CreatedOnce at hone
      rw [hone, Database.view_row, ht']
      rfl
    · intro k x newId args a sub hx hsub hκ hst ha
      obtain ⟨newId', args', hκ', hpayload, hout⟩ := houtcome hx hsub hst ha
      obtain ⟨hid, hrow, hequal⟩ := outcome_row hout (hκ'.trans hκ) honly ⟨t', ht', hpinned⟩
      refine ⟨hid, hrow, fun hc hdiffers => hequal hc ?_⟩
      have hsame : sub.task.payload = t.payload := congrArg Task.Pinned.payload hrow
      unfold SubmitArgs.differs
      rw [hsame, hpayload]
      exact hdiffers
    · intro k x x' now newId args answer refuse hx hst hκ hdiffers hx'
      exact refusing_run hkept' ⟨t, ht, rfl⟩ hkey hx hst hκ hdiffers hx'
  · obtain ⟨newId', args', hκ', -, hout⟩ := houtcome hx hsub hst ha
    match sub, hout with
    | ⟨true, task⟩, _ => rfl
    | ⟨false, task⟩, hout =>
      obtain ⟨-, ⟨κ, hκ, -⟩, -⟩ := hout
      rw [hκ', hnone] at hκ
      cases hκ

/-- A submission under the key "k". -/
def keyed (i : TaskId) (payload : JsonObject) : Request :=
  ⟨0, .call (.submitTask i { tenantId := 1, taskType := "demo", payload, idempotencyKey := some "k" })⟩

/-- Two submissions under one key: the first inserts and is rolled back, then the
second inserts and commits. -/
def loserWins : List (Action Request) :=
  [.begin ⟨0, .call (.createTenant 1 "acme" 10 1000)⟩, .next 0,
    .begin (keyed 1 [("n", .int 1)]), .begin (keyed 2 [("n", .int 1)]),
    .next 1, .abort 1, .next 2, .next 2]

/-- Then a repeat with another trace, and one with another payload. -/
def repeats : List (Action Request) :=
  [.begin (keyed 3 [("n", .int 1), ("_trace", .str "t")]), .next 3, .next 3, .next 3,
    .begin (keyed 4 [("n", .int 2)]), .next 4, .next 4, .next 4]

omit [PyText] in
theorem submission_idempotent_loserWins :
    ∃ m m' t, @Interleaves PyText.plain Server.empty loserWins m ∧
      @Interleaves PyText.plain m repeats m' ∧ m.db.db.task? 2 = some t ∧
      @Deduplicated PyText.plain m m' 2 t (1, "k") := by
  have hfirst : (exec (act (@requestTx PyText.plain)) Server.empty loserWins).map (fun m =>
      (m.db.db.task? 2).map Task.idemKey) = some (some (some (1, "k"))) := by decide +kernel
  have hall : (exec (act (@requestTx PyText.plain)) Server.empty (loserWins ++ repeats)).isSome =
      true := by decide +kernel
  obtain ⟨m, hm, hrow⟩ := Option.map_eq_some_iff.mp hfirst
  obtain ⟨t, ht, hkey⟩ := Option.map_eq_some_iff.mp hrow
  rw [exec_append, hm, Option.bind_some] at hall
  obtain ⟨m', hm'⟩ := Option.isSome_iff_exists.mp hall
  have hrun : @Interleaves PyText.plain Server.empty loserWins m := Run.of_exec hm
  have hrun' : @Interleaves PyText.plain m repeats m' := Run.of_exec hm'
  have hbegun : ∀ r ∈ begun (loserWins ++ repeats), r.Standalone := by decide
  exact ⟨m, m', t, hrun, hrun', ht,
    (@submission_idempotent PyText.plain m m' _ _ hrun hrun' hbegun).1 2 t (1, "k") ht hkey⟩

end

end ControlPlane

import Mathlib.Data.Prod.Lex
import Mathlib.Logic.Equiv.Nat
import Mathlib.Tactic.FieldSimp
import ControlPlane.Lib.Keyset
import ControlPlane.Db.Database

/-! # Listing tasks, a page at a time

The cursor is the pair (created_at, id) of the last row of a page, as text: the next
page holds the rows whose pair is smaller. The text forms of timestamps and ids and
base64 are taken as given, with the inverses Python documents for them. Following the
cursors is the keyset pagination of the library on the rows that match. -/

namespace ControlPlane
open Keyed Fallible Selection Keyset OrderDual

inductive ListRaised where
  | valueError (message : String)
  | indexError (message : String)
  deriving DecidableEq, Repr

/-- A value of a `timestamptz` column, or of a `datetime`. -/
def WholeMicroseconds (t : Time) : Prop := ∃ n : ℤ, t = n / 1000000

/-- What a cursor takes from `datetime`, `UUID` and `base64`; each reading function raises
`ValueError` with a text. -/
class CursorText where
  isoformat : Time → String
  fromisoformat : String → Except String Time
  str : TaskId → String
  uuid : String → Except String TaskId
  /-- `urlsafe_b64encode(s.encode()).decode()` -/
  urlsafeB64encode : String → String
  /-- `urlsafe_b64decode(s.encode()).decode()` -/
  urlsafeB64decode : String → Except String String
  fromisoformat_isoformat : ∀ t, WholeMicroseconds t → fromisoformat (isoformat t) = .ok t
  isoformat_no_bar : ∀ t, WholeMicroseconds t → '|' ∉ (isoformat t).toList
  uuid_str : ∀ i, uuid (str i) = .ok i
  decode_encode : ∀ s, urlsafeB64decode (urlsafeB64encode s) = .ok s
  decode_empty : urlsafeB64decode "" = .ok ""

section Cursors
variable [CursorText]
open CursorText

def encodeCursor (createdAt : Time) (taskId : TaskId) : String :=
  urlsafeB64encode (isoformat createdAt ++ "|" ++ str taskId)

/-- `raw.split("|", 1)`, unpacked into two names. -/
def splitBar (raw : String) : Except String (String × String) :=
  let (ts, rest) := raw.toList.span (· != '|')
  match rest with
  | _ :: tid => .ok (.ofList ts, .ofList tid)
  | [] => .error "not enough values to unpack (expected 2, got 1)"

def decodeCursor (cursor : String) : Except String (Time × TaskId) := do
  let raw ← urlsafeB64decode cursor
  let (ts, tid) ← splitBar raw
  let createdAt ← fromisoformat ts
  let taskId ← uuid tid
  pure (createdAt, taskId)

omit [CursorText] in
theorem splitBar_join {ts tid : String} (h : '|' ∉ ts.toList) :
    splitBar (ts ++ "|" ++ tid) = .ok (ts, tid) := by
  have hspan : (ts ++ "|" ++ tid).toList.span (· != '|') = (ts.toList, '|' :: tid.toList) := by
    rw [List.span_eq_takeWhile_dropWhile]
    have hts : ∀ c ∈ ts.toList, (c != '|') = true := by
      intro c hc
      rw [bne_iff_ne]
      rintro rfl
      exact h hc
    simp only [String.toList_append, List.append_assoc]
    rw [List.takeWhile_append_of_pos hts, List.dropWhile_append_of_pos hts]
    simp
  unfold splitBar
  rw [hspan]
  simp

/-- **A cursor reads back as what it was made of.** -/
theorem decode_encodeCursor {t : Time} (ht : WholeMicroseconds t) (i : TaskId) :
    decodeCursor (encodeCursor t i) = .ok (t, i) := by
  unfold decodeCursor encodeCursor
  rw [decode_encode, ok_bind, splitBar_join (isoformat_no_bar t ht), ok_bind]
  dsimp only
  rw [fromisoformat_isoformat t ht, ok_bind, uuid_str, ok_bind]
  rfl

theorem encodeCursor_ne_empty (t : Time) (i : TaskId) : encodeCursor t i ≠ "" := by
  intro hempty
  have hraw := decode_encode (isoformat t ++ "|" ++ str i)
  rw [show urlsafeB64encode (isoformat t ++ "|" ++ str i) = "" from hempty, decode_empty] at hraw
  have hlen := congrArg (fun s : String => s.toList.length) (Except.ok.inj hraw)
  simp at hlen

end Cursors

/-! ## The query -/

/-- The row value the query sorts by and compares with the cursor. -/
def Task.listKey (t : Task) : Time ×ₗ TaskId := toLex (t.createdAt, t.id)

structure ListFilter where
  tenantId : Option TenantId := none
  state : Option State := none

def ListFilter.selects (f : ListFilter) (t : Task) : Bool :=
  f.tenantId.all (fun i => t.tenantId == i) && f.state.all (fun s => decide (t.state = s))

section Listing
variable [CursorText]

/-- `if cursor:`, so an empty one is none. -/
def readCursor : Option String → Except ListRaised (Option (Time × TaskId))
  | none => .ok none
  | some c => if c = "" then .ok none else ((decodeCursor c).mapError .valueError).map some

def listTasks (db : Database) (f : ListFilter) (limit : Nat) (cursor : Option String) :
    Except ListRaised (List Task × Option String) := do
  let after ← readCursor cursor
  let rows := (sortBy (fun t : Task => toDual t.listKey) (db.tasks.rows.filter fun t =>
    f.selects t && after.all fun c => decide (t.listKey < toLex c))).take (limit + 1)
  if limit < rows.length then
    let rows := rows.take limit
    match rows.getLast? with
    | none => .error (.indexError "list index out of range")
    | some last => pure (rows, some (encodeCursor last.createdAt last.id))
  else pure (rows, none)

/-! ## As keyset pagination -/

/-- Descending order of the row value is ascending order of this key. -/
def Task.rowKey (t : Task) : (Time ×ₗ TaskId)ᵒᵈ := toDual t.listKey

def Database.matching (db : Database) (f : ListFilter) : List Task := db.tasks.rows.filter f.selects

def cursorText (c : (Time ×ₗ TaskId)ᵒᵈ) : String :=
  encodeCursor (ofLex (ofDual c)).1 (ofLex (ofDual c)).2

omit [CursorText] in
theorem matching_keys (db : Database) (f : ListFilter) : ((db.matching f).map Task.rowKey).Nodup := by
  have hids := db.tasks.filter_keys_nodup f.selects
  rw [show db.tasks.rows.filter f.selects = db.matching f from rfl] at hids
  refine (hids.of_map Task.id).map_on fun t ht u hu hkey => ?_
  have hid : t.id = u.id := congrArg (fun c => (ofLex (ofDual c)).2) hkey
  exact List.inj_on_of_nodup_map hids ht hu hid

theorem readCursor_text {after : Option (Time ×ₗ TaskId)ᵒᵈ}
    (hmicro : ∀ c ∈ after, WholeMicroseconds (ofLex (ofDual c)).1) :
    readCursor (after.map cursorText) = .ok (after.map fun c => ofLex (ofDual c)) := by
  cases after with
  | none => rfl
  | some c =>
    rw [Option.map_some, readCursor, cursorText, if_neg (encodeCursor_ne_empty _ _),
      decode_encodeCursor (hmicro c rfl)]
    rfl

/-- A call whose cursor came from an earlier one is a page of the library. -/
theorem listTasks_page (db : Database) (f : ListFilter) {limit : Nat} (hlimit : 0 < limit)
    {after : Option (Time ×ₗ TaskId)ᵒᵈ}
    (hmicro : ∀ c ∈ after, WholeMicroseconds (ofLex (ofDual c)).1) :
    listTasks db f limit (after.map cursorText) =
      .ok (Prod.map id (Option.map cursorText) (page Task.rowKey limit after (db.matching f))) := by
  have hrows : (sortBy (fun t : Task => toDual t.listKey) (db.tasks.rows.filter fun t =>
      f.selects t && (after.map fun c => ofLex (ofDual c)).all fun c =>
        decide (t.listKey < toLex c))) = seek Task.rowKey after (db.matching f) := by
    unfold seek Database.matching
    rw [List.filter_filter]
    congr 1
    refine List.filter_congr fun t _ => ?_
    rw [Bool.and_comm, Option.all_map]
    rfl
  unfold listTasks page
  rw [readCursor_text hmicro, ok_bind, hrows]
  dsimp only
  split
  · rename_i hmore
    obtain ⟨last, hlast⟩ : ∃ last, (((seek Task.rowKey after (db.matching f)).take
        (limit + 1)).take limit).getLast? = some last := by
      rw [← Option.isSome_iff_exists, List.getLast?_isSome, ← List.length_pos_iff, List.length_take]
      omega
    rw [hlast]
    rfl
  · rfl

/-! ## Following the cursors -/

/-- Between two calls tasks are inserted that sort before the cursor. -/
structure InsertedBefore (cursor : String) (db db' : Database) : Prop where
  kept : ∀ t ∈ db.tasks.rows, t ∈ db'.tasks.rows
  before : ∀ t ∈ db'.tasks.rows, t ∉ db.tasks.rows →
    ∃ c, decodeCursor cursor = .ok c ∧ toLex c < t.listKey

/-- A client has made calls from `db₀` on, each with the cursor of the one before: the
database the last one saw, the pages so far and the last `next_cursor`. -/
inductive Followed (db₀ : Database) (f : ListFilter) (limit : Nat) :
    Database → List (List Task) → Option String → Prop
  | first {page : List Task} {next : Option String} :
      listTasks db₀ f limit none = .ok (page, next) → Followed db₀ f limit db₀ [page] next
  | more {db db' : Database} {pages : List (List Task)} {cursor : String} {page : List Task}
      {next : Option String} :
      Followed db₀ f limit db pages (some cursor) → InsertedBefore cursor db db' →
      listTasks db' f limit (some cursor) = .ok (page, next) →
      Followed db₀ f limit db' (pages ++ [page]) next

/-- The pages hold the matching tasks of the table, newest first, each once. -/
structure ListsAll (db : Database) (f : ListFilter) (pages : List (List Task)) : Prop where
  descending : pages.flatten.Pairwise fun t u => u.listKey < t.listKey
  exact : ∀ t, t ∈ pages.flatten ↔ t ∈ db.tasks.rows ∧ f.selects t = true
  nodup : pages.flatten.Nodup

theorem InsertedBefore.added {db db' : Database} {c : (Time ×ₗ TaskId)ᵒᵈ}
    (h : InsertedBefore (cursorText c) db db') (hmicro : WholeMicroseconds (ofLex (ofDual c)).1)
    (f : ListFilter) : Added Task.rowKey c (db.matching f) (db'.matching f) := by
  constructor
  · intro t ht
    obtain ⟨hrow, hsel⟩ := List.mem_filter.mp ht
    exact List.mem_filter.mpr ⟨h.kept t hrow, hsel⟩
  · intro t ht hnew
    obtain ⟨hrow, hsel⟩ := List.mem_filter.mp ht
    obtain ⟨c', hc', hlt⟩ := h.before t hrow fun hold => hnew (List.mem_filter.mpr ⟨hold, hsel⟩)
    obtain rfl := Except.ok.inj (hc'.symm.trans (decode_encodeCursor hmicro _))
    exact hlt

omit [CursorText] in
/-- The cursors are keys of rows that were there at the first call. -/
theorem cursor_micro {db₀ : Database} {f : ListFilter} {limit : Nat} {ys : List Task}
    {pages : List (List Task)} {after : Option (Time ×ₗ TaskId)ᵒᵈ}
    (h : Pages Task.rowKey limit (db₀.matching f) ys pages after) (hlimit : 0 < limit)
    (hmicro : ∀ t ∈ db₀.tasks.rows, WholeMicroseconds t.createdAt) :
    ∀ c ∈ after, WholeMicroseconds (ofLex (ofDual c)).1 := by
  intro c hc
  obtain ⟨-, hreached⟩ := h.reached (matching_keys db₀ f) hlimit
  obtain ⟨t, ht, rfl⟩ := hreached.cursor c hc
  exact hmicro t (List.mem_filter.mp ((mem_sortBy _).mp ht)).1

/-- The calls of a client read the pages of the library. -/
theorem Followed.pages {db₀ db : Database} {f : ListFilter} {limit : Nat}
    {pages : List (List Task)} {next : Option String} (h : Followed db₀ f limit db pages next)
    (hlimit : 0 < limit) (hmicro : ∀ t ∈ db₀.tasks.rows, WholeMicroseconds t.createdAt) :
    ∃ after, next = after.map cursorText ∧
      Pages Task.rowKey limit (db₀.matching f) (db.matching f) pages after := by
  induction h with
  | first hcall =>
    rw [show (none : Option String) = (none : Option (Time ×ₗ TaskId)ᵒᵈ).map cursorText from rfl,
      listTasks_page db₀ f hlimit (by simp)] at hcall
    obtain ⟨rfl, rfl⟩ := Prod.mk.inj (Except.ok.inj hcall)
    exact ⟨_, rfl, .first⟩
  | @more db db' pages cursor page next _ hinserted hcall ih =>
    obtain ⟨after, hnext, hpages⟩ := ih
    obtain ⟨c, rfl, rfl⟩ := Option.map_eq_some_iff.mp hnext.symm
    have hc := cursor_micro hpages hlimit hmicro
    rw [show some (cursorText c) = (some c).map cursorText from rfl,
      listTasks_page db' f hlimit hc] at hcall
    obtain ⟨rfl, rfl⟩ := Prod.mk.inj (Except.ok.inj hcall)
    exact ⟨_, rfl, hpages.more (hinserted.added (hc c rfl) f) (matching_keys db' f)⟩

/-- **Following `next_cursor` lists every matching task once.** A cursor reads back as what
it was made of. No call of a client fails; while there is a cursor there are calls to make,
and when there is none, the calls have listed the tasks that matched at the first one,
however many sort before a cursor and came later. -/
theorem list_tasks_paginates :
    (∀ t i, WholeMicroseconds t → decodeCursor (encodeCursor t i) = .ok (t, i)) ∧
    ∀ (db₀ : Database) (f : ListFilter) (limit : Nat), 1 ≤ limit →
      (∀ t ∈ db₀.tasks.rows, WholeMicroseconds t.createdAt) →
      (∃ result, listTasks db₀ f limit none = .ok result) ∧
      ∀ db pages next, Followed db₀ f limit db pages next →
        pages.length ≤ max 1 ((db₀.matching f).length ⌈/⌉ limit) ∧
        (∀ cursor, next = some cursor →
          pages.length < max 1 ((db₀.matching f).length ⌈/⌉ limit) ∧
          ∀ db', InsertedBefore cursor db db' →
            ∃ result, listTasks db' f limit (some cursor) = .ok result) ∧
        (next = none → pages.length = max 1 ((db₀.matching f).length ⌈/⌉ limit) ∧
          ListsAll db₀ f pages) := by
  refine ⟨fun t i ht => decode_encodeCursor ht i, fun db₀ f limit hlimit hmicro => ⟨?_, ?_⟩⟩
  · exact ⟨_, @listTasks_page _ db₀ f _ hlimit none (by simp)⟩
  · intro db pages next h
    obtain ⟨after, rfl, hpages⟩ := h.pages hlimit hmicro
    obtain ⟨-, hreached⟩ := hpages.reached (matching_keys db₀ f) hlimit
    have hlen : (sortBy Task.rowKey (db₀.matching f)).length = (db₀.matching f).length :=
      (sortBy_perm _ _).length_eq
    obtain ⟨hle, hall⟩ := hreached.count hlimit
    rw [hlen] at hle hall
    refine ⟨hle, fun cursor hcursor => ⟨?_, fun db' _ => ?_⟩, fun hnone => ?_⟩
    · obtain ⟨c, rfl, -⟩ := Option.map_eq_some_iff.mp hcursor
      have hmore := (hreached.ahead c rfl).1
      rw [hlen] at hmore
      refine lt_max_of_lt_right ?_
      by_contra hfew
      rw [not_lt, ceilDiv_le_iff_le_mul hlimit, Nat.mul_comm] at hfew
      omega
    · rw [← hcursor]
      exact ⟨_, listTasks_page db' f hlimit (cursor_micro hpages hlimit hmicro)⟩
    · obtain ⟨hcount, hflat⟩ := hall (Option.map_eq_none_iff.mp hnone)
      have hsorted : pages.flatten.Pairwise fun t u => u.listKey < t.listKey := by
        rw [hflat]
        exact sortBy_strict (matching_keys db₀ f)
      refine ⟨hcount, hsorted, fun t => ?_, hsorted.imp fun h heq => ?_⟩
      · rw [hflat, mem_sortBy, Database.matching, List.mem_filter]
      · exact lt_irrefl _ (heq ▸ h)

end Listing

/-! ## Three tasks, two to a page -/

/-- The forms of the first second of 1970 and of one-digit ids, and the base64 text of
one cursor. Other values have texts of their own, all different. -/
@[reducible] def CursorText.epoch : CursorText where
  isoformat t :=
    if t = 0 then "1970-01-01T00:00:00+00:00"
    else .ofList (List.replicate (Equiv.intEquivNat (t * 1000000).num) '0')
  fromisoformat s :=
    .ok (if s = "1970-01-01T00:00:00+00:00" then 0
      else (Equiv.intEquivNat.symm s.toList.length : ℚ) / 1000000)
  str i := "00000000-0000-0000-0000-00000000000" ++ toString i
  uuid s := .ok (Nat.ofDigitChars 10 (s.toList.drop 35) 0)
  urlsafeB64encode s :=
    if s = "1970-01-01T00:00:00+00:00|00000000-0000-0000-0000-000000000002" then
      "MTk3MC0wMS0wMVQwMDowMDowMCswMDowMHwwMDAwMDAwMC0wMDAwLTAwMDAtMDAwMC0wMDAwMDAwMDAwMDI="
    else "=" ++ s
  urlsafeB64decode s :=
    if s =
      "MTk3MC0wMS0wMVQwMDowMDowMCswMDowMHwwMDAwMDAwMC0wMDAwLTAwMDAtMDAwMC0wMDAwMDAwMDAwMDI="
    then .ok "1970-01-01T00:00:00+00:00|00000000-0000-0000-0000-000000000002"
    else .ok (.ofList (s.toList.drop 1))
  fromisoformat_isoformat t ht := by
    obtain ⟨n, rfl⟩ := ht
    by_cases hn : (n : ℚ) / 1000000 = 0
    · simp [hn]
    · have hne : String.ofList (List.replicate (Equiv.intEquivNat n) '0') ≠
          "1970-01-01T00:00:00+00:00" := by
        intro h
        have hmem : '1' ∈ List.replicate (Equiv.intEquivNat n) '0' := by
          rw [← String.toList_ofList (l := List.replicate _ _), h]
          decide
        simp at hmem
      simp [hn, hne]
  isoformat_no_bar t _ := by
    split
    · decide
    · simp
  uuid_str i := by
    simp
  decode_encode s := by
    split
    · rename_i hs
      rw [if_pos rfl, hs]
    · have hne : "=" ++ s ≠
          "MTk3MC0wMS0wMVQwMDowMDowMCswMDowMHwwMDAwMDAwMC0wMDAwLTAwMDAtMDAwMC0wMDAwMDAwMDAwMDI=" := by
        intro h
        have hhead := congrArg (fun u : String => u.toList.head?) h
        simp at hhead
      rw [if_neg hne]
      simp
  decode_empty := by
    simp

def epochRow (t : Time) (i : TaskId) : Task where
  id := i
  tenantId := 1
  taskType := "demo"
  payload := []
  idempotencyKey := none
  availableAt := t
  createdAt := t
  updatedAt := t

/-- Three tasks submitted in one transaction. -/
def threeTasks : Database :=
  { Database.empty with
    tenants := ⟨[⟨1, "acme", 10, 1000⟩], by decide⟩
    tasks := ⟨[epochRow 0 1, epochRow 0 2, epochRow 0 3], by decide⟩
    tasks_storable := by decide
    tasks_checked := by decide
    tasks_tenant := by decide
    tasks_idem := by decide
    attempts_task := by simp [Database.empty, Table.empty]
    events_task := by simp [Database.empty] }

/-- Another one a second later. -/
def fourTasks : Database :=
  { Database.empty with
    tenants := ⟨[⟨1, "acme", 10, 1000⟩], by decide⟩
    tasks := ⟨[epochRow 0 1, epochRow 0 2, epochRow 0 3, epochRow 1 4], by decide⟩
    tasks_storable := by decide
    tasks_checked := by decide
    tasks_tenant := by decide
    tasks_idem := by decide
    attempts_task := by simp [Database.empty, Table.empty]
    events_task := by simp [Database.empty] }

theorem list_tasks_paginates_threeTasks : ∃ pages,
    @Followed .epoch threeTasks {} 2 fourTasks pages none ∧ pages.length = 2 ∧
      ListsAll threeTasks {} pages := by
  have hone : ((@listTasks .epoch threeTasks {} 2 none).toOption.map Prod.snd) =
      some (some (@encodeCursor .epoch 0 2)) := by
    decide +kernel
  have htwo : ((@listTasks .epoch fourTasks {} 2 (some (@encodeCursor .epoch 0 2))).toOption.map
      Prod.snd) = some none := by
    decide +kernel
  have hadded : @InsertedBefore .epoch (@encodeCursor .epoch 0 2) threeTasks fourTasks := by
    refine @InsertedBefore.mk .epoch _ _ _ (by simp [threeTasks, fourTasks]) fun t ht hnew => ?_
    have hzero : WholeMicroseconds 0 := ⟨0, by simp⟩
    refine ⟨_, @decode_encodeCursor .epoch _ hzero 2, ?_⟩
    obtain rfl : t = epochRow 1 4 := by
      simp only [threeTasks, fourTasks, List.mem_cons, List.not_mem_nil, or_false] at ht hnew
      rcases ht with rfl | rfl | rfl | rfl
      · exact absurd (Or.inl rfl) hnew
      · exact absurd (Or.inr (Or.inl rfl)) hnew
      · exact absurd (Or.inr (Or.inr rfl)) hnew
      · rfl
    decide +kernel
  cases h₁ : @listTasks .epoch threeTasks {} 2 none with
  | error e =>
    rw [h₁] at hone
    cases hone
  | ok first =>
    cases h₂ : @listTasks .epoch fourTasks {} 2 (some (@encodeCursor .epoch 0 2)) with
    | error e =>
      rw [h₂] at htwo
      cases htwo
    | ok second =>
      obtain ⟨page, next⟩ := first
      obtain ⟨page', next'⟩ := second
      rw [h₁] at hone
      rw [h₂] at htwo
      obtain rfl : next = some (@encodeCursor .epoch 0 2) := Option.some.inj hone
      obtain rfl : next' = none := Option.some.inj htwo
      have hfollowed : @Followed .epoch threeTasks {} 2 fourTasks ([page] ++ [page']) none :=
        letI := CursorText.epoch
        .more (.first h₁) hadded h₂
      have hmicro : ∀ t ∈ threeTasks.tasks.rows, WholeMicroseconds t.createdAt := by
        intro t ht
        refine ⟨0, ?_⟩
        simp only [threeTasks, List.mem_cons, List.not_mem_nil, or_false] at ht
        rcases ht with rfl | rfl | rfl <;> simp [epochRow]
      have hall := ((@list_tasks_paginates .epoch).2 threeTasks {} 2 (by decide) hmicro).2 _ _ _
        hfollowed
      exact ⟨_, hfollowed, rfl, (hall.2.2 rfl).2⟩

end ControlPlane

import Mathlib.Data.List.Infix
import ControlPlane.Domain.Text
import ControlPlane.Domain.HexText
import ControlPlane.Lib.Fallible

/-! # The trace link across the queue

A submission leaves the identity of its span in the task's payload, and the span of
an attempt is linked to it. What is stored is any JSON value when it is read, and
the operators used on it fail in ways of their own for each type. Of OpenTelemetry
the model has the identity of a span and when it is valid. -/

namespace ControlPlane
open Fallible

/-- The built-in exceptions that reading a carrier can raise. -/
inductive BuiltinError where
  | typeError | valueError | keyError
  deriving DecidableEq, Repr

/-! ## Operators on a decoded value -/

/-- `bool(v)`. -/
def Json.truthy : Json → Bool
  | .null => false
  | .bool b => b
  | .int n => n != 0
  | .float f => f.value != 0
  | .str s => s != ""
  | .arr xs => !xs.isEmpty
  | .obj kvs => !kvs.isEmpty

/-- `key in v`: a part of a text, an element of a list or a key of a dict. -/
def Json.contains (key : String) : Json → Except BuiltinError Bool
  | .str s => .ok (decide (key.toList <:+: s.toList))
  | .arr xs => .ok (xs.any fun x => Json.pyEq x (.str key))
  | .obj kvs => .ok (kvs.lookup key).isSome
  | _ => .error .typeError

/-- `v[key]`. -/
def Json.getItem (key : String) : Json → Except BuiltinError Json
  | .obj kvs => match kvs.lookup key with
    | some v => .ok v
    | none => .error .keyError
  | _ => .error .typeError

/-- `int(v, 16)`: a base is for texts only. -/
def Json.intBase16 : Json → Except BuiltinError Int
  | .str s => match pyIntBase16 s with
    | some n => .ok n
    | none => .error .valueError
  | _ => .error .typeError

/-! ## Spans -/

structure SpanContext where
  traceId : Int
  spanId : Int
  isRemote : Bool := false
  traceFlags : Nat := 0
  deriving DecidableEq, Repr

/-- `TraceFlags.SAMPLED`. -/
def sampled : Nat := 1

def SpanContext.isValid (ctx : SpanContext) : Bool :=
  decide (0 < ctx.traceId ∧ ctx.traceId < 2 ^ 128 ∧ 0 < ctx.spanId ∧ ctx.spanId < 2 ^ 64)

structure Link where
  context : SpanContext
  deriving DecidableEq, Repr

/-- `carrier_for_current_span`, for the context of the current span. -/
def carrierForCurrentSpan (ctx : SpanContext) : Option JsonObject :=
  if ctx.isValid then
    some [("trace_id", .str (pyFormatHex 32 ctx.traceId)),
      ("span_id", .str (pyFormatHex 16 ctx.spanId))]
  else none

/-- `not carrier or "trace_id" not in carrier or "span_id" not in carrier`. -/
def lacksIds (carrier : Json) : Except BuiltinError Bool := do
  if !carrier.truthy then return true
  if !(← carrier.contains "trace_id") then return true
  return !(← carrier.contains "span_id")

/-- The body of the `try`. -/
def remoteContext (carrier : Json) : Except BuiltinError SpanContext := do
  let traceId ← (← carrier.getItem "trace_id").intBase16
  let spanId ← (← carrier.getItem "span_id").intBase16
  return { traceId, spanId, isRemote := true, traceFlags := sampled }

/-- What follows the body of the `try`: a `TypeError` is not caught. -/
def linksOf : Except BuiltinError SpanContext → Except BuiltinError (List Link)
  | .ok ctx => .ok (if ctx.isValid then [⟨ctx⟩] else [])
  | .error .valueError => .ok []
  | .error .keyError => .ok []
  | .error .typeError => .error .typeError

/-- `_link_from_carrier`. -/
def linkFromCarrier (carrier : Json) : Except BuiltinError (List Link) := do
  if ← lacksIds carrier then return []
  linksOf (remoteContext carrier)

/-! ## When a carrier raises -/

/-- `int(s, 16)` does not raise. -/
def IsHex (s : String) : Prop := ∃ n, HexText (s.toList.map toAscii) n

/-- No operator meets a value of a type it does not take. Of two ids the second is
looked at only where the first is a number. -/
def HarmlessCarrier : Json → Prop
  | .null => True
  | .bool b => b = false
  | .int n => n = 0
  | .float f => f.value = 0
  | .str s => ¬ ("trace_id".toList <:+: s.toList ∧ "span_id".toList <:+: s.toList)
  | .arr xs => ¬ (Json.str "trace_id" ∈ xs ∧ Json.str "span_id" ∈ xs)
  | .obj kvs => ∀ traceId spanId, kvs.lookup "trace_id" = some traceId →
      kvs.lookup "span_id" = some spanId →
      ∃ s, traceId = .str s ∧ (IsHex s → ∃ s', spanId = .str s')

theorem linksOf_length {r : Except BuiltinError SpanContext} {links : List Link}
    (h : linksOf r = .ok links) : links.length ≤ 1 := by
  unfold linksOf at h
  split at h <;> cases h
  · split <;> simp
  · simp
  · simp

theorem linksOf_raises_iff {r : Except BuiltinError SpanContext} {e : BuiltinError} :
    linksOf r = .error e ↔ r = .error .typeError ∧ e = .typeError := by
  constructor
  · intro h
    unfold linksOf at h
    split at h <;> cases h
    exact ⟨rfl, rfl⟩
  · rintro ⟨rfl, rfl⟩
    rfl

theorem linksOf_link_iff {r : Except BuiltinError SpanContext} {link : Link} :
    linksOf r = .ok [link] ↔ ∃ ctx, r = .ok ctx ∧ ctx.isValid = true ∧ link = ⟨ctx⟩ := by
  constructor
  · intro h
    unfold linksOf at h
    split at h
    · rename_i ctx
      cases hvalid : ctx.isValid with
      | true =>
        rw [hvalid] at h
        cases h
        exact ⟨ctx, rfl, hvalid, rfl⟩
      | false =>
        rw [hvalid] at h
        cases h
    all_goals cases h
  · rintro ⟨ctx, rfl, hvalid, rfl⟩
    exact congrArg Except.ok (if_pos hvalid)

theorem linkFromCarrier_lacking {v : Json} (h : lacksIds v = .ok true) :
    linkFromCarrier v = .ok [] := by
  unfold linkFromCarrier
  rw [h]
  rfl

theorem linkFromCarrier_having {v : Json} (h : lacksIds v = .ok false) :
    linkFromCarrier v = linksOf (remoteContext v) := by
  unfold linkFromCarrier
  rw [h]
  rfl

theorem lacksIds_falsy {v : Json} (h : v.truthy = false) : lacksIds v = .ok true := by
  unfold lacksIds
  rw [h]
  rfl

/-- Of a value that `in` takes. -/
theorem lacksIds_eq {v : Json} {a b : Bool} (ha : v.contains "trace_id" = .ok a)
    (hb : v.contains "span_id" = .ok b) (htruthy : a = true → v.truthy = true) :
    lacksIds v = .ok (!(a && b)) := by
  cases ht : v.truthy with
  | false =>
    have hno : a = false := by
      cases a with
      | false => rfl
      | true => rw [ht] at htruthy; cases htruthy rfl
    rw [lacksIds_falsy ht, hno]
    rfl
  | true =>
    unfold lacksIds
    rw [ht, ha, hb]
    cases a <;> rfl

/-- Of a value that cannot be subscripted with a text. -/
theorem linkFromCarrier_unsubscriptable {v : Json} {a b : Bool} (ha : v.contains "trace_id" = .ok a)
    (hb : v.contains "span_id" = .ok b) (htruthy : a = true → v.truthy = true)
    (hitem : v.getItem "trace_id" = .error .typeError) :
    linkFromCarrier v = if a && b then .error .typeError else .ok [] := by
  have hlacks := lacksIds_eq ha hb htruthy
  cases hab : a && b with
  | false => exact linkFromCarrier_lacking (by rw [hlacks, hab]; rfl)
  | true =>
    rw [linkFromCarrier_having (by rw [hlacks, hab]; rfl), remoteContext, hitem]
    rfl

/-- The two ids as they were read. -/
def contextOf (traceId spanId : Json) : Except BuiltinError SpanContext := do
  let traceId ← traceId.intBase16
  let spanId ← spanId.intBase16
  return { traceId, spanId, isRemote := true, traceFlags := sampled }

theorem linkFromCarrier_obj {kvs : JsonObject} {traceId spanId : Json}
    (ht : kvs.lookup "trace_id" = some traceId) (hs : kvs.lookup "span_id" = some spanId) :
    linkFromCarrier (.obj kvs) = linksOf (contextOf traceId spanId) := by
  have hlacks : lacksIds (.obj kvs) = .ok false := by
    refine lacksIds_eq (a := true) (b := true) ?_ ?_ fun _ => ?_
    · rw [Json.contains, ht]; rfl
    · rw [Json.contains, hs]; rfl
    · cases kvs with
      | nil => cases ht
      | cons kv kvs => rfl
  rw [linkFromCarrier_having hlacks]
  unfold remoteContext contextOf
  simp only [Json.getItem, ht, hs, ok_bind]

theorem getItem_ok {v w : Json} {key : String} :
    v.getItem key = .ok w ↔ ∃ kvs, v = .obj kvs ∧ kvs.lookup key = some w := by
  cases v with
  | obj kvs =>
    rw [Json.getItem]
    cases hkey : kvs.lookup key <;> simp [hkey]
  | _ => simp [Json.getItem]

theorem intBase16_ok {v : Json} {n : Int} :
    v.intBase16 = .ok n ↔ ∃ s, v = .str s ∧ HexText (s.toList.map toAscii) n := by
  cases v with
  | str s =>
    rw [Json.intBase16]
    cases hs : pyIntBase16 s <;> simp [← pyIntBase16_iff, hs]
  | _ => simp [Json.intBase16]

theorem intBase16_returns_iff {v : Json} :
    (∃ n, v.intBase16 = .ok n) ↔ ∃ s, v = .str s ∧ IsHex s := by
  constructor
  · rintro ⟨n, hn⟩
    obtain ⟨s, rfl, hs⟩ := intBase16_ok.mp hn
    exact ⟨s, rfl, n, hs⟩
  · rintro ⟨s, rfl, n, hs⟩
    exact ⟨n, intBase16_ok.mpr ⟨s, rfl, hs⟩⟩

theorem intBase16_typeError_iff {v : Json} :
    v.intBase16 = .error .typeError ↔ ∀ s, v ≠ .str s := by
  cases v with
  | str s =>
    rw [Json.intBase16]
    cases hs : pyIntBase16 s <;> simp
  | _ => simp [Json.intBase16]

theorem contextOf_typeError_iff {traceId spanId : Json} :
    contextOf traceId spanId = .error .typeError ↔
      ¬ ∃ s, traceId = .str s ∧ (IsHex s → ∃ s', spanId = .str s') := by
  unfold contextOf
  rw [bind_raises, intBase16_typeError_iff]
  constructor
  · rintro (hno | ⟨n, hn, h⟩) ⟨s, rfl, hspan⟩
    · exact hno s rfl
    · obtain ⟨s', hs', hhex⟩ := intBase16_returns_iff.mp ⟨n, hn⟩
      cases hs'
      obtain ⟨text, rfl⟩ := hspan hhex
      rcases bind_raises.mp h with h | ⟨m, hm, h⟩
      · exact intBase16_typeError_iff.mp h text rfl
      · cases h
  · intro hno
    by_cases hs : ∃ s, traceId = .str s
    · obtain ⟨s, rfl⟩ := hs
      have hspan : ¬ (IsHex s → ∃ s', spanId = .str s') := fun h => hno ⟨s, rfl, h⟩
      rw [Classical.not_imp] at hspan
      obtain ⟨n, hn⟩ := intBase16_returns_iff.mpr ⟨s, rfl, hspan.1⟩
      refine Or.inr ⟨n, hn, bind_raises.mpr (Or.inl ?_)⟩
      exact intBase16_typeError_iff.mpr fun s' hs' => hspan.2 ⟨s', hs'⟩
    · exact Or.inl fun s h => hs ⟨s, h⟩

theorem any_pyEq_str {xs : List Json} {key : String} :
    (xs.any fun x => Json.pyEq x (.str key)) = true ↔ Json.str key ∈ xs := by
  rw [List.any_eq_true]
  constructor
  · rintro ⟨x, hx, he⟩
    exact Json.pyEq_str_iff.mp he ▸ hx
  · exact fun h => ⟨_, h, Json.pyEq_str_iff.mpr rfl⟩

/-- A number holds no key. -/
theorem linkFromCarrier_truthy {v : Json} (htrue : v.truthy = true)
    (hin : ∀ key, v.contains key = .error .typeError) :
    linkFromCarrier v = .error .typeError := by
  unfold linkFromCarrier lacksIds
  rw [htrue, hin]
  rfl

/-- Either the carrier is harmless, or a `TypeError` escapes. -/
theorem linkFromCarrier_cases (v : Json) :
    HarmlessCarrier v ∧ (∃ links, linkFromCarrier v = .ok links) ∨
      ¬ HarmlessCarrier v ∧ linkFromCarrier v = .error .typeError := by
  have hfalsy : v.truthy = false → ∃ links, linkFromCarrier v = .ok links := fun h =>
    ⟨[], linkFromCarrier_lacking (lacksIds_falsy h)⟩
  cases v with
  | null => exact Or.inl ⟨trivial, hfalsy rfl⟩
  | bool b =>
    cases b with
    | false => exact Or.inl ⟨rfl, hfalsy rfl⟩
    | true => exact Or.inr ⟨by simp [HarmlessCarrier], rfl⟩
  | int n =>
    by_cases hn : n = 0
    · exact Or.inl ⟨hn, hfalsy (by simp [Json.truthy, hn])⟩
    · exact Or.inr ⟨hn, linkFromCarrier_truthy (by simpa [Json.truthy] using hn) fun _ => rfl⟩
  | float f =>
    by_cases hf : f.value = 0
    · exact Or.inl ⟨hf, hfalsy (by simp [Json.truthy, hf])⟩
    · exact Or.inr ⟨hf, linkFromCarrier_truthy (by simpa [Json.truthy] using hf) fun _ => rfl⟩
  | str s =>
    have hlink := linkFromCarrier_unsubscriptable (v := .str s) rfl rfl
      (fun h => by
        have hin := of_decide_eq_true h
        rw [Json.truthy, bne_iff_ne]
        rintro rfl
        exact absurd (List.infix_nil.mp hin) (by decide)) rfl
    rw [hlink, HarmlessCarrier, ← Bool.decide_and]
    by_cases h : "trace_id".toList <:+: s.toList ∧ "span_id".toList <:+: s.toList
    · exact Or.inr ⟨not_not.mpr h, by rw [decide_eq_true h]; rfl⟩
    · exact Or.inl ⟨h, [], by rw [decide_eq_false h]; rfl⟩
  | arr xs =>
    have hlink := linkFromCarrier_unsubscriptable (v := .arr xs) rfl rfl
      (fun h => by
        cases xs with
        | nil => cases h
        | cons x xs => rfl) rfl
    rw [hlink, HarmlessCarrier, ← any_pyEq_str, ← any_pyEq_str, ← Bool.and_eq_true]
    cases (xs.any fun x => Json.pyEq x (.str "trace_id")) &&
      xs.any fun x => Json.pyEq x (.str "span_id") with
    | true => exact Or.inr ⟨by simp, rfl⟩
    | false => exact Or.inl ⟨by simp, [], rfl⟩
  | obj kvs =>
    by_cases hids : ∃ traceId spanId, kvs.lookup "trace_id" = some traceId ∧
        kvs.lookup "span_id" = some spanId
    · obtain ⟨traceId, spanId, ht, hs⟩ := hids
      have hharmless : HarmlessCarrier (.obj kvs) ↔
          ∃ s, traceId = .str s ∧ (IsHex s → ∃ s', spanId = .str s') := by
        simp [HarmlessCarrier, ht, hs]
      rw [linkFromCarrier_obj ht hs, hharmless]
      cases hlinks : linksOf (contextOf traceId spanId) with
      | ok links =>
        refine Or.inl ⟨?_, links, rfl⟩
        by_contra hno
        rw [contextOf_typeError_iff.mpr hno] at hlinks
        cases hlinks
      | error e =>
        obtain ⟨htype, rfl⟩ := linksOf_raises_iff.mp hlinks
        exact Or.inr ⟨contextOf_typeError_iff.mp htype, rfl⟩
    · refine Or.inl ⟨fun t s ht hs => absurd ⟨t, s, ht, hs⟩ hids, [], linkFromCarrier_lacking ?_⟩
      have hlacks := lacksIds_eq (v := .obj kvs) rfl rfl fun h => by
        cases kvs with
        | nil => cases h
        | cons kv kvs => rfl
      have hno : ((kvs.lookup "trace_id").isSome && (kvs.lookup "span_id").isSome) = false := by
        rw [Bool.eq_false_iff, ne_eq, Bool.and_eq_true, Option.isSome_iff_exists,
          Option.isSome_iff_exists]
        rintro ⟨⟨t, ht⟩, s, hs⟩
        exact hids ⟨t, s, ht, hs⟩
      rw [hlacks, hno]
      rfl

/-- A carrier that is not harmless raises a `TypeError`, and no other raises anything. -/
theorem linkFromCarrier_raises_iff {v : Json} {e : BuiltinError} :
    linkFromCarrier v = .error e ↔ e = .typeError ∧ ¬ HarmlessCarrier v := by
  obtain ⟨hharmless, links, hok⟩ | ⟨hno, herr⟩ := linkFromCarrier_cases v
  · simp [hok, hharmless]
  · simp [herr, hno, eq_comm]

theorem linkFromCarrier_length {v : Json} {links : List Link} (h : linkFromCarrier v = .ok links) :
    links.length ≤ 1 := by
  obtain ⟨b, -, h⟩ := bind_ok.mp h
  cases b with
  | true => cases h; simp
  | false => exact linksOf_length h

/-- **A harmless carrier makes one link at most**, and the others raise. -/
theorem linkFromCarrier_returns_iff (v : Json) :
    (∃ links, linkFromCarrier v = .ok links ∧ links.length ≤ 1) ↔ HarmlessCarrier v := by
  obtain ⟨hharmless, links, hok⟩ | ⟨hno, herr⟩ := linkFromCarrier_cases v
  · exact iff_of_true ⟨links, hok, linkFromCarrier_length hok⟩ hharmless
  · simp [herr, hno]

/-- What is linked: two hexadecimal numbers that identify a span. -/
theorem linkFromCarrier_link_iff {v : Json} {link : Link} :
    linkFromCarrier v = .ok [link] ↔ ∃ kvs t s, v = .obj kvs ∧
      kvs.lookup "trace_id" = some (.str t) ∧ kvs.lookup "span_id" = some (.str s) ∧
      HexText (t.toList.map toAscii) link.context.traceId ∧
      HexText (s.toList.map toAscii) link.context.spanId ∧ link.context.isValid = true ∧
      link.context.isRemote = true ∧ link.context.traceFlags = sampled := by
  constructor
  · intro h
    obtain ⟨b, -, h⟩ := bind_ok.mp h
    cases b with
    | true => cases h
    | false =>
      obtain ⟨ctx, hctx, hvalid, rfl⟩ := linksOf_link_iff.mp h
      obtain ⟨_, htItem, h⟩ := bind_ok.mp hctx
      obtain ⟨traceId, htInt, h⟩ := bind_ok.mp h
      obtain ⟨_, hsItem, h⟩ := bind_ok.mp h
      obtain ⟨spanId, hsInt, h⟩ := bind_ok.mp h
      cases h
      obtain ⟨t, rfl, htrace⟩ := intBase16_ok.mp htInt
      obtain ⟨s, rfl, hspan⟩ := intBase16_ok.mp hsInt
      obtain ⟨kvs, rfl, ht⟩ := getItem_ok.mp htItem
      obtain ⟨kvs', he, hs⟩ := getItem_ok.mp hsItem
      cases he
      exact ⟨kvs, t, s, rfl, ht, hs, htrace, hspan, hvalid, rfl, rfl⟩
  · rintro ⟨kvs, t, s, rfl, ht, hs, htrace, hspan, hvalid, hremote, hflags⟩
    have hcontext : contextOf (.str t) (.str s) = .ok link.context := by
      rw [contextOf, intBase16_ok.mpr ⟨t, rfl, htrace⟩, intBase16_ok.mpr ⟨s, rfl, hspan⟩,
        ← hremote, ← hflags]
      rfl
    rw [linkFromCarrier_obj ht hs]
    exact linksOf_link_iff.mpr ⟨link.context, hcontext, hvalid, rfl⟩

example : linkFromCarrier (.obj [("trace_id", .str "0x2A"), ("span_id", .str "1_0")]) =
    .ok [⟨{ traceId := 42, spanId := 16, isRemote := true, traceFlags := sampled }⟩] := by decide

/-! ## What was written is read back -/

theorem carrierForCurrentSpan_some {ctx : SpanContext} (h : ctx.isValid = true) :
    carrierForCurrentSpan ctx = some [("trace_id", .str (pyFormatHex 32 ctx.traceId)),
      ("span_id", .str (pyFormatHex 16 ctx.spanId))] := if_pos h

/-- **The carrier of a valid span decodes to a link to it.** -/
theorem linkFromCarrier_written {ctx : SpanContext} {carrier : JsonObject}
    (h : carrierForCurrentSpan ctx = some carrier) :
    linkFromCarrier (.obj carrier) =
      .ok [⟨{ ctx with isRemote := true, traceFlags := sampled }⟩] := by
  unfold carrierForCurrentSpan at h
  split at h
  swap
  · cases h
  rename_i hvalid
  cases h
  exact linkFromCarrier_link_iff.mpr ⟨_, _, _, rfl, rfl, rfl,
    pyIntBase16_iff.mp (pyIntBase16_format 32 ctx.traceId),
    pyIntBase16_iff.mp (pyIntBase16_format 16 ctx.spanId), hvalid, rfl, rfl⟩

end ControlPlane

import Mathlib.Data.String.Basic
import Mathlib.Algebra.Order.Ring.Rat

/-! # What the model takes from Python and JSON

Python's text functions range over Unicode tables; the model keeps the three it
uses as parameters, with the laws the code relies on. `lower` is idempotent, and
lowering a stripped string leaves nothing to strip and something of every string
but the empty one. -/

namespace ControlPlane

class PyText where
  strip : String → String
  lower : String → String
  /-- `repr(s)`, as an error message quotes a name. -/
  repr : String → String
  lower_lower : ∀ s, lower (lower s) = lower s
  strip_lower_strip : ∀ s, strip (lower (strip s)) = lower (strip s)
  lower_ne_empty : ∀ s, s ≠ "" → lower s ≠ ""

/-- The three functions on text without blanks, capitals or quotes. -/
@[reducible] def PyText.plain : PyText where
  strip := id
  lower := id
  repr s := "'" ++ s ++ "'"
  lower_lower _ := rfl
  strip_lower_strip _ := rfl
  lower_ne_empty _ h := h

/-- A Python float: its value, and the decimal number that `repr` writes for it.
From `10 ^ 16` on that is a whole number. -/
structure PyFloat where
  value : ℚ
  written : ℚ
  whole : 10 ^ 16 ≤ |written| → written.den = 1
  deriving DecidableEq

/-- JSON values, as `json.loads` reads them. -/
inductive Json where
  | null
  | bool (b : Bool)
  | int (n : ℤ)
  | float (f : PyFloat)
  | str (s : String)
  | arr (xs : List Json)
  | obj (kvs : List (String × Json))

/-- A JSON object: a Python dict with text keys. -/
abbrev JsonObject := List (String × Json)

/-- The value of a number; `True` and `False` are numbers. -/
def Json.number? : Json → Option ℚ
  | .bool b => some (if b then 1 else 0)
  | .int n => some n
  | .float f => some f.value
  | _ => none

mutual

/-- Python's `==` on decoded JSON: numbers compare by value, `True == 1`, and dicts
compare by key. -/
def Json.pyEq : Json → Json → Bool
  | .null, .null => true
  | .str a, .str b => a == b
  | .arr xs, .arr ys => Json.pyEqList xs ys
  | .obj kvs, .obj kvs' => kvs.length == kvs'.length && Json.pyEqFields kvs kvs'
  | x, y => x.number?.isSome && x.number? == y.number?

def Json.pyEqList : List Json → List Json → Bool
  | [], [] => true
  | x :: xs, y :: ys => Json.pyEq x y && Json.pyEqList xs ys
  | _, _ => false

def Json.pyEqFields : List (String × Json) → List (String × Json) → Bool
  | [], _ => true
  | (k, v) :: kvs, kvs' =>
    (match kvs'.lookup k with
      | some v' => Json.pyEq v v'
      | none => false) && Json.pyEqFields kvs kvs'

end

theorem Json.pyEq_str_iff {x : Json} {s : String} : Json.pyEq x (.str s) = true ↔ x = .str s := by
  cases x <;> simp [Json.pyEq, Json.number?]

mutual

/-- A dict has each key once, at every depth. -/
def Json.WellFormed : Json → Prop
  | .arr xs => Json.WellFormedList xs
  | .obj kvs => (kvs.map Prod.fst).Nodup ∧ Json.WellFormedFields kvs
  | _ => True

def Json.WellFormedList : List Json → Prop
  | [] => True
  | x :: xs => Json.WellFormed x ∧ Json.WellFormedList xs

def Json.WellFormedFields : List (String × Json) → Prop
  | [] => True
  | (_, v) :: kvs => Json.WellFormed v ∧ Json.WellFormedFields kvs

end

theorem lookup_of_mem {kvs : List (String × Json)} (hnodup : (kvs.map Prod.fst).Nodup) {k : String}
    {v : Json} (h : (k, v) ∈ kvs) : kvs.lookup k = some v := by
  induction kvs with
  | nil => cases h
  | cons kv kvs ih =>
    rw [List.map_cons, List.nodup_cons] at hnodup
    rcases List.mem_cons.mp h with rfl | htail
    · rw [List.lookup_cons_self]
    · have hne : (k == kv.1) = false := by
        rw [beq_eq_false_iff_ne]
        rintro rfl
        exact hnodup.1 (List.mem_map.mpr ⟨_, htail, rfl⟩)
      rw [List.lookup_cons, hne]
      exact ih hnodup.2 htail

mutual

/-- A value that Python can hold equals itself. -/
theorem Json.pyEq_refl : ∀ x : Json, x.WellFormed → Json.pyEq x x = true
  | .null, _ => by simp [Json.pyEq]
  | .bool b, _ => by simp [Json.pyEq, Json.number?]
  | .int n, _ => by simp [Json.pyEq, Json.number?]
  | .float f, _ => by simp [Json.pyEq, Json.number?]
  | .str s, _ => by simp [Json.pyEq]
  | .arr xs, h => by
    rw [Json.pyEq]
    exact Json.pyEqList_refl xs h
  | .obj kvs, h => by
    rw [Json.pyEq, beq_self_eq_true, Bool.true_and]
    exact Json.pyEqFields_refl kvs kvs h.2 fun _ _ hm => lookup_of_mem h.1 hm

theorem Json.pyEqList_refl : ∀ xs : List Json, Json.WellFormedList xs → Json.pyEqList xs xs = true
  | [], _ => by simp [Json.pyEqList]
  | x :: xs, h => by
    rw [Json.pyEqList, Json.pyEq_refl x h.1, Json.pyEqList_refl xs h.2]
    rfl

theorem Json.pyEqFields_refl : ∀ kvs kvs' : List (String × Json), Json.WellFormedFields kvs →
    (∀ k v, (k, v) ∈ kvs → kvs'.lookup k = some v) → Json.pyEqFields kvs kvs' = true
  | [], _, _, _ => by simp [Json.pyEqFields]
  | (k, v) :: kvs, kvs', h, hlookup => by
    rw [Json.pyEqFields, hlookup k v (by simp)]
    dsimp only
    rw [Json.pyEq_refl v h.1, Bool.true_and]
    exact Json.pyEqFields_refl kvs kvs' h.2 fun k v hm => hlookup k v (by simp [hm])

end

mutual

/-- Equality of stored documents. -/
def Json.same : Json → Json → Bool
  | .null, .null => true
  | .bool a, .bool b => a == b
  | .int a, .int b => a == b
  | .float a, .float b => a == b
  | .str a, .str b => a == b
  | .arr xs, .arr ys => Json.sameList xs ys
  | .obj kvs, .obj kvs' => Json.sameFields kvs kvs'
  | _, _ => false

def Json.sameList : List Json → List Json → Bool
  | [], [] => true
  | x :: xs, y :: ys => Json.same x y && Json.sameList xs ys
  | _, _ => false

def Json.sameFields : List (String × Json) → List (String × Json) → Bool
  | [], [] => true
  | (k, v) :: kvs, (k', v') :: kvs' => k == k' && Json.same v v' && Json.sameFields kvs kvs'
  | _, _ => false

end

mutual

theorem Json.same_iff : ∀ x y : Json, Json.same x y = true ↔ x = y
  | .null, y => by cases y <;> simp [Json.same]
  | .bool a, y => by cases y <;> simp [Json.same]
  | .int a, y => by cases y <;> simp [Json.same]
  | .float a, y => by cases y <;> simp [Json.same]
  | .str a, y => by cases y <;> simp [Json.same]
  | .arr xs, y => by
    cases y with
    | arr ys => simp [Json.same, Json.sameList_iff xs ys]
    | _ => simp [Json.same]
  | .obj kvs, y => by
    cases y with
    | obj kvs' => simp [Json.same, Json.sameFields_iff kvs kvs']
    | _ => simp [Json.same]

theorem Json.sameList_iff : ∀ xs ys : List Json, Json.sameList xs ys = true ↔ xs = ys
  | [], ys => by cases ys <;> simp [Json.sameList]
  | x :: xs, ys => by
    cases ys with
    | nil => simp [Json.sameList]
    | cons y ys => simp [Json.sameList, Json.same_iff x y, Json.sameList_iff xs ys]

theorem Json.sameFields_iff : ∀ kvs kvs' : List (String × Json),
    Json.sameFields kvs kvs' = true ↔ kvs = kvs'
  | [], kvs' => by cases kvs' <;> simp [Json.sameFields]
  | (k, v) :: kvs, kvs' => by
    cases kvs' with
    | nil => simp [Json.sameFields]
    | cons kv' kvs' =>
      simp [Json.sameFields, Json.same_iff v kv'.2, Json.sameFields_iff kvs kvs', Prod.ext_iff]

end

instance instDecidableEqJson : DecidableEq Json := fun x y =>
  decidable_of_iff (Json.same x y = true) (Json.same_iff x y)

/-- `d[key] = value`. -/
def JsonObject.set (d : JsonObject) (key : String) (value : Json) : JsonObject :=
  if d.any fun kv => kv.1 == key then d.map fun kv => if kv.1 == key then (key, value) else kv
  else d ++ [(key, value)]

theorem JsonObject.lookup_set (d : JsonObject) (key : String) (value : Json) :
    (d.set key value).lookup key = some value := by
  unfold JsonObject.set
  split
  · rename_i hany
    induction d with
    | nil => cases hany
    | cons kv d ih =>
      rw [List.map_cons]
      by_cases hk : kv.1 = key
      · simp [hk]
      · have hrest : d.any (fun kv => kv.1 == key) = true := by simpa [hk] using hany
        have hne : (key == kv.1) = false := beq_eq_false_iff_ne.mpr (Ne.symm hk)
        rw [if_neg (by simpa using hk), List.lookup_cons, hne]
        exact ih hrest
  · rename_i hnone
    induction d with
    | nil => simp
    | cons kv d ih =>
      simp only [List.any_cons, Bool.or_eq_true, beq_iff_eq, not_or] at hnone
      have hne : (key == kv.1) = false := beq_eq_false_iff_ne.mpr (Ne.symm hnone.1)
      rw [List.cons_append, List.lookup_cons, hne]
      exact ih hnone.2

theorem Json.WellFormedFields.filter (p : String × Json → Bool) :
    ∀ {kvs : List (String × Json)}, Json.WellFormedFields kvs → Json.WellFormedFields (kvs.filter p)
  | [], _ => trivial
  | (k, v) :: kvs, h => by
    rw [List.filter_cons]
    split
    · exact ⟨h.1, h.2.filter p⟩
    · exact h.2.filter p

/-- What a comprehension keeps of a dict is a dict. -/
theorem Json.WellFormed.filter {kvs : JsonObject} (h : (Json.obj kvs).WellFormed)
    (p : String × Json → Bool) : (Json.obj (kvs.filter p)).WellFormed := by
  refine ⟨?_, h.2.filter p⟩
  exact h.1.sublist (List.filter_sublist.map Prod.fst)

/-- What was set under a key is gone with the key. -/
theorem JsonObject.filter_set (d : JsonObject) (key : String) (value : Json) :
    (d.set key value).filter (fun kv => kv.1 != key) = d.filter fun kv => kv.1 != key := by
  unfold JsonObject.set
  split
  · clear * -
    induction d with
    | nil => rfl
    | cons kv d ih =>
      rw [List.map_cons]
      by_cases hk : kv.1 = key
      · simpa [hk] using ih
      · simpa [hk] using ih
  · simp

/-- `f"{w!r}"` of an optional name. -/
def pyReprOption [PyText] : Option String → String
  | none => "None"
  | some s => PyText.repr s

/-! ## What PostgreSQL keeps -/

/-- PostgreSQL's text holds every character but NUL. -/
def storableText (s : String) : Bool := s.toList.all (· != Char.ofNat 0)

mutual

/-- JSONB accepts the value: its texts, keys included, are PostgreSQL's. -/
def Json.storable : Json → Bool
  | .str s => storableText s
  | .arr xs => Json.storableList xs
  | .obj kvs => Json.storableFields kvs
  | _ => true

def Json.storableList : List Json → Bool
  | [] => true
  | x :: xs => Json.storable x && Json.storableList xs

def Json.storableFields : List (String × Json) → Bool
  | [] => true
  | (k, v) :: kvs => storableText k && Json.storable v && Json.storableFields kvs

end

theorem Json.storableFields_nil : Json.storableFields [] = true := rfl

/-- What an assignment stores apart, the dict decides whether it can be stored. -/
theorem Json.storableFields_set (d : JsonObject) (key : String) {value value' : Json}
    (h : value.storable = value'.storable) :
    Json.storableFields (d.set key value) = Json.storableFields (d.set key value') := by
  unfold JsonObject.set
  split
  · clear * - h
    induction d with
    | nil => rfl
    | cons kv d ih =>
      rw [List.map_cons, List.map_cons]
      split <;> simp only [Json.storableFields, ih, h]
  · clear * - h
    induction d with
    | nil => simp only [List.nil_append, Json.storableFields, h]
    | cons kv d ih => simp only [List.cons_append, Json.storableFields, ih]

/-- A dict that can be stored stays so under such an assignment. -/
theorem Json.storableFields_set_of {d : JsonObject} (hd : Json.storableFields d = true)
    {key : String} (hkey : storableText key = true) {value : Json} (h : value.storable = true) :
    Json.storableFields (d.set key value) = true := by
  unfold JsonObject.set
  split
  · clear * - hd hkey h
    induction d with
    | nil => rfl
    | cons kv d ih =>
      simp only [Json.storableFields, Bool.and_eq_true] at hd
      rw [List.map_cons]
      split <;> simp only [Json.storableFields, ih hd.2, hkey, h, hd.1, Bool.and_self]
  · clear * - hd hkey h
    induction d with
    | nil => simp only [List.nil_append, Json.storableFields, hkey, h, Bool.and_self]
    | cons kv d ih =>
      simp only [Json.storableFields, Bool.and_eq_true] at hd
      simp only [List.cons_append, Json.storableFields, hd.1, ih hd.2, Bool.and_self]

mutual

/-- The value that is read back. JSONB keeps the decimal number `json.dumps` has
written and prints it without an exponent: from `10 ^ 16` on, where `repr` uses one,
a float comes back as an integer. -/
def Json.jsonb : Json → Json
  | .float f => if |f.written| < 10 ^ 16 then .float f else .int f.written.num
  | .arr xs => .arr (Json.jsonbList xs)
  | .obj kvs => .obj (Json.jsonbFields kvs)
  | x => x

def Json.jsonbList : List Json → List Json
  | [] => []
  | x :: xs => Json.jsonb x :: Json.jsonbList xs

def Json.jsonbFields : List (String × Json) → List (String × Json)
  | [] => []
  | (k, v) :: kvs => (k, Json.jsonb v) :: Json.jsonbFields kvs

end

mutual

/-- Every large float in the value is the number that is written for it. -/
def Json.Exact : Json → Prop
  | .float f => 10 ^ 16 ≤ |f.written| → f.written = f.value
  | .arr xs => Json.ExactList xs
  | .obj kvs => Json.ExactFields kvs
  | _ => True

def Json.ExactList : List Json → Prop
  | [] => True
  | x :: xs => Json.Exact x ∧ Json.ExactList xs

def Json.ExactFields : List (String × Json) → Prop
  | [] => True
  | (_, v) :: kvs => Json.Exact v ∧ Json.ExactFields kvs

end

theorem Json.jsonbFields_keys : ∀ kvs : List (String × Json),
    (Json.jsonbFields kvs).map Prod.fst = kvs.map Prod.fst
  | [] => rfl
  | (k, v) :: kvs => by simp [Json.jsonbFields, Json.jsonbFields_keys kvs]

theorem Json.jsonbFields_length (kvs : List (String × Json)) :
    (Json.jsonbFields kvs).length = kvs.length := by
  have h := congrArg List.length (Json.jsonbFields_keys kvs)
  rwa [List.length_map, List.length_map] at h

theorem Json.jsonbFields_lookup (key : String) : ∀ kvs : List (String × Json),
    (Json.jsonbFields kvs).lookup key = (kvs.lookup key).map Json.jsonb
  | [] => rfl
  | (k, v) :: kvs => by
    rw [Json.jsonbFields, List.lookup_cons, List.lookup_cons, Json.jsonbFields_lookup key kvs]
    cases key == k <;> rfl

mutual

/-- Reading back changes no text. -/
theorem Json.storable_jsonb : ∀ x : Json, x.jsonb.storable = x.storable
  | .null | .bool _ | .int _ | .str _ => rfl
  | .float f => by
    unfold Json.jsonb
    split <;> rfl
  | .arr xs => by simp only [Json.jsonb, Json.storable, Json.storableList_jsonb xs]
  | .obj kvs => by simp only [Json.jsonb, Json.storable, Json.storableFields_jsonb kvs]

theorem Json.storableList_jsonb : ∀ xs : List Json,
    Json.storableList (Json.jsonbList xs) = Json.storableList xs
  | [] => rfl
  | x :: xs => by
    simp only [Json.jsonbList, Json.storableList, Json.storable_jsonb x, Json.storableList_jsonb xs]

theorem Json.storableFields_jsonb : ∀ kvs : List (String × Json),
    Json.storableFields (Json.jsonbFields kvs) = Json.storableFields kvs
  | [] => rfl
  | (k, v) :: kvs => by
    simp only [Json.jsonbFields, Json.storableFields, Json.storable_jsonb v,
      Json.storableFields_jsonb kvs]

end

/-- Fields are chosen by their keys. -/
theorem Json.jsonbFields_filter (p : String → Bool) : ∀ kvs : List (String × Json),
    (Json.jsonbFields kvs).filter (fun kv => p kv.1) =
      Json.jsonbFields (kvs.filter fun kv => p kv.1)
  | [] => rfl
  | (k, v) :: kvs => by
    rw [Json.jsonbFields, List.filter_cons, List.filter_cons, Json.jsonbFields_filter p kvs]
    cases p k <;> rfl

mutual

/-- **A value equals what is read back of it exactly where its large floats are the
numbers written for them.** -/
theorem Json.pyEq_jsonb_iff : ∀ x : Json, x.WellFormed → (Json.pyEq x.jsonb x = true ↔ x.Exact)
  | .null, _ => by simp [Json.jsonb, Json.pyEq, Json.Exact]
  | .bool b, _ => by simp [Json.jsonb, Json.pyEq, Json.number?, Json.Exact]
  | .int n, _ => by simp [Json.jsonb, Json.pyEq, Json.number?, Json.Exact]
  | .str s, _ => by simp [Json.jsonb, Json.pyEq, Json.Exact]
  | .float f, _ => by
    unfold Json.jsonb Json.Exact
    split
    · rename_i hsmall
      simp [Json.pyEq, Json.number?, not_le.mpr hsmall]
    · rename_i hlarge
      have hnum : (f.written.num : ℚ) = f.written :=
        Rat.coe_int_num_of_den_eq_one (f.whole (not_lt.mp hlarge))
      simp [Json.pyEq, Json.number?, hnum, not_lt.mp hlarge]
  | .arr xs, h => by
    rw [Json.jsonb, Json.pyEq, Json.Exact]
    exact Json.pyEqList_jsonb_iff xs h
  | .obj kvs, h => by
    rw [Json.jsonb, Json.pyEq, Json.Exact, Json.jsonbFields_length, beq_self_eq_true, Bool.true_and]
    exact Json.pyEqFields_jsonb_iff kvs kvs h.2 fun _ _ hm => lookup_of_mem h.1 hm

theorem Json.pyEqList_jsonb_iff : ∀ xs : List Json, Json.WellFormedList xs →
    (Json.pyEqList (Json.jsonbList xs) xs = true ↔ Json.ExactList xs)
  | [], _ => by simp [Json.jsonbList, Json.pyEqList, Json.ExactList]
  | x :: xs, h => by
    rw [Json.jsonbList, Json.pyEqList, Json.ExactList, Bool.and_eq_true,
      Json.pyEq_jsonb_iff x h.1, Json.pyEqList_jsonb_iff xs h.2]

theorem Json.pyEqFields_jsonb_iff : ∀ kvs kvs' : List (String × Json),
    Json.WellFormedFields kvs → (∀ k v, (k, v) ∈ kvs → kvs'.lookup k = some v) →
    (Json.pyEqFields (Json.jsonbFields kvs) kvs' = true ↔ Json.ExactFields kvs)
  | [], _, _, _ => by simp [Json.jsonbFields, Json.pyEqFields, Json.ExactFields]
  | (k, v) :: kvs, kvs', h, hlookup => by
    have htail := Json.pyEqFields_jsonb_iff kvs kvs' h.2 fun k v hm => hlookup k v (by simp [hm])
    rw [Json.jsonbFields, Json.pyEqFields, hlookup k v (by simp)]
    dsimp only
    rw [Json.ExactFields, Bool.and_eq_true, Json.pyEq_jsonb_iff v h.1, htail]

end

end ControlPlane

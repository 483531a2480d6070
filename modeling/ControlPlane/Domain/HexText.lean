import Mathlib.Data.List.DropRight
import ControlPlane.Lib.Numerals

/-! # `int(s, 16)` and `format(n, "0…x")`

Python reads an integer with blanks around it, a sign, the marker `0x`, and single
underscores between the digits; blanks and decimal digits may be any of Unicode's.
The tables are those of Unicode 15.0, which Python 3.12 has. -/

namespace ControlPlane
open Numerals

/-! ## Characters -/

/-- The zeros of Unicode: nine more decimal digits follow each. -/
def unicodeZeros : List Nat :=
  [0x30, 0x660, 0x6f0, 0x7c0, 0x966, 0x9e6, 0xa66, 0xae6, 0xb66, 0xbe6, 0xc66, 0xce6, 0xd66, 0xde6,
   0xe50, 0xed0, 0xf20, 0x1040, 0x1090, 0x17e0, 0x1810, 0x1946, 0x19d0, 0x1a80, 0x1a90, 0x1b50,
   0x1bb0, 0x1c40, 0x1c50, 0xa620, 0xa8d0, 0xa900, 0xa9d0, 0xa9f0, 0xaa50, 0xabf0, 0xff10, 0x104a0,
   0x10d30, 0x11066, 0x110f0, 0x11136, 0x111d0, 0x112f0, 0x11450, 0x114d0, 0x11650, 0x116c0,
   0x11730, 0x118e0, 0x11950, 0x11c50, 0x11d50, 0x11da0, 0x11f50, 0x16a60, 0x16ac0, 0x16b50,
   0x1d7ce, 0x1d7d8, 0x1d7e2, 0x1d7ec, 0x1d7f6, 0x1e140, 0x1e2f0, 0x1e4f0, 0x1e950, 0x1fbf0]

def unicodeDecimal (c : Char) : Option Nat :=
  (unicodeZeros.find? fun z => decide (z ≤ c.toNat ∧ c.toNat < z + 10)).map (c.toNat - ·)

/-- The blanks of Unicode beyond ASCII. -/
def unicodeSpace (c : Char) : Bool :=
  [0x85, 0xa0, 0x1680, 0x2028, 0x2029, 0x202f, 0x205f, 0x3000].contains c.toNat ||
    decide (0x2000 ≤ c.toNat ∧ c.toNat ≤ 0x200a)

/-- Decimal digits and blanks to their ASCII, as a text is before it is read. -/
def toAscii (c : Char) : Char :=
  if c.toNat < 127 then c
  else if unicodeSpace c then ' '
  else match unicodeDecimal c with
    | some d => d.digitChar
    | none => '?'

def asciiSpace (c : Char) : Bool := c.toNat == 0x20 || decide (0x9 ≤ c.toNat ∧ c.toNat ≤ 0xd)

def hexDigitValue (c : Char) : Option Nat :=
  if 48 ≤ c.toNat ∧ c.toNat ≤ 57 then some (c.toNat - 48)
  else if 97 ≤ c.toNat ∧ c.toNat ≤ 102 then some (c.toNat - 87)
  else if 65 ≤ c.toNat ∧ c.toNat ≤ 70 then some (c.toNat - 55)
  else none

theorem hexDigitValue_digitChar : ∀ d < 16, hexDigitValue d.digitChar = some d := by decide

/-- A digit is none of the other characters that the reader knows. -/
theorem hexDigit_shape {c : Char} {d : Nat} (h : hexDigitValue c = some d) :
    c.toNat < 127 ∧ asciiSpace c = false ∧ c ≠ '+' ∧ c ≠ '-' ∧ c ≠ '_' ∧ c ≠ 'x' ∧ c ≠ 'X' := by
  have hrange : (48 ≤ c.toNat ∧ c.toNat ≤ 57) ∨ (97 ≤ c.toNat ∧ c.toNat ≤ 102) ∨
      (65 ≤ c.toNat ∧ c.toNat ≤ 70) := by
    unfold hexDigitValue at h
    split at h
    · exact Or.inl ‹_›
    · split at h
      · exact Or.inr (Or.inl ‹_›)
      · split at h
        · exact Or.inr (Or.inr ‹_›)
        · cases h
  have hne : ∀ b : Char, hexDigitValue b = none → c ≠ b := by
    rintro b hb rfl
    rw [hb] at h
    cases h
  refine ⟨by omega, ?_, hne _ rfl, hne _ rfl, hne _ rfl, hne _ rfl, hne _ rfl⟩
  simp only [asciiSpace, Bool.or_eq_false_iff, beq_eq_false_iff_ne, decide_eq_false_iff_not]
  omega

def hexadecimal : Alphabet Char where
  base := 16
  digit := hexDigitValue
  separates c := c == '_'
  not_both c h := by
    obtain rfl := eq_of_beq h
    rfl

/-! ## Reading -/

/-- `0x`, with one underscore after it. -/
def afterMarker : List Char → List Char
  | '0' :: 'x' :: '_' :: cs => cs
  | '0' :: 'X' :: '_' :: cs => cs
  | '0' :: 'x' :: cs => cs
  | '0' :: 'X' :: cs => cs
  | cs => cs

def hexMagnitude (cs : List Char) : Option Nat :=
  hexadecimal.read ((afterMarker cs).rdropWhile asciiSpace)

/-- `int(s, 16)`; `none` stands for the ValueError. -/
def pyIntBase16 (s : String) : Option Int :=
  match (s.toList.map toAscii).dropWhile asciiSpace with
  | '+' :: cs => (hexMagnitude cs).map Int.ofNat
  | '-' :: cs => (hexMagnitude cs).map fun n => -Int.ofNat n
  | cs => (hexMagnitude cs).map Int.ofNat

/-- The markers a hexadecimal number may begin with. -/
def hexMarkers : List (List Char) := [[], ['0', 'x'], ['0', 'X'], ['0', 'x', '_'], ['0', 'X', '_']]

/-- Digits with single underscores between them, after a marker if any, and blanks. -/
inductive HexBody : List Char → Nat → Prop
  | mk {marker digits blanks : List Char} {n : Nat} (hmarker : marker ∈ hexMarkers)
      (hdigits : hexadecimal.Writes digits n) (hblanks : ∀ c ∈ blanks, asciiSpace c = true) :
      HexBody (marker ++ digits ++ blanks) n

/-- The text is a hexadecimal number: blanks, a sign if any, and the body. -/
inductive HexText : List Char → Int → Prop
  | unsigned {blanks body : List Char} {n : Nat} (hblanks : ∀ c ∈ blanks, asciiSpace c = true)
      (hbody : HexBody body n) : HexText (blanks ++ body) n
  | plus {blanks body : List Char} {n : Nat} (hblanks : ∀ c ∈ blanks, asciiSpace c = true)
      (hbody : HexBody body n) : HexText (blanks ++ '+' :: body) n
  | minus {blanks body : List Char} {n : Nat} (hblanks : ∀ c ∈ blanks, asciiSpace c = true)
      (hbody : HexBody body n) : HexText (blanks ++ '-' :: body) (-n)

theorem hexadecimal_ne_x {c : Char} (h : (∃ d, hexadecimal.digit c = some d) ∨
    hexadecimal.separates c = true) : c ≠ 'x' ∧ c ≠ 'X' := by
  obtain ⟨d, hd⟩ | hs := h
  · obtain ⟨-, -, -, -, -, hx, hX⟩ := hexDigit_shape hd
    exact ⟨hx, hX⟩
  · obtain rfl : c = '_' := eq_of_beq hs
    exact ⟨by decide, by decide⟩

theorem asciiSpace_ne_x {c : Char} (h : asciiSpace c = true) : c ≠ 'x' ∧ c ≠ 'X' := by
  constructor <;> (rintro rfl; cases h)

/-- Where no `x` follows the first character, there is no marker. -/
theorem afterMarker_eq {cs : List Char} (h : ∀ c ∈ cs, c ≠ 'x' ∧ c ≠ 'X') : afterMarker cs = cs := by
  unfold afterMarker
  split
  · exact absurd rfl (h 'x' (by simp)).1
  · exact absurd rfl (h 'X' (by simp)).2
  · exact absurd rfl (h 'x' (by simp)).1
  · exact absurd rfl (h 'X' (by simp)).2
  · rfl

theorem afterMarker_append {marker cs : List Char} {c : Char} (hmarker : marker ∈ hexMarkers)
    (hx : ∀ b ∈ c :: cs, b ≠ 'x' ∧ b ≠ 'X') (hc : c ≠ '_') :
    afterMarker (marker ++ c :: cs) = c :: cs := by
  simp only [hexMarkers, List.mem_cons, List.not_mem_nil, or_false] at hmarker
  rcases hmarker with rfl | rfl | rfl | rfl | rfl
  · exact afterMarker_eq hx
  · simp [afterMarker, hc]
  · simp [afterMarker, hc]
  · rfl
  · rfl

theorem marker_afterMarker (cs : List Char) :
    ∃ marker ∈ hexMarkers, cs = marker ++ afterMarker cs := by
  unfold afterMarker
  split
  · exact ⟨['0', 'x', '_'], by decide, rfl⟩
  · exact ⟨['0', 'X', '_'], by decide, rfl⟩
  · exact ⟨['0', 'x'], by decide, rfl⟩
  · exact ⟨['0', 'X'], by decide, rfl⟩
  · exact ⟨[], by decide, rfl⟩

theorem hexMagnitude_iff {cs : List Char} {n : Nat} : hexMagnitude cs = some n ↔ HexBody cs n := by
  unfold hexMagnitude
  rw [Alphabet.read_iff]
  constructor
  · intro h
    obtain ⟨marker, hmarker, hcs⟩ := marker_afterMarker cs
    have hblanks : ∀ c ∈ (afterMarker cs).rtakeWhile asciiSpace, asciiSpace c = true :=
      fun c hc => List.mem_rtakeWhile_imp hc
    have hbody := HexBody.mk hmarker h hblanks
    rwa [List.append_assoc, List.rdropWhile_append_rtakeWhile, ← hcs] at hbody
  · rintro ⟨hmarker, hdigits, hblanks⟩
    rename_i marker digits blanks
    obtain ⟨c, d, rest, hfirst, hc⟩ := hdigits.exists_cons
    obtain ⟨e, d', rest', hlast, he⟩ := hdigits.exists_last
    have hx : ∀ b ∈ digits ++ blanks, b ≠ 'x' ∧ b ≠ 'X' := by
      intro b hb
      rcases List.mem_append.mp hb with hb | hb
      · exact hexadecimal_ne_x (hdigits.symbols b hb)
      · exact asciiSpace_ne_x (hblanks b hb)
    have hafter : afterMarker (marker ++ (digits ++ blanks)) = digits ++ blanks := by
      rw [hfirst] at hx ⊢
      exact afterMarker_append hmarker hx (hexDigit_shape hc).2.2.2.2.1
    have htrail : (digits ++ blanks).rdropWhile asciiSpace = digits := by
      rw [List.rdropWhile, List.reverse_append,
        List.dropWhile_append_of_pos fun b hb => hblanks b (List.mem_reverse.mp hb), hlast]
      simp [(hexDigit_shape he).2.1]
    rw [List.append_assoc, hafter, htrail]
    exact hdigits

/-- A body begins with a digit: the marker's zero is one. -/
theorem HexBody.exists_cons {cs : List Char} {n : Nat} (h : HexBody cs n) :
    ∃ c d rest, cs = c :: rest ∧ hexDigitValue c = some d := by
  obtain ⟨hmarker, hdigits, hblanks⟩ := h
  simp only [hexMarkers, List.mem_cons, List.not_mem_nil, or_false] at hmarker
  rcases hmarker with rfl | rfl | rfl | rfl | rfl
  · obtain ⟨c, d, rest, rfl, hd⟩ := hdigits.exists_cons
    exact ⟨c, d, _, rfl, hd⟩
  all_goals exact ⟨'0', 0, _, rfl, rfl⟩

theorem dropWhile_blanks {blanks rest : List Char} {c : Char}
    (hblanks : ∀ b ∈ blanks, asciiSpace b = true) (hc : asciiSpace c = false) :
    (blanks ++ c :: rest).dropWhile asciiSpace = c :: rest := by
  rw [List.dropWhile_append_of_pos hblanks, List.dropWhile_cons, hc]
  rfl

/-- **`int(s, 16)` accepts hexadecimal numbers**, for their value, and nothing else. -/
theorem pyIntBase16_iff {s : String} {n : Int} :
    pyIntBase16 s = some n ↔ HexText (s.toList.map toAscii) n := by
  unfold pyIntBase16
  generalize s.toList.map toAscii = text
  constructor
  · intro h
    have hblanks : ∀ c ∈ text.takeWhile asciiSpace, asciiSpace c = true := fun c hc =>
      List.mem_takeWhile_imp hc
    rw [← List.takeWhile_append_dropWhile (p := asciiSpace) (l := text)]
    split at h <;> obtain ⟨m, hm, rfl⟩ := Option.map_eq_some_iff.mp h
    · rename_i hsign
      rw [hsign]
      exact .plus hblanks (hexMagnitude_iff.mp hm)
    · rename_i hsign
      rw [hsign]
      exact .minus hblanks (hexMagnitude_iff.mp hm)
    · exact .unsigned hblanks (hexMagnitude_iff.mp hm)
  · intro h
    cases h with
    | @unsigned blanks body n hblanks hbody =>
      obtain ⟨c, d, rest, rfl, hd⟩ := hbody.exists_cons
      obtain ⟨-, hspace, hplus, hminus, -⟩ := hexDigit_shape hd
      rw [dropWhile_blanks hblanks hspace]
      split
      · rename_i he; exact absurd (List.cons.inj he).1 hplus
      · rename_i he; exact absurd (List.cons.inj he).1 hminus
      · rw [hexMagnitude_iff.mpr hbody]
        rfl
    | plus hblanks hbody =>
      rw [dropWhile_blanks hblanks rfl]
      show (hexMagnitude _).map _ = _
      rw [hexMagnitude_iff.mpr hbody]
      rfl
    | minus hblanks hbody =>
      rw [dropWhile_blanks hblanks rfl]
      show (hexMagnitude _).map _ = _
      rw [hexMagnitude_iff.mpr hbody]
      rfl

example : pyIntBase16 " -0X_2a\n" = some (-42) := by decide
example : pyIntBase16 "2__a" = none := by decide

/-! ## Writing -/

/-- `format(n, "0<width>x")`. -/
def pyFormatHex (width : Nat) : Int → String
  | .ofNat m => String.ofList ((Nat.toDigits 16 m).leftpad width '0')
  | .negSucc m => String.ofList ('-' :: (Nat.toDigits 16 (m + 1)).leftpad (width - 1) '0')

theorem padded_writes (width n : Nat) :
    hexadecimal.Writes ((Nat.toDigits 16 n).leftpad width '0') n :=
  (Alphabet.writes_toDigits (A := hexadecimal) (by decide) hexDigitValue_digitChar n).leftpad rfl
    width

theorem HexBody.of_digits {cs : List Char} {n : Nat} (h : hexadecimal.Writes cs n) : HexBody cs n := by
  have hbody : HexBody ([] ++ cs ++ []) n := .mk (by decide) h fun c hc => by cases hc
  rwa [List.nil_append, List.append_nil] at hbody

theorem toAscii_digits {cs : List Char} {n : Nat} (h : hexadecimal.Writes cs n) :
    cs.map toAscii = cs := by
  have hascii : ∀ c ∈ cs, toAscii c = c := by
    intro c hc
    refine if_pos ?_
    obtain ⟨d, hd⟩ | hs := h.symbols c hc
    · exact (hexDigit_shape hd).1
    · obtain rfl : c = '_' := eq_of_beq hs
      decide
  exact (List.map_congr_left hascii).trans (List.map_id cs)

/-- **What was formatted reads back**, in any width. -/
theorem pyIntBase16_format (width : Nat) (n : Int) : pyIntBase16 (pyFormatHex width n) = some n := by
  rw [pyIntBase16_iff]
  cases n with
  | ofNat m =>
    have hdigits := padded_writes width m
    unfold pyFormatHex
    rw [String.toList_ofList, toAscii_digits hdigits]
    exact @HexText.unsigned [] _ m (fun c hc => by cases hc) (.of_digits hdigits)
  | negSucc m =>
    have hdigits := padded_writes (width - 1) (m + 1)
    unfold pyFormatHex
    rw [String.toList_ofList, List.map_cons, toAscii_digits hdigits]
    exact @HexText.minus [] _ (m + 1) (fun c hc => by cases hc) (.of_digits hdigits)

end ControlPlane

import Mathlib.Data.List.Basic
import Mathlib.Tactic

/-!
Encodings in text: base64 with the alphabet for URLs and without padding, and numerals in a base as
Python's `int` reads them.

Texts are lists of code points.

* `base64`, `length_base64`, `mem_base64`, `base64_inj`: three bytes become four letters; the code
  is injective.
* `parseInt`: spaces around it, a sign, the letters of the base, and digits with single underscores
  between them.
* `parseInt_of_digits`: a text of digits is read as its value.
* `removeAll`, `removeAll_of_notMem`: `str.replace` by the empty text.
* `splitOn_eq_iff`: what splitting at a character gives.
-/

namespace Encodings

/-! ### Base64 -/

/-- The letter of six bits. -/
def base64Letter (v : ℕ) : ℕ :=
  if v < 26 then 65 + v
  else if v < 52 then 71 + v
  else if v < 62 then v - 4
  else if v = 62 then 45
  else 95

/-- The letters of bytes; the bits that are missing at the end are zero. -/
def base64 : List UInt8 → List ℕ
  | [] => []
  | [a] => [base64Letter (a.toNat / 4), base64Letter (a.toNat % 4 * 16)]
  | [a, b] =>
      [base64Letter (a.toNat / 4), base64Letter (a.toNat % 4 * 16 + b.toNat / 16),
        base64Letter (b.toNat % 16 * 4)]
  | a :: b :: c :: rest =>
      base64Letter (a.toNat / 4) :: base64Letter (a.toNat % 4 * 16 + b.toNat / 16) ::
        base64Letter (b.toNat % 16 * 4 + c.toNat / 64) :: base64Letter (c.toNat % 64) ::
          base64 rest

/-- The letters of the alphabet. -/
def IsBase64Letter (c : ℕ) : Prop :=
  (65 ≤ c ∧ c ≤ 90) ∨ (97 ≤ c ∧ c ≤ 122) ∨ (48 ≤ c ∧ c ≤ 57) ∨ c = 45 ∨ c = 95

instance : DecidablePred IsBase64Letter := fun _ => inferInstanceAs (Decidable (_ ∨ _))

lemma isBase64Letter {v : ℕ} (hv : v < 64) : IsBase64Letter (base64Letter v) := by
  rw [IsBase64Letter, base64Letter]
  split_ifs <;> omega

lemma base64Letter_inj {v w : ℕ} (hv : v < 64) (hw : w < 64)
    (h : base64Letter v = base64Letter w) : v = w := by
  rw [base64Letter, base64Letter] at h
  split_ifs at h <;> omega

/-- Four letters for three bytes, and one more than the bytes that are left. -/
lemma length_base64 (bytes : List UInt8) : (base64 bytes).length = (4 * bytes.length + 2) / 3 := by
  induction bytes using base64.induct with
  | case1 => rfl
  | case2 a => simp [base64]
  | case3 a b => simp [base64]
  | case4 a b c rest ih =>
      rw [base64]
      simp only [List.length_cons, ih]
      omega

lemma mem_base64 {bytes : List UInt8} {c : ℕ} (h : c ∈ base64 bytes) : IsBase64Letter c := by
  have hbyte : ∀ a : UInt8, a.toNat < 256 := UInt8.toNat_lt
  induction bytes using base64.induct with
  | case1 => cases h
  | case2 a =>
      have ha := hbyte a
      rw [base64, List.mem_pair] at h
      rcases h with rfl | rfl <;> exact isBase64Letter (by omega)
  | case3 a b =>
      have ha := hbyte a
      have hb := hbyte b
      rw [base64, List.mem_cons, List.mem_pair] at h
      rcases h with rfl | rfl | rfl <;> exact isBase64Letter (by omega)
  | case4 a b d rest ih =>
      have ha := hbyte a
      have hb := hbyte b
      have hd := hbyte d
      rw [base64] at h
      simp only [List.mem_cons] at h
      rcases h with rfl | rfl | rfl | rfl | h
      · exact isBase64Letter (by omega)
      · exact isBase64Letter (by omega)
      · exact isBase64Letter (by omega)
      · exact isBase64Letter (by omega)
      · exact ih h

/-- Bytes whose letters are the same are the same. -/
lemma base64_inj {bytes bytes' : List UInt8} (h : base64 bytes = base64 bytes') :
    bytes = bytes' := by
  have hbyte : ∀ a : UInt8, a.toNat < 256 := UInt8.toNat_lt
  have hlength : bytes.length = bytes'.length := by
    have hletters := congrArg List.length h
    rw [length_base64, length_base64] at hletters
    omega
  induction bytes using base64.induct generalizing bytes' with
  | case1 => exact (List.length_eq_zero_iff.mp hlength.symm).symm
  | case2 a =>
      obtain ⟨a', rfl⟩ := List.length_eq_one_iff.mp hlength.symm
      have ha := hbyte a
      have ha' := hbyte a'
      simp only [base64, List.cons.injEq] at h
      have hhigh := base64Letter_inj (by omega) (by omega) h.1
      have hlow := base64Letter_inj (by omega) (by omega) h.2.1
      rw [UInt8.toNat_inj.mp (by omega : a.toNat = a'.toNat)]
  | case3 a b =>
      obtain ⟨a', b', rfl⟩ := List.length_eq_two.mp hlength.symm
      have ha := hbyte a
      have ha' := hbyte a'
      have hb := hbyte b
      have hb' := hbyte b'
      simp only [base64, List.cons.injEq] at h
      have h₁ := base64Letter_inj (by omega) (by omega) h.1
      have h₂ := base64Letter_inj (by omega) (by omega) h.2.1
      have h₃ := base64Letter_inj (by omega) (by omega) h.2.2.1
      rw [UInt8.toNat_inj.mp (by omega : a.toNat = a'.toNat),
        UInt8.toNat_inj.mp (by omega : b.toNat = b'.toNat)]
  | case4 a b c rest ih =>
      obtain ⟨a', b', c', rest', rfl⟩ : ∃ a' b' c' rest', bytes' = a' :: b' :: c' :: rest' := by
        match bytes', hlength with
        | a' :: b' :: c' :: rest', _ => exact ⟨a', b', c', rest', rfl⟩
      have ha := hbyte a
      have ha' := hbyte a'
      have hb := hbyte b
      have hb' := hbyte b'
      have hc := hbyte c
      have hc' := hbyte c'
      simp only [base64, List.cons.injEq] at h
      have h₁ := base64Letter_inj (by omega) (by omega) h.1
      have h₂ := base64Letter_inj (by omega) (by omega) h.2.1
      have h₃ := base64Letter_inj (by omega) (by omega) h.2.2.1
      have h₄ := base64Letter_inj (by omega) (by omega) h.2.2.2.1
      have hrest : rest.length = rest'.length := by
        simp only [List.length_cons] at hlength
        omega
      rw [UInt8.toNat_inj.mp (by omega : a.toNat = a'.toNat),
        UInt8.toNat_inj.mp (by omega : b.toNat = b'.toNat),
        UInt8.toNat_inj.mp (by omega : c.toNat = c'.toNat), ih h.2.2.2.2 hrest]

/-! ### Numerals -/

/-- The spaces and the decimal digits beyond ASCII. -/
structure Characters where
  space : ℕ → Bool
  decimal : ℕ → Option ℕ

/-- A character in ASCII; a question mark stands for one that no numeral has. -/
def Characters.toAscii (C : Characters) (c : ℕ) : ℕ :=
  if c < 127 then c
  else if C.space c then 32
  else ((C.decimal c).map fun d => 48 + d).getD 63

/-- The spaces of ASCII around a numeral. -/
def isSpace (c : ℕ) : Bool := (9 ≤ c ∧ c ≤ 13) ∨ c = 32

/-- The value of a character as a digit. -/
def digitValue (c : ℕ) : Option ℕ :=
  if 48 ≤ c ∧ c ≤ 57 then some (c - 48)
  else if 65 ≤ c ∧ c ≤ 90 then some (c - 55)
  else if 97 ≤ c ∧ c ≤ 122 then some (c - 87)
  else none

/-- The value of a character as a digit of a base. -/
def digitOf (base c : ℕ) : Option ℕ := (digitValue c).filter (· < base)

/-- The value of the digits from here on, and the text that follows them; underscores stand between
digits, one at a time. -/
def readDigits (base : ℕ) : ℕ → Bool → List ℕ → Option (ℕ × List ℕ)
  | acc, underscore, [] => if underscore then none else some (acc, [])
  | acc, underscore, c :: rest =>
      if c = 95 then if underscore then none else readDigits base acc true rest
      else
        match digitOf base c with
        | some d => readDigits base (acc * base + d) false rest
        | none => if underscore then none else some (acc, c :: rest)

/-- The letters that may stand for a base, after a zero. -/
def prefixLetters (base : ℕ) : List ℕ :=
  if base = 16 then [120, 88] else if base = 8 then [111, 79] else if base = 2 then [98, 66] else []

/-- The text without an underscore at its start. -/
def dropUnderscore : List ℕ → List ℕ
  | 95 :: rest => rest
  | text => text

/-- The text without the letters of the base, and an underscore after them. -/
def dropBase (base : ℕ) : List ℕ → List ℕ
  | 48 :: c :: rest =>
      if c ∈ prefixLetters base then dropUnderscore rest else 48 :: c :: rest
  | text => text

/-- The sign of a numeral, and the rest of it. -/
def readSign : List ℕ → ℤ × List ℕ
  | 43 :: rest => (1, rest)
  | 45 :: rest => (-1, rest)
  | text => (1, text)

/-- `int(text, base)`, without the error. -/
def parseInt (C : Characters) (base : ℕ) (text : List ℕ) : Option ℤ :=
  let ascii := if text.all (· < 128) then text else text.map C.toAscii
  let (sign, unsigned) := readSign (ascii.dropWhile isSpace)
  let digits := dropBase base unsigned
  if (digits.head?.bind (digitOf base)).isNone then none
  else
    (readDigits base 0 false digits).bind fun (value, rest) =>
      if rest.dropWhile isSpace = [] then some (sign * (value : ℤ)) else none

/-- The value of digits. -/
def ofDigitValues (base : ℕ) (acc : ℕ) (values : List ℕ) : ℕ :=
  values.foldl (fun acc d => acc * base + d) acc

variable {base : ℕ}

lemma digitValue_bounds {c d : ℕ} (h : digitValue c = some d) :
    (48 ≤ c ∧ c ≤ 57 ∧ d = c - 48) ∨ (65 ≤ c ∧ c ≤ 90 ∧ d = c - 55) ∨
      (97 ≤ c ∧ c ≤ 122 ∧ d = c - 87) := by
  rw [digitValue] at h
  split_ifs at h <;> simp only [Option.some.injEq] at h <;> omega

lemma digitOf_eq_some {c d : ℕ} (h : digitOf base c = some d) :
    digitValue c = some d ∧ d < base := by
  obtain ⟨hvalue, hlt⟩ := Option.filter_eq_some_iff.mp h
  exact ⟨hvalue, of_decide_eq_true hlt⟩

/-- Digits are read to the end. -/
lemma readDigits_of_digits {text values : List ℕ}
    (h : text.map (digitOf base) = values.map some) (acc : ℕ) :
    readDigits base acc false text = some (ofDigitValues base acc values, []) := by
  induction text generalizing values acc with
  | nil =>
      rw [List.map_nil, eq_comm, List.map_eq_nil_iff] at h
      rw [h]
      rfl
  | cons c text ih =>
      obtain ⟨d, values', rfl⟩ : ∃ d values', values = d :: values' := by
        cases values with
        | nil => cases h
        | cons d values' => exact ⟨d, values', rfl⟩
      rw [List.map_cons, List.map_cons, List.cons.injEq] at h
      have hletter : c ≠ 95 := by
        have := digitValue_bounds (digitOf_eq_some h.1).1
        omega
      rw [readDigits, if_neg hletter, h.1]
      exact ih h.2 _

/-- A text of digits is read as its value, if it has not the letters of the base. -/
lemma parseInt_of_digits (C : Characters) {text values : List ℕ}
    (h : text.map (digitOf base) = values.map some) (hne : text ≠ [])
    (hbase : dropBase base text = text) :
    parseInt C base text = some (ofDigitValues base 0 values : ℤ) := by
  obtain ⟨c, rest, rfl⟩ := List.exists_cons_of_ne_nil hne
  have hdigit : ∀ x ∈ c :: rest, ∃ d, digitOf base x = some d := by
    intro x hx
    have hmem : digitOf base x ∈ values.map some := h ▸ List.mem_map_of_mem hx
    obtain ⟨d, -, hd⟩ := List.mem_map.mp hmem
    exact ⟨d, hd.symm⟩
  have hbounds : ∀ x ∈ c :: rest, 48 ≤ x ∧ x ≤ 122 := by
    intro x hx
    obtain ⟨d, hd⟩ := hdigit x hx
    have := digitValue_bounds (digitOf_eq_some hd).1
    omega
  have hascii : (c :: rest).all (· < 128) = true :=
    List.all_eq_true.mpr fun x hx => decide_eq_true (by have := hbounds x hx; omega)
  have hc := hbounds c List.mem_cons_self
  have hspace : isSpace c = false := decide_eq_false (by omega)
  have hsign : readSign (c :: rest) = (1, c :: rest) := by
    rw [readSign]
    · intro rest' h'
      cases h'
      omega
    · intro rest' h'
      cases h'
      omega
  obtain ⟨d, hd⟩ := hdigit c List.mem_cons_self
  rw [parseInt, if_pos hascii, List.dropWhile_cons_of_neg (by rw [hspace]; decide), hsign]
  simp only [hbase, List.head?_cons, Option.bind_some, hd, Option.isNone_some,
    readDigits_of_digits h, List.dropWhile_nil, one_mul, if_true, Bool.false_eq_true, if_false]

/-! ### Replacing -/

/-- `text.replace(pattern, "")`, after a number of characters of a pattern that was found. -/
def removeFrom (pattern : List ℕ) : ℕ → List ℕ → List ℕ
  | _, [] => []
  | skip + 1, _ :: rest => removeFrom pattern skip rest
  | 0, c :: rest =>
      if pattern.isPrefixOf (c :: rest) then removeFrom pattern (pattern.length - 1) rest
      else c :: removeFrom pattern 0 rest

/-- `text.replace(pattern, "")`, for a pattern that is not empty. -/
def removeAll (pattern text : List ℕ) : List ℕ := removeFrom pattern 0 text

/-- Nothing is removed where a character of the pattern is missing. -/
lemma removeAll_of_notMem {pattern text : List ℕ} {x : ℕ} (hx : x ∈ pattern) (h : x ∉ text) :
    removeAll pattern text = text := by
  rw [removeAll]
  induction text with
  | nil => rfl
  | cons c rest ih =>
      have hfound : ¬ pattern.isPrefixOf (c :: rest) = true := fun hp =>
        h (List.IsPrefix.subset (List.isPrefixOf_iff_prefix.mp hp) hx)
      rw [removeFrom, if_neg hfound, ih fun hmem => h (List.mem_cons_of_mem c hmem)]

/-! ### Splitting -/

/-- A part of a text that is split at a character does not have it. -/
lemma notMem_of_mem_splitOn {x : ℕ} {text part : List ℕ} (h : part ∈ text.splitOn x) :
    x ∉ part := by
  induction text generalizing part with
  | nil =>
      rw [List.splitOn_nil, List.mem_singleton] at h
      rw [h]
      exact List.not_mem_nil
  | cons c rest ih =>
      rw [List.splitOn_cons_eq_if_modifyHead] at h
      split_ifs at h with hc
      · rcases List.mem_cons.mp h with rfl | h
        · exact List.not_mem_nil
        · exact ih h
      · obtain ⟨first, parts, hparts⟩ := List.exists_cons_of_ne_nil (List.splitOn_ne_nil x rest)
        rw [hparts, List.modifyHead_cons] at h
        have hne : x ≠ c := fun h => hc (beq_iff_eq.mpr h.symm)
        rcases List.mem_cons.mp h with rfl | h
        · rw [List.mem_cons, not_or]
          exact ⟨hne, ih (by rw [hparts]; exact List.mem_cons_self)⟩
        · exact ih (by rw [hparts]; exact List.mem_cons_of_mem _ h)

/-- Splitting a text at a character gives the parts without it that make up the text. -/
lemma splitOn_eq_iff {x : ℕ} {text : List ℕ} {parts : List (List ℕ)} (hne : parts ≠ []) :
    text.splitOn x = parts ↔ text = [x].intercalate parts ∧ ∀ part ∈ parts, x ∉ part := by
  constructor
  · rintro rfl
    exact ⟨(List.intercalate_splitOn x).symm, fun part => notMem_of_mem_splitOn⟩
  · rintro ⟨rfl, hparts⟩
    exact List.splitOn_intercalate x hparts hne

end Encodings

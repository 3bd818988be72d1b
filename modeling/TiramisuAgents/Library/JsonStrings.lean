import Mathlib.Data.List.Basic
import Mathlib.Tactic

/-!
Strings as lists of code points: their UTF-8 bytes and their JSON texts.

* `Scalar`: the code points that UTF-8 can encode, which leaves out the surrogates.
* `encodeUtf8`, `encodeUtf8_isSome_iff`.
* `escape`, `quoted`: the JSON text of a string, in ASCII or not.
* `quoted_append_inj`: a text of scalars can be told apart from what follows it.  In ASCII this is
  false of surrogates, since a pair of them has the text of one code point.
-/

namespace Json

/-! ### UTF-8 -/

/-- The code points that UTF-8 can encode. -/
def Scalar (c : ℕ) : Prop := c < 0xD800 ∨ (0xE000 ≤ c ∧ c < 0x110000)

instance : DecidablePred Scalar := fun _ => inferInstanceAs (Decidable (_ ∨ _))

/-- The bytes of a code point. -/
def utf8Bytes (c : ℕ) : Option (List ℕ) :=
  if c < 0x80 then some [c]
  else if c < 0x800 then some [0xC0 + c / 0x40, 0x80 + c % 0x40]
  else if ¬ Scalar c then none
  else if c < 0x10000 then some [0xE0 + c / 0x1000, 0x80 + c / 0x40 % 0x40, 0x80 + c % 0x40]
  else some [0xF0 + c / 0x40000, 0x80 + c / 0x1000 % 0x40, 0x80 + c / 0x40 % 0x40, 0x80 + c % 0x40]

/-- The bytes of a string, if all its code points have some. -/
def encodeUtf8 : List ℕ → Option (List ℕ)
  | [] => some []
  | c :: s => do return (← utf8Bytes c) ++ (← encodeUtf8 s)

lemma utf8Bytes_isSome_iff {c : ℕ} : (utf8Bytes c).isSome ↔ Scalar c := by
  rw [utf8Bytes]
  split_ifs with h₁ h₂ h₃ h₄
  · simp only [Option.isSome_some, Scalar, true_iff]
    omega
  · simp only [Option.isSome_some, Scalar, true_iff]
    omega
  · simp [h₃]
  · simpa using h₃
  · simpa using h₃

lemma encodeUtf8_isSome_iff {s : List ℕ} : (encodeUtf8 s).isSome ↔ ∀ c ∈ s, Scalar c := by
  induction s with
  | nil => simp [encodeUtf8]
  | cons c s ih =>
      rw [List.forall_mem_cons, ← ih, ← utf8Bytes_isSome_iff, encodeUtf8]
      cases utf8Bytes c <;> cases encodeUtf8 s <;> simp

/-! ### Hexadecimal digits -/

/-- The digit of a number below sixteen. -/
def hexDigit (n : ℕ) : ℕ := if n < 10 then 48 + n else 87 + n

/-- The last `k` digits of a number. -/
def hexDigits : ℕ → ℕ → List ℕ
  | 0, _ => []
  | k + 1, n => hexDigits k (n / 16) ++ [hexDigit (n % 16)]

@[simp] lemma length_hexDigits (k n : ℕ) : (hexDigits k n).length = k := by
  induction k generalizing n with
  | zero => rfl
  | succ k ih => rw [hexDigits, List.length_append, ih, List.length_singleton]

lemma hexDigit_inj {m n : ℕ} (hm : m < 16) (hn : n < 16) (h : hexDigit m = hexDigit n) : m = n := by
  rw [hexDigit, hexDigit] at h
  split_ifs at h <;> omega

lemma hexDigits_inj {k m n : ℕ} (hm : m < 16 ^ k) (hn : n < 16 ^ k)
    (h : hexDigits k m = hexDigits k n) : m = n := by
  induction k generalizing m n with
  | zero => omega
  | succ k ih =>
      rw [pow_succ] at hm hn
      rw [hexDigits, hexDigits] at h
      obtain ⟨hhigh, hlow⟩ := List.append_inj h (by simp)
      have hquotient : m / 16 = n / 16 := ih (by omega) (by omega) hhigh
      have hremainder : m % 16 = n % 16 :=
        hexDigit_inj (by omega) (by omega) (List.singleton_inj.mp hlow)
      omega

lemma hexDigits_append_inj {k m n : ℕ} {u u' : List ℕ} (hm : m < 16 ^ k) (hn : n < 16 ^ k)
    (h : hexDigits k m ++ u = hexDigits k n ++ u') : m = n ∧ u = u' := by
  obtain ⟨hdigits, hrest⟩ := List.append_inj h (by simp)
  exact ⟨hexDigits_inj hm hn hdigits, hrest⟩

/-- Digits are printable and neither punctuation nor a separator. -/
lemma mem_hexDigits {k n c : ℕ} (h : c ∈ hexDigits k n) :
    (48 ≤ c ∧ c ≤ 57) ∨ (97 ≤ c ∧ c ≤ 102) := by
  induction k generalizing n with
  | zero => cases h
  | succ k ih =>
      rw [hexDigits, List.mem_append, List.mem_singleton] at h
      rcases h with h | rfl
      · exact ih h
      · rw [hexDigit]
        split_ifs <;> omega

/-! ### Escapes -/

/-- The letters of the two-letter escapes. -/
def shortEscape (c : ℕ) : Option ℕ :=
  if c = 34 then some 34
  else if c = 92 then some 92
  else if c = 8 then some 98
  else if c = 9 then some 116
  else if c = 10 then some 110
  else if c = 12 then some 102
  else if c = 13 then some 114
  else none

/-- The escape of a code unit. -/
def unitEscape (u : ℕ) : List ℕ := 92 :: 117 :: hexDigits 4 u

/-- The text of a code point in a string: control characters are escaped, and in ASCII all that are
not printable, a code point beyond the first plane by its two surrogates. -/
def escape (ascii : Bool) (c : ℕ) : List ℕ :=
  match shortEscape c with
  | some letter => [92, letter]
  | none =>
      if c < 32 ∨ (ascii ∧ 126 < c) then
        if c < 0x10000 then unitEscape c
        else unitEscape (0xD800 + (c - 0x10000) / 0x400) ++ unitEscape (0xDC00 + (c - 0x10000) % 0x400)
      else [c]

/-- The text of a string, between quotes. -/
def quoted (ascii : Bool) (s : List ℕ) : List ℕ := 34 :: (s.flatMap (escape ascii) ++ [34])

lemma shortEscape_cases {c letter : ℕ} (h : shortEscape c = some letter) :
    (c = 34 ∧ letter = 34) ∨ (c = 92 ∧ letter = 92) ∨ (c = 8 ∧ letter = 98) ∨
      (c = 9 ∧ letter = 116) ∨ (c = 10 ∧ letter = 110) ∨ (c = 12 ∧ letter = 102) ∨
      (c = 13 ∧ letter = 114) := by
  rw [shortEscape] at h
  split_ifs at h <;> simp_all

/-- The forms of an escape: two letters, a code unit, a pair of them, or the code point itself. -/
lemma escape_cases (ascii : Bool) (c : ℕ) :
    (∃ letter, shortEscape c = some letter ∧ escape ascii c = [92, letter]) ∨
      ((c < 32 ∨ (ascii = true ∧ c < 0x10000)) ∧ escape ascii c = unitEscape c) ∨
      ((ascii = true ∧ 0x10000 ≤ c) ∧
        escape ascii c = unitEscape (0xD800 + (c - 0x10000) / 0x400) ++
          unitEscape (0xDC00 + (c - 0x10000) % 0x400)) ∨
      (c ≠ 34 ∧ c ≠ 92 ∧ escape ascii c = [c]) := by
  rw [escape]
  cases h : shortEscape c with
  | some letter => exact .inl ⟨letter, rfl, rfl⟩
  | none =>
      dsimp only
      split_ifs with hescaped hplane
      · exact .inr (.inl ⟨hescaped.imp_right fun h => ⟨h.1, hplane⟩, rfl⟩)
      · have hascii : ascii = true := by
          rcases hescaped with h | h
          · omega
          · exact h.1
        exact .inr (.inr (.inl ⟨⟨hascii, by omega⟩, rfl⟩))
      · refine .inr (.inr (.inr ⟨?_, ?_, rfl⟩))
        · rintro rfl
          cases h
        · rintro rfl
          cases h

/-- The text of a code point does not begin with a quote. -/
lemma escape_head (ascii : Bool) (c : ℕ) : ∃ x rest, escape ascii c = x :: rest ∧ x ≠ 34 := by
  obtain ⟨letter, -, h⟩ | ⟨-, h⟩ | ⟨-, h⟩ | ⟨hquote, -, h⟩ := escape_cases ascii c
  · exact ⟨_, _, h, by decide⟩
  · exact ⟨_, _, h, by decide⟩
  · exact ⟨_, _, h, by decide⟩
  · exact ⟨_, _, h, hquote⟩

lemma unitEscape_append_inj {x y : ℕ} {u u' : List ℕ} (hx : x < 0x10000) (hy : y < 0x10000)
    (h : unitEscape x ++ u = unitEscape y ++ u') : x = y ∧ u = u' := by
  rw [unitEscape, unitEscape] at h
  exact hexDigits_append_inj hx hy (List.cons.inj (List.cons.inj h).2).2

lemma shortEscape_inj {c d letter : ℕ} (hc : shortEscape c = some letter)
    (hd : shortEscape d = some letter) : c = d := by
  have hcases := shortEscape_cases hc
  have hcases' := shortEscape_cases hd
  omega

lemma letter_ne {c letter : ℕ} (h : shortEscape c = some letter) : letter ≠ 117 := by
  have hcases := shortEscape_cases h
  omega

/-- The texts of scalars can be told apart from what follows them. -/
lemma escape_append_inj {ascii : Bool} {c d : ℕ} {u u' : List ℕ} (hc : Scalar c) (hd : Scalar d)
    (h : escape ascii c ++ u = escape ascii d ++ u') : c = d ∧ u = u' := by
  rw [Scalar] at hc hd
  obtain ⟨l, hl, he⟩ | ⟨hplane, he⟩ | ⟨hplane, he⟩ | ⟨-, hb, he⟩ := escape_cases ascii c
  · -- two letters, and the second is not that of a code unit
    obtain ⟨l', hl', he'⟩ | ⟨-, he'⟩ | ⟨-, he'⟩ | ⟨-, hb', he'⟩ := escape_cases ascii d
    · rw [he, he'] at h
      have hrest := List.cons.inj (List.cons.inj h).2
      exact ⟨shortEscape_inj hl (hrest.1 ▸ hl'), hrest.2⟩
    · rw [he, he'] at h
      exact absurd (List.cons.inj (List.cons.inj h).2).1 (letter_ne hl)
    · rw [he, he'] at h
      exact absurd (List.cons.inj (List.cons.inj h).2).1 (letter_ne hl)
    · rw [he, he'] at h
      exact absurd (List.cons.inj h).1.symm hb'
  · -- a code unit, which is not the first of a pair
    obtain ⟨l', hl', he'⟩ | ⟨hplane', he'⟩ | ⟨hplane', he'⟩ | ⟨-, hb', he'⟩ := escape_cases ascii d
    · rw [he, he'] at h
      exact absurd (List.cons.inj (List.cons.inj h).2).1.symm (letter_ne hl')
    · rw [he, he'] at h
      exact unitEscape_append_inj (by omega) (by omega) h
    · rw [he, he', List.append_assoc] at h
      have hunit := (unitEscape_append_inj (by omega) (by omega) h).1
      omega
    · rw [he, he'] at h
      exact absurd (List.cons.inj h).1.symm hb'
  · -- a pair, whose first is not a scalar
    obtain ⟨l', hl', he'⟩ | ⟨hplane', he'⟩ | ⟨hplane', he'⟩ | ⟨-, hb', he'⟩ := escape_cases ascii d
    · rw [he, he'] at h
      exact absurd (List.cons.inj (List.cons.inj h).2).1.symm (letter_ne hl')
    · rw [he, he', List.append_assoc] at h
      have hunit := (unitEscape_append_inj (by omega) (by omega) h).1
      omega
    · rw [he, he', List.append_assoc, List.append_assoc] at h
      obtain ⟨hhigh, h⟩ := unitEscape_append_inj (by omega) (by omega) h
      obtain ⟨hlow, h⟩ := unitEscape_append_inj (by omega) (by omega) h
      exact ⟨by omega, h⟩
    · rw [he, he'] at h
      exact absurd (List.cons.inj h).1.symm hb'
  · obtain ⟨l', -, he'⟩ | ⟨-, he'⟩ | ⟨-, he'⟩ | ⟨-, -, he'⟩ := escape_cases ascii d
    · rw [he, he'] at h
      exact absurd (List.cons.inj h).1 hb
    · rw [he, he'] at h
      exact absurd (List.cons.inj h).1 hb
    · rw [he, he'] at h
      exact absurd (List.cons.inj h).1 hb
    · rw [he, he'] at h
      exact List.cons.inj h

/-- **The text of a string** of scalars can be told apart from what follows it. -/
theorem quoted_append_inj {ascii : Bool} {s t u u' : List ℕ} (hs : ∀ c ∈ s, Scalar c)
    (ht : ∀ c ∈ t, Scalar c) (h : quoted ascii s ++ u = quoted ascii t ++ u') : s = t := by
  rw [quoted, quoted, List.cons_append, List.cons_append, List.append_assoc,
    List.append_assoc] at h
  replace h := (List.cons.inj h).2
  induction s generalizing t with
  | nil =>
      cases t with
      | nil => rfl
      | cons d t =>
          obtain ⟨x, rest, hx, hquote⟩ := escape_head ascii d
          rw [List.flatMap_cons, hx] at h
          exact absurd (List.cons.inj h).1.symm hquote
  | cons c s ih =>
      cases t with
      | nil =>
          obtain ⟨x, rest, hx, hquote⟩ := escape_head ascii c
          rw [List.flatMap_cons, hx] at h
          exact absurd (List.cons.inj h).1 hquote
      | cons d t =>
          rw [List.forall_mem_cons] at hs ht
          rw [List.flatMap_cons, List.flatMap_cons, List.append_assoc, List.append_assoc] at h
          obtain ⟨rfl, hrest⟩ := escape_append_inj hs.1 ht.1 h
          rw [ih hs.2 ht.2 hrest]

/-- A pair of surrogates has the ASCII text of one code point. -/
example : quoted true [0xD83D, 0xDE00] = quoted true [0x1F600] := by decide

lemma scalar_unitEscape {x c : ℕ} (h : c ∈ unitEscape x) : Scalar c := by
  rw [unitEscape, List.mem_cons, List.mem_cons] at h
  rw [Scalar]
  rcases h with rfl | rfl | h
  · omega
  · omega
  · have hdigit := mem_hexDigits h
    omega

lemma forall_mem_escape {c : ℕ} : (∀ x ∈ escape false c, Scalar x) ↔ Scalar c := by
  obtain ⟨letter, hletter, h⟩ | ⟨hplane, h⟩ | ⟨hplane, h⟩ | ⟨-, -, h⟩ := escape_cases false c
  · have hcases := shortEscape_cases hletter
    rw [h, List.forall_mem_cons, List.forall_mem_singleton, Scalar, Scalar, Scalar]
    omega
  · have hcontrol : c < 32 := hplane.resolve_right fun hascii => nomatch hascii.1
    exact ⟨fun _ => .inl (by omega), fun _ x hx => scalar_unitEscape (h ▸ hx)⟩
  · exact nomatch hplane.1
  · rw [h, List.forall_mem_singleton]

/-- Out of ASCII the text of a string has all scalars iff the string does. -/
lemma forall_mem_quoted {s : List ℕ} :
    (∀ c ∈ quoted false s, Scalar c) ↔ ∀ c ∈ s, Scalar c := by
  rw [quoted, List.forall_mem_cons, List.forall_mem_append, List.forall_mem_singleton,
    List.forall_mem_flatMap]
  have hquote : Scalar 34 := by decide
  simp only [hquote, true_and, and_true, forall_mem_escape]

end Json

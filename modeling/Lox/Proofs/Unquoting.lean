import Mathlib.Algebra.Group.Nat.Defs
import Lox.Number.Reading
import Lox.Text.Quoted

/-!
# Reading quoted text back

Between its quotes a text may hold anything: quotes, backslashes, line ends, whatever looks like the
text around it. Still nothing is lost and the closing quote is always found, since every character is
written in a way from which it can be read back without looking at what follows.

- `hexValue`, `hexValue_hex`, `length_hex`: a number in hexadecimal digits of a fixed width.
- `unescape`, `unescape_escape`: the first character of a text between quotes.
- `escape_append_ne`: no character is written with a quote in front.
- `string_append_inj`: the text in quotes, and what follows it, can be told from the whole.
-/

namespace Lox.Text.Quoted

/-! ### Hexadecimal digits -/

/-- **The number that hexadecimal digits spell.** -/
def hexValue (digits : List Char) : Nat :=
  digits.foldl (fun n d => 16 * n + (Number.hexDigit? d).getD 0) 0

theorem hexDigit?_digitChar : ∀ d < 16, Number.hexDigit? (Nat.digitChar d) = some d := by decide

theorem hexValue_concat (digits : List Char) {d : Nat} (hd : d < 16) :
    hexValue (digits ++ [Nat.digitChar d]) = 16 * hexValue digits + d := by
  simp [hexValue, hexDigit?_digitChar d hd]

theorem hexValue_toDigits (n : Nat) : hexValue (Nat.toDigits 16 n) = n := by
  induction n using Nat.strongRecOn with
  | ind n ih =>
    rw [Nat.toDigits_eq_if (by decide)]
    split
    · next hlt => exact (hexValue_concat [] hlt).trans (by simp [hexValue])
    · rw [hexValue_concat _ (Nat.mod_lt n (by decide)), ih (n / 16) (by omega)]
      omega

/-- Zeros in front of a number change nothing. -/
theorem hexValue_replicate_append (k : Nat) (digits : List Char) :
    hexValue (List.replicate k '0' ++ digits) = hexValue digits := by
  induction k with
  | zero => rfl
  | succ k ih => exact ih

theorem hexValue_hex (width n : Nat) : hexValue (hex width n) = n := by
  rw [hex, hexValue_replicate_append, hexValue_toDigits]

theorem length_hex {width n : Nat} (hwidth : 0 < width) (h : n < 16 ^ width) :
    (hex width n).length = width := by
  have hle := (Nat.length_toDigits_le_iff (by decide) hwidth).mpr h
  rw [hex, List.length_append, List.length_replicate]
  omega

/-! ### One character -/

/-- The number of digits behind the letter of an escape by number. -/
def digitCount? : Char → Option Nat
  | 'x' => some 2
  | 'u' => some 4
  | 'U' => some 8
  | _ => none

/-- The control character that a letter names; any other character stands for itself. -/
def named : Char → Char
  | 'a' => '\x07'
  | 'b' => '\x08'
  | 't' => '\t'
  | 'n' => '\n'
  | 'v' => '\x0b'
  | 'f' => '\x0c'
  | 'r' => '\r'
  | c => c

/-- **The first character of a text between quotes**, and what follows its spelling. -/
def unescape : List Char → Option (Char × List Char)
  | [] => none
  | '\\' :: mark :: rest =>
    match digitCount? mark with
    | some width => some (Char.ofNat (hexValue (rest.take width)), rest.drop width)
    | none => some (named mark, rest)
  | c :: rest => some (c, rest)

theorem unescape_of_ne {c : Char} (h : c ≠ '\\') (rest : List Char) :
    unescape (c :: rest) = some (c, rest) := by
  unfold unescape
  split
  · next heq => cases heq
  · next heq => exact absurd (List.cons.inj heq).1 h
  · next heq =>
    cases heq
    rfl

theorem unescape_controlLetter {c letter : Char} (h : controlLetter? c = some letter)
    (rest : List Char) : unescape ('\\' :: letter :: rest) = some (c, rest) := by
  rw [← Char.ofNat_toNat c]
  unfold controlLetter? at h
  split at h <;> cases h <;> simp only [*] <;> rfl

theorem unescape_hex {mark : Char} {width : Nat} (hmark : digitCount? mark = some width)
    (hwidth : 0 < width) {c : Char} (hc : c.toNat < 16 ^ width) (rest : List Char) :
    unescape ('\\' :: mark :: (hex width c.toNat ++ rest)) = some (c, rest) := by
  have hlength := length_hex hwidth hc
  simp only [unescape, hmark]
  rw [List.take_left' hlength, List.drop_left' hlength, hexValue_hex, Char.ofNat_toNat]

/-- An escape by number has as many digits as its letter tells. -/
theorem numericEscape_eq (c : Char) :
    ∃ mark width, digitCount? mark = some width ∧ 0 < width ∧ c.toNat < 16 ^ width
      ∧ numericEscape c = '\\' :: mark :: hex width c.toNat := by
  simp only [numericEscape]
  split
  · next h =>
    refine ⟨'x', 2, rfl, by decide, ?_, rfl⟩
    simp only [Bool.or_eq_true, decide_eq_true_eq, beq_iff_eq] at h
    omega
  split
  · next h => exact ⟨'u', 4, rfl, by decide, h, rfl⟩
  · exact ⟨'U', 8, rfl, by decide, c.val.toNat_lt, rfl⟩

/-- **A character is read back from its spelling**, whatever follows. -/
theorem unescape_escape (c : Char) (rest : List Char) :
    unescape (escape '"' c ++ rest) = some (c, rest) := by
  unfold escape
  split
  · next h =>
    rcases Bool.or_eq_true _ _ ▸ h with h | h <;> rw [eq_of_beq h] <;> rfl
  next hplain =>
  have hne : c ≠ '\\' := by
    rintro rfl
    exact hplain rfl
  split
  · exact unescape_of_ne hne rest
  split
  · next letter h => exact unescape_controlLetter h rest
  · obtain ⟨mark, width, hmark, hwidth, hc, heq⟩ := numericEscape_eq c
    rw [heq]
    exact unescape_hex hmark hwidth hc rest

/-- **No character is written with a quote in front.** -/
theorem escape_append_ne (c : Char) (more rest : List Char) : escape '"' c ++ more ≠ '"' :: rest := by
  intro h
  have hread := congrArg unescape h
  rw [unescape_escape, unescape_of_ne (by decide), Option.some.injEq, Prod.mk.injEq] at hread
  -- a quote could only be read there, and a quote is written with a backslash
  obtain ⟨rfl, -⟩ := hread
  cases h

/-! ### Whole texts -/

theorem flatMap_escape_append_inj {s s' rest rest' : List Char}
    (h : s.flatMap (escape '"') ++ '"' :: rest = s'.flatMap (escape '"') ++ '"' :: rest') :
    s = s' ∧ rest = rest' := by
  induction s generalizing s' with
  | nil =>
    cases s' with
    | nil => exact ⟨rfl, (List.cons.inj h).2⟩
    | cons c' s' =>
      rw [List.flatMap_cons, List.append_assoc] at h
      exact absurd h.symm (escape_append_ne c' _ rest)
  | cons c s ih =>
    rw [List.flatMap_cons, List.append_assoc] at h
    cases s' with
    | nil => exact absurd h (escape_append_ne c _ rest')
    | cons c' s' =>
      rw [List.flatMap_cons, List.append_assoc] at h
      have hread := congrArg unescape h
      rw [unescape_escape, unescape_escape, Option.some.injEq, Prod.mk.injEq] at hread
      obtain ⟨rfl, hrest⟩ := hread
      obtain ⟨rfl, rfl⟩ := ih hrest
      exact ⟨rfl, rfl⟩

/-- **Quoted text ends at its closing quote**: the text in the quotes and what follows it can be told
from the whole. -/
theorem string_append_inj {s s' : String} {rest rest' : List Char}
    (h : (string s).toList ++ rest = (string s').toList ++ rest') : s = s' ∧ rest = rest' := by
  simp only [string, between, String.toList_ofList, List.cons_append, List.append_assoc,
    List.cons.injEq, true_and] at h
  obtain ⟨hs, hrest⟩ := flatMap_escape_append_inj h
  exact ⟨String.toList_inj.mp hs, hrest⟩

end Lox.Text.Quoted

/-!
# Reading bytes as text

Source files are bytes. They are read as UTF-8, and every byte that is not part of a well-formed
character stands for itself as one replacement character, so no byte is dropped and reading never
fails.

* `Utf8.units`: one entry per character, or per byte that belongs to none.
* `Utf8.decode`: lenient reading, a replacement character per bad byte.
* `Utf8.decode?`: strict reading, for formats that refuse bad bytes.
* `Utf8.decode_append_lineEnd`: lenient reading goes line by line.
-/

namespace Lox.Text.Utf8

/-- A byte of the form `10xxxxxx`. -/
def isContinuation (b : UInt8) : Bool :=
  0x80 ≤ b && b ≤ 0xBF

/-- The six low bits that a continuation byte carries. -/
def payload (b : UInt8) : Nat :=
  b.toNat % 0x40

/-- The character that starts with `b` and goes on in `rest`, with the number of bytes of `rest`
it takes. The bounds on the second byte exclude overlong forms, surrogates and code points past
the last one. -/
def charAt? (b : UInt8) (rest : List UInt8) : Option (Char × Nat) :=
  if b < 0x80 then
    some (Char.ofNat b.toNat, 0)
  else if 0xC2 ≤ b && b ≤ 0xDF then
    match rest with
    | b₁ :: _ =>
      if isContinuation b₁ then
        some (Char.ofNat ((b.toNat % 0x20) * 0x40 + payload b₁), 1)
      else none
    | _ => none
  else if 0xE0 ≤ b && b ≤ 0xEF then
    match rest with
    | b₁ :: b₂ :: _ =>
      let low : UInt8 := if b == 0xE0 then 0xA0 else 0x80
      let high : UInt8 := if b == 0xED then 0x9F else 0xBF
      if low ≤ b₁ && b₁ ≤ high && isContinuation b₂ then
        some (Char.ofNat ((b.toNat % 0x10) * 0x1000 + payload b₁ * 0x40 + payload b₂), 2)
      else none
    | _ => none
  else if 0xF0 ≤ b && b ≤ 0xF4 then
    match rest with
    | b₁ :: b₂ :: b₃ :: _ =>
      let low : UInt8 := if b == 0xF0 then 0x90 else 0x80
      let high : UInt8 := if b == 0xF4 then 0x8F else 0xBF
      if low ≤ b₁ && b₁ ≤ high && isContinuation b₂ && isContinuation b₃ then
        some (Char.ofNat ((b.toNat % 0x08) * 0x40000 + payload b₁ * 0x1000 + payload b₂ * 0x40
          + payload b₃), 3)
      else none
    | _ => none
  else none

/-- `units` with `skip` bytes still to pass over, those of a character already read. -/
def unitsFrom : Nat → List UInt8 → List (Option Char)
  | _, [] => []
  | skip + 1, _ :: rest => unitsFrom skip rest
  | 0, b :: rest =>
    match charAt? b rest with
    | some (c, n) => some c :: unitsFrom n rest
    | none => none :: unitsFrom 0 rest

/-- **The units of a text in bytes**: each character of it, and `none` for each byte that belongs
to no character. -/
def units (bytes : List UInt8) : List (Option Char) :=
  unitsFrom 0 bytes

/-- The character that stands for a byte which is part of no character. -/
def replacement : Char := '\uFFFD'

/-- **Lenient reading**: every bad byte becomes one replacement character. -/
def decode (bytes : List UInt8) : String :=
  String.ofList ((units bytes).map fun u => u.getD replacement)

/-- **Strict reading**: `none` as soon as one byte belongs to no character. -/
def decode? (bytes : List UInt8) : Option String :=
  ((units bytes).mapM id).map String.ofList

/-! ### A line end stands by itself -/

theorem le_of_isContinuation {b : UInt8} (h : isContinuation b) : 0x80 ≤ b := by
  rw [isContinuation, Bool.and_eq_true, decide_eq_true_eq] at h
  exact h.1

theorem le_of_ite_le {b low : UInt8} {p : Prop} [Decidable p] (hlow : 0x80 ≤ low)
    (h : (if p then low else 0x80) ≤ b) : 0x80 ≤ b := by
  split at h
  · exact UInt8.le_trans hlow h
  · exact h

/-- **A character is told by its own bytes**, of which only the first can be below `0x80`. -/
theorem charAt?_take {b : UInt8} {rest : List UInt8} {c : Char} {n : Nat}
    (h : charAt? b rest = some (c, n)) :
    n ≤ rest.length ∧ (∀ x ∈ rest.take n, 0x80 ≤ x)
      ∧ ∀ more, charAt? b (rest.take n ++ more) = some (c, n) := by
  unfold charAt? at h
  split at h
  · next h₁ =>
    cases h
    exact ⟨Nat.zero_le _, by simp, fun more => by simp [charAt?, h₁]⟩
  next h₁ =>
  split at h
  · next h₂ =>
    split at h
    · obtain ⟨hb, hchar⟩ := Option.ite_none_right_eq_some.mp h
      cases hchar
      refine ⟨by simp, by simpa using le_of_isContinuation hb, fun more => ?_⟩
      simp [charAt?, h₁, h₂, hb]
    · cases h
  next h₂ =>
  split at h
  · next h₃ =>
    split at h
    · obtain ⟨hb, hchar⟩ := Option.ite_none_right_eq_some.mp h
      cases hchar
      refine ⟨by simp, ?_, fun more => ?_⟩
      · simp only [Bool.and_eq_true, decide_eq_true_eq] at hb
        have hb₁ := le_of_ite_le (by decide) hb.1.1
        have hb₂ := le_of_isContinuation hb.2
        simp [hb₁, hb₂]
      · unfold charAt?
        rw [if_neg h₁, if_neg h₂, if_pos h₃]
        exact if_pos hb
    · cases h
  next h₃ =>
  split at h
  · next h₄ =>
    split at h
    · obtain ⟨hb, hchar⟩ := Option.ite_none_right_eq_some.mp h
      cases hchar
      refine ⟨by simp, ?_, fun more => ?_⟩
      · simp only [Bool.and_eq_true, decide_eq_true_eq] at hb
        have hb₁ := le_of_ite_le (by decide) hb.1.1.1
        have hb₂ := le_of_isContinuation hb.1.2
        have hb₃ := le_of_isContinuation hb.2
        simp [hb₁, hb₂, hb₃]
      · unfold charAt?
        rw [if_neg h₁, if_neg h₂, if_neg h₃, if_pos h₄]
        exact if_pos hb
    · cases h
  · cases h

/-- No character reaches over a line end. -/
theorem charAt?_append_lineEnd (b : UInt8) (front behind : List UInt8) :
    charAt? b (front ++ 0x0A :: behind) = charAt? b front := by
  cases h : charAt? b (front ++ 0x0A :: behind) with
  | none =>
    -- a character that the front holds would be there in the whole too
    refine (Option.eq_none_iff_forall_not_mem.mpr fun ⟨c, n⟩ hfront => ?_).symm
    obtain ⟨-, -, hwhole⟩ := charAt?_take hfront
    have hsame := hwhole (front.drop n ++ 0x0A :: behind)
    rw [← List.append_assoc, List.take_append_drop, h] at hsame
    cases hsame
  | some read =>
    obtain ⟨c, n⟩ := read
    obtain ⟨-, hhigh, hwhole⟩ := charAt?_take h
    have hn : n ≤ front.length := by
      refine Nat.le_of_not_lt fun hlt => absurd (hhigh 0x0A ?_) (by decide)
      obtain ⟨k, rfl⟩ : ∃ k, n = front.length + (k + 1) := ⟨n - front.length - 1, by omega⟩
      rw [List.take_length_add_append]
      exact List.mem_append_right front List.mem_cons_self
    have hsame := hwhole (front.drop n)
    rw [List.take_append_of_le_length hn, List.take_append_drop] at hsame
    exact hsame.symm

theorem unitsFrom_append_lineEnd {n : Nat} {front : List UInt8} (h : n ≤ front.length)
    (behind : List UInt8) :
    unitsFrom n (front ++ 0x0A :: behind) = unitsFrom n front ++ some '\n' :: unitsFrom 0 behind := by
  induction front generalizing n with
  | nil =>
    obtain rfl : n = 0 := Nat.le_zero.mp h
    rfl
  | cons b front ih =>
    cases n with
    | succ n => exact ih (Nat.le_of_succ_le_succ h)
    | zero =>
      rw [List.cons_append, unitsFrom, unitsFrom, charAt?_append_lineEnd]
      cases hread : charAt? b front with
      | none => exact congrArg (none :: ·) (ih (Nat.zero_le _))
      | some read => exact congrArg (some read.1 :: ·) (ih (charAt?_take hread).1)

/-- **Text before and behind a line end is read by itself**, be its bytes well-formed or not. -/
theorem decode_append_lineEnd (front behind : List UInt8) :
    decode (front ++ 0x0A :: behind) = decode front ++ "\n" ++ decode behind := by
  rw [decode, units, unitsFrom_append_lineEnd (Nat.zero_le _), List.map_append, List.map_cons,
    List.append_cons, String.ofList_append, String.ofList_append]
  rfl

end Lox.Text.Utf8

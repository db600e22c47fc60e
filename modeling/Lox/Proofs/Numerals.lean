import Lox.Number.Reading
import Lox.Proofs.MaximalMunch

/-!
# Numbers written plainly

Of all the texts that spell a number, a source text has only the plainest: digits, and digits with a
point between them. Such a text has no sign, no exponent, no name and no prefix of another base, so
reading it comes down to its digits, and it always has a value.

- `Number.IsPlain`: digits and points, the characters of a plain numeral.
- `Number.mantissa?_of_isPlain`, `Number.readDecimal?_of_isPlain`, `Number.read?_of_isPlain`: what
  the steps of reading do with one.
- `Number.read?_of_belongs`: digits, and digits with a point between them, are always read.
-/

namespace Lox.Number

/-- The text has only digits and points. -/
def IsPlain (text : List Char) : Prop := ∀ c ∈ text, c.isDigit ∨ c = '.'

theorem ne_of_isPlain {text : List Char} (h : IsPlain text) (mark : Char)
    (hdigit : ¬ mark.isDigit) (hpoint : mark ≠ '.') : ∀ c ∈ text, c ≠ mark := by
  rintro c hc rfl
  rcases h c hc with hd | hp
  · exact hdigit hd
  · exact hpoint hp

theorem toLower_of_isDigit {c : Char} (h : c.isDigit) : c.toLower = c := by
  simp only [Char.isDigit, Bool.and_eq_true, decide_eq_true_eq, UInt32.le_iff_toNat_le] at h
  unfold Char.toLower
  split
  · next hu =>
    simp only [UInt32.le_iff_toNat_le, ge_iff_le] at hu
    have h9 : '9'.val.toNat = 57 := rfl
    have hA : 'A'.val.toNat = 65 := rfl
    omega
  · rfl

theorem mapM_decimalDigit? {digits : List Char} (h : ∀ d ∈ digits, d.isDigit) :
    ∃ values, digits.mapM decimalDigit? = some values ∧ values.length = digits.length := by
  induction digits with
  | nil => exact ⟨[], rfl, rfl⟩
  | cons d digits ih =>
    obtain ⟨hd, hdigits⟩ := List.forall_mem_cons.mp h
    obtain ⟨values, hvalues, hlength⟩ := ih hdigits
    refine ⟨(d.toNat - '0'.toNat) :: values, ?_, congrArg Nat.succ hlength⟩
    simp [List.mapM_cons, decimalDigit?, hd, hvalues]

/-- There is no underscore that could stand in a wrong place. -/
theorem underscoresSeparate_of_isPlain {text : List Char} (h : IsPlain text) (afterDigit : Bool) :
    underscoresSeparate Char.isDigit afterDigit text = true := by
  have hne := ne_of_isPlain h '_' (by decide) (by decide)
  fun_induction underscoresSeparate Char.isDigit afterDigit text with
  | case1 => rfl
  | case2 => simp at hne
  | case3 => simp at hne
  | case4 afterDigit c rest _ _ ih =>
    have hrest : IsPlain rest := fun d hd => h d (List.mem_cons_of_mem c hd)
    exact ih hrest fun d hd => hne d (List.mem_cons_of_mem c hd)

/-- **Digits with at most one point among or behind them are a mantissa.** -/
theorem mantissa?_of_isPlain {text : List Char} (h : IsPlain text)
    (hwhole : text.takeWhile (· != '.') ≠ [])
    (hfraction : '.' ∉ (text.dropWhile (· != '.')).drop 1) :
    (mantissa? decimalDigit? text).isSome := by
  have hfilter : text.filter (· != '_') = text := by
    refine List.filter_eq_self.mpr fun c hc => bne_iff_ne.mpr ?_
    exact ne_of_isPlain h '_' (by decide) (by decide) c hc
  have hdigits : ∀ d ∈ text.takeWhile (· != '.') ++ (text.dropWhile (· != '.')).drop 1,
      d.isDigit := by
    intro d hd
    rcases List.mem_append.mp hd with hd | hd
    · have hplain := h d (List.takeWhile_sublist _ |>.subset hd)
      have hne : d ≠ '.' := by simpa using List.mem_takeWhile_imp hd
      exact hplain.resolve_right hne
    · have hplain := h d ((List.drop_sublist 1 _ |>.trans (List.dropWhile_sublist _)).subset hd)
      exact hplain.resolve_right fun heq => hfraction (heq ▸ hd)
  obtain ⟨values, hvalues, hlength⟩ := mapM_decimalDigit? hdigits
  have hvalues_ne : values ≠ [] := by
    have hpos := List.length_pos_iff.mpr hwhole
    rw [List.length_append] at hlength
    exact List.length_pos_iff.mp (by omega)
  unfold mantissa?
  simp only [hfilter, hvalues]
  simpa using hvalues_ne

/-- **A plain numeral with a mantissa is read as a decimal.** -/
theorem readDecimal?_of_isPlain {text : List Char} (h : IsPlain text)
    (hmantissa : (mantissa? decimalDigit? text).isSome) : (readDecimal? false text).isSome := by
  have hmark : ∀ c ∈ text, (!(c == 'e' || c == 'E')) = true := by
    intro c hc
    have he := ne_of_isPlain h 'e' (by decide) (by decide) c hc
    have hE := ne_of_isPlain h 'E' (by decide) (by decide) c hc
    simp [he, hE]
  have htake : text.takeWhile (fun c => !(c == 'e' || c == 'E')) = text :=
    List.takeWhile_eq_self_iff.mpr hmark
  have hdrop : text.dropWhile (fun c => !(c == 'e' || c == 'E')) = [] :=
    List.dropWhile_eq_nil_iff.mpr hmark
  obtain ⟨⟨digits, places⟩, hdigits⟩ := Option.isSome_iff_exists.mp hmantissa
  unfold readDecimal?
  simp only [underscoresSeparate_of_isPlain h, htake, hdrop, hdigits]
  rfl

/-- A digit in front rules out the names and the prefix of another base. -/
theorem readUnsigned?_of_isPlain {c : Char} {rest : List Char} (hc : c.isDigit)
    (h : IsPlain (c :: rest)) :
    readUnsigned? false false (c :: rest) = readDecimal? false (c :: rest) := by
  have hword : ∀ (i : Char) (w : List Char), ¬ i.isDigit →
      ((c :: rest).map Char.toLower == i :: w) = false := by
    intro i w hi
    refine beq_eq_false_iff_ne.mpr fun heq => hi ?_
    have hhead := (List.cons.inj heq).1
    rw [toLower_of_isDigit hc] at hhead
    exact hhead ▸ hc
  have hbase : ∀ (base : Char) (rest' : List Char), ¬ base.isDigit → base ≠ '.' →
      c :: rest ≠ '0' :: base :: rest' := by
    intro base rest' hdigit hpoint heq
    exact ne_of_isPlain h base hdigit hpoint base (by simp [heq]) rfl
  have hinf : "inf".toList = 'i' :: ['n', 'f'] := by decide
  have hinfinity : "infinity".toList = 'i' :: ['n', 'f', 'i', 'n', 'i', 't', 'y'] := by decide
  have hnan : "nan".toList = 'n' :: ['a', 'n'] := by decide
  unfold readUnsigned?
  simp only [hinf, hinfinity, hnan, hword 'i' _ (by decide), hword 'n' _ (by decide),
    Bool.or_self, Bool.false_and, Bool.false_eq_true, if_false]
  split
  · next heq => exact absurd heq (hbase 'x' _ (by decide) (by decide))
  · next heq => exact absurd heq (hbase 'X' _ (by decide) (by decide))
  · rfl

/-- **A plain numeral with one point at most, and not in front, is read.** -/
theorem read?_of_isPlain {text : List Char} (h : IsPlain text)
    (hwhole : text.takeWhile (· != '.') ≠ [])
    (hfraction : '.' ∉ (text.dropWhile (· != '.')).drop 1) :
    (read? (String.ofList text)).isSome := by
  have hread := readDecimal?_of_isPlain h (mantissa?_of_isPlain h hwhole hfraction)
  cases text with
  | nil => exact absurd rfl hwhole
  | cons c rest =>
    have hc : c.isDigit := by
      refine (h c List.mem_cons_self).resolve_right ?_
      rintro rfl
      exact hwhole rfl
    -- neither is a digit a sign
    have hsign : c ≠ '+' ∧ c ≠ '-' := by
      constructor <;> rintro rfl <;> cases hc
    unfold read?
    rw [String.toList_ofList]
    split
    · next heq => exact absurd (List.cons.inj heq).1 hsign.1
    · next heq => exact absurd (List.cons.inj heq).1 hsign.2
    · rw [readUnsigned?_of_isPlain hc h]
      exact hread

/-- **Digits, and digits with a point between them, are always read.** -/
theorem read?_of_belongs {text : List Char} (h : Segment.Belongs .number text) :
    (read? (String.ofList text)).isSome := by
  have hne : ∀ {digits : List Char}, (∀ d ∈ digits, d.isDigit) →
      ∀ d ∈ digits, (d != '.') = true := by
    intro digits hdigits d hd
    refine bne_iff_ne.mpr ?_
    rintro rfl
    cases hdigits '.' hd
  cases h with
  | whole hsome hdigits =>
    refine read?_of_isPlain (fun d hd => .inl (hdigits d hd)) ?_ ?_
    · rw [List.takeWhile_eq_self_iff.mpr (hne hdigits)]
      exact hsome
    · rw [List.dropWhile_eq_nil_iff.mpr (hne hdigits)]
      exact List.not_mem_nil
  | @fraction digits decimals hsome hdigits _ hdecimals =>
    refine read?_of_isPlain (fun d hd => ?_) ?_ ?_
    · rcases List.mem_append.mp hd with hd | hd
      · exact .inl (hdigits d hd)
      · rcases List.mem_cons.mp hd with rfl | hd
        · exact .inr rfl
        · exact .inl (hdecimals d hd)
    · rw [List.takeWhile_append_of_pos (hne hdigits)]
      simpa using hsome
    · rw [List.dropWhile_append_of_pos (hne hdigits)]
      exact fun hpoint => bne_iff_ne.mp (hne hdecimals '.' hpoint) rfl

end Lox.Number

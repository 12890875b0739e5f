import Mathlib.Algebra.Order.Ring.Rat
import Mathlib.Data.List.Induction
import Mathlib.Tactic.FieldSimp
import Mathlib.Tactic.Linarith
import Mathlib.Tactic.Positivity
import Mathlib.Tactic.Ring
import SchemaEvolution.Number.Decimal
import SchemaEvolution.Text.Digit
import SchemaEvolution.Proofs.ColumnTypes

/-!
# Decimals and their numbers

A decimal literal is a rational number (`Decimal.value`). Taking superfluous zeros away does not
change it, and leaves a *reduced* decimal: no zero in front of other digits of the whole part, none
at the end of the fraction, no sign on zero. Of the decimals of one number exactly one is reduced
(`Decimal.Reduced.eq_of_value`): the last digit of a fraction tells its length, so both have as
many digits behind the point, and runs of digits without a zero in front are told by their value.

Which texts are literals is said without the parser: `Decimal.Spells` gives the texts of a decimal
and `Decimal.Denotes` the number of a text, where blanks around it do not count and `true` and
`false` are one and zero. So **two literals have the same canonical form iff they are the same
number** (`Decimal.canonical?_eq_iff`), and only literals have one
(`Decimal.canonical?_eq_none_iff`).
-/

namespace SchemaEvolution

open Text

/-! ## Runs of digits -/

namespace Text

variable {c : Char} {cs ds : List Char}

theorem digitsValue_append (cs ds : List Char) :
    digitsValue (cs ++ ds) = digitsValue cs * 10 ^ ds.length + digitsValue ds := by
  induction ds using List.reverseRecOn with
  | nil => simp [digitsValue]
  | append_singleton ds d ih =>
    simp only [digitsValue, List.foldl_append, List.foldl_cons, List.foldl_nil] at ih ⊢
    rw [ih, List.length_append, List.length_singleton]
    ring

theorem digitsValue_cons (c : Char) (cs : List Char) :
    digitsValue (c :: cs) = digitValue c * 10 ^ cs.length + digitsValue cs := by
  simpa [digitsValue] using digitsValue_append [c] cs

theorem isDigit_iff : c.isDigit = true ↔ 48 ≤ c.toNat ∧ c.toNat ≤ 57 := by
  simp only [Char.isDigit, Bool.and_eq_true, decide_eq_true_eq, UInt32.le_iff_toNat_le]
  exact Iff.rfl

theorem digitValue_lt (h : c.isDigit = true) : digitValue c < 10 := by
  have hc := isDigit_iff.1 h
  simp only [digitValue]
  omega

theorem eq_of_digitValue_eq {d : Char} (hc : c.isDigit = true) (hd : d.isDigit = true)
    (h : digitValue c = digitValue d) : c = d := by
  have hc := isDigit_iff.1 hc
  have hd := isDigit_iff.1 hd
  simp only [digitValue] at h
  exact Char.toNat_inj.1 (by omega)

theorem eq_of_mul_add_eq {a b m n k : ℕ} (hm : m < k) (hn : n < k) (h : a * k + m = b * k + n) :
    a = b ∧ m = n := by
  have hab : a = b := by
    have := congrArg (· / k) h
    simpa [Nat.mul_add_div, Nat.div_eq_of_lt, hm, hn, mul_comm _ k, Nat.zero_lt_of_lt hm] using this
  exact ⟨hab, by rw [hab] at h; omega⟩

theorem digitsValue_lt (h : ∀ c ∈ cs, c.isDigit = true) : digitsValue cs < 10 ^ cs.length := by
  induction cs with
  | nil => simp [digitsValue]
  | cons c cs ih =>
    have hc : digitValue c + 1 ≤ 10 := digitValue_lt (h c (by simp))
    have hcs := ih fun d hd => h d (by simp [hd])
    calc digitsValue (c :: cs)
        = digitValue c * 10 ^ cs.length + digitsValue cs := digitsValue_cons c cs
      _ < (digitValue c + 1) * 10 ^ cs.length := by rw [Nat.succ_mul]; omega
      _ ≤ 10 * 10 ^ cs.length := Nat.mul_le_mul_right _ hc
      _ = 10 ^ (c :: cs).length := by rw [List.length_cons, pow_succ, Nat.mul_comm]

theorem eq_of_digitsValue_eq (hcs : ∀ c ∈ cs, c.isDigit = true) (hds : ∀ c ∈ ds, c.isDigit = true)
    (hlen : cs.length = ds.length) (h : digitsValue cs = digitsValue ds) : cs = ds := by
  induction cs generalizing ds with
  | nil => exact (List.length_eq_zero_iff.1 hlen.symm).symm
  | cons c cs ih =>
    obtain ⟨d, ds, rfl⟩ := List.exists_cons_of_length_eq_add_one hlen.symm
    have hlen : cs.length = ds.length := by simpa using hlen
    have hc := digitsValue_lt fun e he => hcs e (List.mem_cons_of_mem _ he)
    have hd := digitsValue_lt fun e he => hds e (List.mem_cons_of_mem _ he)
    rw [digitsValue_cons, digitsValue_cons, hlen] at h
    rw [hlen] at hc
    obtain ⟨hhead, htail⟩ := eq_of_mul_add_eq hc hd h
    rw [eq_of_digitValue_eq (hcs c (by simp)) (hds d (by simp)) hhead,
      ih (fun e he => hcs e (by simp [he])) (fun e he => hds e (by simp [he])) hlen htail]

/-- A run that does not begin with a zero is no longer than one of at least its value. -/
theorem length_le_of_digitsValue_le (hcs : ∀ c ∈ cs, c.isDigit = true)
    (hds : ∀ c ∈ ds, c.isDigit = true) (h0 : cs.head? ≠ some '0')
    (h : digitsValue cs ≤ digitsValue ds) : cs.length ≤ ds.length := by
  cases cs with
  | nil => simp
  | cons c cs =>
    have hc : 1 ≤ digitValue c := by
      refine Nat.one_le_iff_ne_zero.2 fun hz => h0 ?_
      rw [List.head?_cons, eq_of_digitValue_eq (hcs c (by simp)) (by decide : '0'.isDigit) hz]
    have hpow : 10 ^ cs.length < 10 ^ ds.length :=
      calc 10 ^ cs.length ≤ digitValue c * 10 ^ cs.length := Nat.le_mul_of_pos_left _ hc
        _ ≤ digitsValue (c :: cs) := by rw [digitsValue_cons]; omega
        _ ≤ digitsValue ds := h
        _ < 10 ^ ds.length := digitsValue_lt hds
    exact (Nat.pow_lt_pow_iff_right (by decide)).1 hpow

/-- **Runs that do not begin with a zero are told by their value.** -/
theorem eq_of_digitsValue_eq_of_head (hcs : ∀ c ∈ cs, c.isDigit = true)
    (hds : ∀ c ∈ ds, c.isDigit = true) (hc0 : cs.head? ≠ some '0') (hd0 : ds.head? ≠ some '0')
    (h : digitsValue cs = digitsValue ds) : cs = ds :=
  eq_of_digitsValue_eq hcs hds (le_antisymm (length_le_of_digitsValue_le hcs hds hc0 h.le)
    (length_le_of_digitsValue_le hds hcs hd0 h.ge)) h

theorem digitsValue_ne_zero (h : ∀ c ∈ cs, c.isDigit = true) (hne : cs ≠ [])
    (h0 : cs.head? ≠ some '0') : digitsValue cs ≠ 0 := by
  intro hz
  have hnil : digitsValue cs = digitsValue [] := hz
  exact hne (eq_of_digitsValue_eq_of_head h (by simp) h0 (by simp) hnil)

theorem digitsValue_dropWhile (cs : List Char) :
    digitsValue (cs.dropWhile (· == '0')) = digitsValue cs := by
  induction cs with
  | nil => rfl
  | cons c cs ih =>
    by_cases h : c = '0'
    · rw [List.dropWhile_cons_of_pos (by simpa using h), ih, digitsValue_cons, h]
      simp [digitValue]
    · rw [List.dropWhile_cons_of_neg (by simpa using h)]

end Text

namespace Number.Decimal

variable {d e : Decimal}

/-! ## The number of a decimal -/

/-- The digits of a decimal without its point. -/
def digits (d : Decimal) : List Char :=
  d.whole ++ d.fraction

/-- The number without its sign. -/
def magnitude (d : Decimal) : ℚ :=
  digitsValue d.digits / 10 ^ d.fraction.length

def value (d : Decimal) : ℚ :=
  if d.negative then -d.magnitude else d.magnitude

theorem magnitude_nonneg (d : Decimal) : 0 ≤ d.magnitude := by
  unfold magnitude
  positivity

theorem abs_value (d : Decimal) : |d.value| = d.magnitude := by
  unfold value
  split <;> simp [abs_of_nonneg d.magnitude_nonneg]

/-- A number that is its own opposite is zero. -/
theorem magnitude_eq_zero_of_negative_ne (hne : d.negative ≠ e.negative)
    (hm : d.magnitude = e.magnitude) (h : d.value = e.value) : d.magnitude = 0 := by
  rw [value, value, ← hm] at h
  cases hd : d.negative <;> cases he : e.negative
  · exact absurd (hd.trans he.symm) hne
  · simp only [hd, he, Bool.false_eq_true, if_false, if_true] at h
    linarith
  · simp only [hd, he, Bool.false_eq_true, if_false, if_true] at h
    linarith
  · exact absurd (hd.trans he.symm) hne

theorem magnitude_eq (d : Decimal) : d.magnitude =
    digitsValue d.whole + digitsValue d.fraction / 10 ^ d.fraction.length := by
  have h10 : (10 : ℚ) ^ d.fraction.length ≠ 0 := by positivity
  rw [magnitude, digits, digitsValue_append]
  push_cast
  field_simp

theorem digitsValue_div_append_zeros (cs : List Char) (n : ℕ) :
    (digitsValue (cs ++ List.replicate n '0') : ℚ) / 10 ^ (cs ++ List.replicate n '0').length =
      digitsValue cs / 10 ^ cs.length := by
  have hz : digitsValue (List.replicate n '0') = 0 := by
    rw [← digitsValue_dropWhile, List.dropWhile_replicate]
    simp [digitsValue]
  have hn : (10 : ℚ) ^ n ≠ 0 := by positivity
  rw [digitsValue_append, hz, List.length_append, List.length_replicate, pow_add]
  push_cast
  rw [add_zero, mul_div_mul_right _ _ hn]

theorem exists_append_zeros (cs : List Char) :
    ∃ n, cs = (cs.reverse.dropWhile (· == '0')).reverse ++ List.replicate n '0' := by
  refine ⟨(cs.reverse.takeWhile (· == '0')).length, ?_⟩
  have htake : cs.reverse.takeWhile (· == '0') =
      List.replicate (cs.reverse.takeWhile (· == '0')).length '0' :=
    List.eq_replicate_iff.2 ⟨rfl, fun c hc => by simpa using List.mem_takeWhile_imp hc⟩
  conv_lhs => rw [← cs.reverse_reverse, ← List.takeWhile_append_dropWhile (p := (· == '0'))
    (l := cs.reverse), List.reverse_append, htake, List.reverse_replicate]

/-- **Superfluous zeros do not count.** -/
theorem magnitude_reduce (d : Decimal) : d.reduce.magnitude = d.magnitude := by
  have hwhole : digitsValue d.reduce.whole = digitsValue d.whole := by
    rw [← digitsValue_dropWhile d.whole, reduce]
    dsimp only
    split
    next h => rw [h]; rfl
    next => rfl
  obtain ⟨n, hn⟩ := exists_append_zeros d.fraction
  rw [magnitude_eq, magnitude_eq, hwhole]
  conv_rhs => rw [hn, digitsValue_div_append_zeros]
  rfl

theorem value_reduce (d : Decimal) : d.reduce.value = d.value := by
  rw [value, value, magnitude_reduce]
  cases hs : d.reduce.negative with
  | true =>
    have hd : d.negative = true := (Bool.and_eq_true_iff.1 hs).1
    rw [hd]
  | false =>
    cases hd : d.negative with
    | false => rfl
    | true =>
      -- The sign was dropped, so no digit is left.
      have hnil : d.whole.dropWhile (· == '0') = [] ∧
          (d.fraction.reverse.dropWhile (· == '0')).reverse = [] := by
        simpa [reduce, hd] using hs
      have hzero : d.reduce.magnitude = 0 := by
        simp [magnitude, digits, reduce, hnil.1, hnil.2, digitsValue, digitValue]
      rw [← magnitude_reduce d, hzero]
      simp

/-! ## Reduced decimals -/

/-- Digits without superfluous zeros, and no sign on zero. -/
structure Reduced (d : Decimal) : Prop where
  isDigit : ∀ c ∈ d.digits, c.isDigit = true
  whole : d.whole = ['0'] ∨ d.whole ≠ [] ∧ d.whole.head? ≠ some '0'
  fraction : d.fraction.getLast? ≠ some '0'
  sign : d.negative = true → ¬(d.whole = ['0'] ∧ d.fraction = [])

theorem reduced_zero : Reduced ⟨false, ['0'], []⟩ :=
  ⟨by simp [digits], .inl rfl, by simp, by simp⟩

theorem reduced_one : Reduced ⟨false, ['1'], []⟩ :=
  ⟨by simp [digits], .inr (by simp), by simp, by simp⟩

theorem head?_dropWhile_ne (cs : List Char) : (cs.dropWhile (· == '0')).head? ≠ some '0' := by
  intro h
  have := List.head?_dropWhile_not (· == '0') cs
  simp [h] at this

theorem reduced_reduce (h : ∀ c ∈ d.digits, c.isDigit = true) : d.reduce.Reduced where
  isDigit c hc := by
    rcases List.mem_append.1 hc with hc | hc
    · simp only [reduce] at hc
      split at hc
      · obtain rfl := List.mem_singleton.1 hc
        decide
      · exact h c (List.mem_append_left _ ((List.dropWhile_sublist _).mem hc))
    · have := (List.dropWhile_sublist _).mem (List.mem_reverse.1 hc)
      exact h c (List.mem_append_right _ (List.mem_reverse.1 this))
  whole := by
    simp only [reduce]
    split
    next => exact .inl rfl
    next hne => exact .inr ⟨hne, head?_dropWhile_ne _⟩
  fraction := by
    simpa [reduce] using head?_dropWhile_ne d.fraction.reverse
  sign hs := by
    rintro ⟨hw, hf⟩
    simp only [reduce] at hs hw hf
    split at hw
    next hnil => simp [hnil, hf] at hs
    next hne => exact head?_dropWhile_ne d.whole (by simp [hw])

namespace Reduced

theorem isDigit_whole (hd : Reduced d) : ∀ c ∈ d.whole, c.isDigit = true :=
  fun c hc => hd.isDigit c (List.mem_append_left _ hc)

theorem isDigit_fraction (hd : Reduced d) : ∀ c ∈ d.fraction, c.isDigit = true :=
  fun c hc => hd.isDigit c (List.mem_append_right _ hc)

theorem digitsValue_mul (h : d.magnitude = e.magnitude) :
    digitsValue d.digits * 10 ^ e.fraction.length =
      digitsValue e.digits * 10 ^ d.fraction.length := by
  have hd : (10 : ℚ) ^ d.fraction.length ≠ 0 := by positivity
  have he : (10 : ℚ) ^ e.fraction.length ≠ 0 := by positivity
  have := (div_eq_div_iff hd he).1 h
  exact_mod_cast this

/-- A number has no longer fraction than the reduced one: the last digit counts. -/
theorem length_fraction_le (hd : Reduced d) (h : d.magnitude = e.magnitude) :
    d.fraction.length ≤ e.fraction.length := by
  by_contra hlt
  obtain ⟨k, hk⟩ := Nat.exists_eq_add_of_lt (Nat.lt_of_not_le hlt)
  obtain ⟨cs, c, hc⟩ : ∃ cs c, d.fraction = cs ++ [c] :=
    (List.eq_nil_or_concat' d.fraction).resolve_left fun h => by simp [h] at hk
  have hval : digitsValue d.digits = digitsValue e.digits * 10 ^ k * 10 := by
    have := digitsValue_mul h
    rw [hk, pow_succ, pow_add] at this
    refine Nat.eq_of_mul_eq_mul_right (Nat.pow_pos (n := e.fraction.length) (by decide : 0 < 10)) ?_
    rw [this]
    ring
  have hlast : digitsValue d.digits = digitsValue (d.whole ++ cs) * 10 + digitValue c := by
    rw [digits, hc, ← List.append_assoc, digitsValue_append]
    simp [digitsValue]
  have hdigit : c.isDigit = true := hd.isDigit_fraction c (by simp [hc])
  have hc0 : digitValue c = 0 := by
    have := digitValue_lt hdigit
    omega
  refine hd.fraction ?_
  rw [hc, List.getLast?_concat, eq_of_digitValue_eq hdigit (by decide : '0'.isDigit) hc0]

theorem whole_eq (hd : Reduced d) (he : Reduced e)
    (h : digitsValue d.whole = digitsValue e.whole) : d.whole = e.whole := by
  rcases hd.whole with hd0 | ⟨hdne, hdhead⟩ <;> rcases he.whole with he0 | ⟨hene, hehead⟩
  · rw [hd0, he0]
  · rw [hd0] at h
    exact absurd h.symm (digitsValue_ne_zero he.isDigit_whole hene hehead)
  · rw [he0] at h
    exact absurd h (digitsValue_ne_zero hd.isDigit_whole hdne hdhead)
  · exact eq_of_digitsValue_eq_of_head hd.isDigit_whole he.isDigit_whole hdhead hehead h

/-- **The digits of reduced decimals are told by the number.** -/
theorem parts_eq (hd : Reduced d) (he : Reduced e) (h : d.magnitude = e.magnitude) :
    d.whole = e.whole ∧ d.fraction = e.fraction := by
  have hlen : d.fraction.length = e.fraction.length :=
    le_antisymm (hd.length_fraction_le h) (he.length_fraction_le h.symm)
  have hdigits : digitsValue d.digits = digitsValue e.digits := by
    have := digitsValue_mul h
    rw [hlen] at this
    exact Nat.eq_of_mul_eq_mul_right (Nat.pow_pos (by decide)) this
  rw [digits, digits, digitsValue_append, digitsValue_append, hlen] at hdigits
  obtain ⟨hw, hf⟩ := eq_of_mul_add_eq (hlen ▸ digitsValue_lt hd.isDigit_fraction)
    (digitsValue_lt he.isDigit_fraction) hdigits
  exact ⟨whole_eq hd he hw, eq_of_digitsValue_eq hd.isDigit_fraction he.isDigit_fraction hlen hf⟩

/-- **A number has only one reduced decimal.** -/
theorem eq_of_value (hd : Reduced d) (he : Reduced e) (h : d.value = e.value) : d = e := by
  have hmag : d.magnitude = e.magnitude := by
    rw [← abs_value d, h, abs_value]
  obtain ⟨hw, hf⟩ := hd.parts_eq he hmag
  have hsign : d.negative = e.negative := by
    by_contra hne
    -- A number of either sign is zero, and zero has no sign.
    have hzero : d.magnitude = magnitude ⟨false, ['0'], []⟩ := by
      rw [magnitude_eq_zero_of_negative_ne hne hmag h]
      simp [magnitude, digits, digitsValue, digitValue]
    have hd0 := hd.parts_eq reduced_zero hzero
    have he0 := he.parts_eq reduced_zero (hmag.symm.trans hzero)
    cases hs : d.negative with
    | true => exact hd.sign hs hd0
    | false => exact he.sign (by simpa [hs] using hne) he0
  cases d
  cases e
  simp_all

end Reduced

/-! ## The texts of a decimal -/

/-- A sign in front of a number, and whether it is the negative one. -/
inductive Sign : List Char → Bool → Prop
  | none : Sign [] false
  | plus : Sign ['+'] false
  | minus : Sign ['-'] true

/-- The texts of a decimal: a sign if any, and digits with at most one point. -/
inductive Spells : List Char → Decimal → Prop
  | whole {sign whole : List Char} {negative : Bool} (hsign : Sign sign negative)
      (hne : whole ≠ []) (hdigits : ∀ c ∈ whole, c.isDigit = true) :
      Spells (sign ++ whole) ⟨negative, whole, []⟩
  | point {sign whole fraction : List Char} {negative : Bool} (hsign : Sign sign negative)
      (hne : whole ++ fraction ≠ []) (hdigits : ∀ c ∈ whole ++ fraction, c.isDigit = true) :
      Spells (sign ++ (whole ++ '.' :: fraction)) ⟨negative, whole, fraction⟩

/-- The number of a text, with blanks around it and letters of either case. -/
inductive Denotes (raw : List Char) : ℚ → Prop
  | yes (h : (trim raw).map Char.toLower = "true".toList) : Denotes raw 1
  | no (h : (trim raw).map Char.toLower = "false".toList) : Denotes raw 0
  | decimal {d : Decimal} (h : Spells ((trim raw).map Char.toLower) d) : Denotes raw d.value

/-- A text that is a decimal, or one of the words that count as one. -/
def IsLiteral (raw : List Char) : Prop :=
  ∃ q, Denotes raw q

theorem Spells.isDigit {text : List Char} (h : Spells text d) :
    ∀ c ∈ d.digits, c.isDigit = true := by
  cases h with
  | whole _ _ hdigits => simpa [digits] using hdigits
  | point _ _ hdigits => exact hdigits

theorem splitSign_append {sign rest : List Char} {negative : Bool} (hsign : Sign sign negative)
    (hrest : rest.head? ≠ some '-' ∧ rest.head? ≠ some '+') :
    splitSign (sign ++ rest) = (negative, rest) := by
  cases hsign with
  | none =>
    unfold splitSign
    split
    next hr => simp_all
    next hr => simp_all
    next => rfl
  | plus => rfl
  | minus => rfl

theorem exists_sign (cs : List Char) :
    ∃ sign, Sign sign (splitSign cs).1 ∧ cs = sign ++ (splitSign cs).2 := by
  unfold splitSign
  split
  next r => exact ⟨['-'], .minus, rfl⟩
  next r => exact ⟨['+'], .plus, rfl⟩
  next => exact ⟨[], .none, rfl⟩

theorem head?_ne_of_digits {whole rest : List Char} (hdigits : ∀ c ∈ whole, c.isDigit = true)
    (hrest : rest = [] ∨ rest.head? = some '.') :
    (whole ++ rest).head? ≠ some '-' ∧ (whole ++ rest).head? ≠ some '+' := by
  cases whole with
  | nil => rcases hrest with rfl | h <;> simp_all
  | cons c whole =>
    have hc := hdigits c (by simp)
    constructor <;> rintro ⟨⟩ <;> simp at hc

theorem point_notMem {cs : List Char} (h : ∀ c ∈ cs, c.isDigit = true) : '.' ∉ cs :=
  fun hc => by simpa using h _ hc

theorem ofChars?_eq_some_iff {text : List Char} : ofChars? text = some d ↔ Spells text d := by
  constructor
  · intro h
    obtain ⟨sign, hsign, htext⟩ := exists_sign text
    unfold ofChars? at h
    generalize splitSign text = parts at h hsign htext
    obtain ⟨negative, rest⟩ := parts
    subst htext
    dsimp only at h
    cases hcut : cutAt ['.'] rest with
    | none =>
      simp only [hcut, Option.getD_none, List.append_nil, Option.ite_none_right_eq_some,
        Option.some.injEq, List.all_eq_true] at h
      obtain ⟨⟨hne, hdigits⟩, rfl⟩ := h
      exact .whole hsign hne hdigits
    | some sides =>
      obtain ⟨rfl, -⟩ := cutAt_char_eq_some_iff.1 hcut
      simp only [hcut, Option.getD_some, Option.ite_none_right_eq_some,
        Option.some.injEq, List.all_eq_true] at h
      obtain ⟨⟨hne, hdigits⟩, rfl⟩ := h
      exact .point hsign hne hdigits
  · intro h
    cases h with
    | @whole sign whole negative hsign hne hdigits =>
      have hsplit : splitSign (sign ++ whole) = (negative, whole) :=
        splitSign_append hsign (by simpa using head?_ne_of_digits hdigits (.inl rfl))
      have hcut := cutAt_char_eq_none_iff.2 (point_notMem hdigits)
      simp only [ofChars?, hsplit, hcut, Option.getD_none, List.append_nil]
      exact if_pos ⟨hne, List.all_eq_true.2 hdigits⟩
    | @point sign whole fraction negative hsign hne hdigits =>
      have hwhole : ∀ c ∈ whole, c.isDigit = true := fun c hc => hdigits c (by simp [hc])
      have hsplit : splitSign (sign ++ (whole ++ '.' :: fraction)) =
          (negative, whole ++ '.' :: fraction) :=
        splitSign_append hsign (head?_ne_of_digits hwhole (.inr rfl))
      have hcut := cutAt_char_eq_some_iff.2
        ⟨(rfl : whole ++ '.' :: fraction = _), point_notMem hwhole⟩
      simp only [ofChars?, hsplit, hcut, Option.getD_some]
      exact if_pos ⟨hne, List.all_eq_true.2 hdigits⟩

/-! ## Canonical forms -/

theorem Reduced.spells_render (hd : Reduced d) : Spells d.render d := by
  have hne : d.whole ≠ [] := by
    rcases hd.whole with h | h
    · simp [h]
    · exact h.1
  have hsign : Sign (if d.negative then ['-'] else []) d.negative := by
    cases d.negative
    · exact .none
    · exact .minus
  obtain ⟨negative, whole, fraction⟩ := d
  by_cases hf : fraction = []
  · subst hf
    simpa [render] using Spells.whole hsign hne hd.isDigit_whole
  · simpa [render, hf] using Spells.point hsign (by simp [hf]) hd.isDigit

theorem Reduced.eq_of_render (hd : Reduced d) (he : Reduced e) (h : d.render = e.render) : d = e :=
  Option.some.inj ((ofChars?_eq_some_iff.2 hd.spells_render).symm.trans
    (h ▸ ofChars?_eq_some_iff.2 he.spells_render))

variable {a b raw : List Char} {p q : ℚ}

/-- The canonical form of a literal is the reduced decimal of its number. -/
theorem Denotes.canonical? (h : Denotes raw q) :
    ∃ d, Reduced d ∧ d.value = q ∧ canonical? raw = some d.render := by
  cases h with
  | yes h => exact ⟨_, reduced_one, by simp [value, magnitude, digits, digitsValue, digitValue], by
      simp [Decimal.canonical?, h, render]⟩
  | no h => exact ⟨_, reduced_zero, by simp [value, magnitude, digits, digitsValue, digitValue], by
      simp [Decimal.canonical?, h, render]⟩
  | @decimal d h =>
    have hparts := ofChars?_eq_some_iff.2 h
    have hyes : (trim raw).map Char.toLower ≠ "true".toList := fun ht => by
      rw [ht, (by decide : ofChars? "true".toList = none)] at hparts
      cases hparts
    have hno : (trim raw).map Char.toLower ≠ "false".toList := fun ht => by
      rw [ht, (by decide : ofChars? "false".toList = none)] at hparts
      cases hparts
    refine ⟨d.reduce, reduced_reduce h.isDigit, value_reduce d, ?_⟩
    simp only [Decimal.canonical?]
    rw [if_neg hyes, if_neg hno, hparts, Option.map_some]

/-- **Only literals have a canonical form.** -/
theorem canonical?_eq_none_iff : canonical? raw = none ↔ ¬IsLiteral raw := by
  constructor
  · rintro h ⟨q, hq⟩
    obtain ⟨d, -, -, hd⟩ := hq.canonical?
    rw [hd] at h
    cases h
  · intro h
    simp only [Decimal.canonical?]
    rw [if_neg fun hyes => h ⟨_, .yes hyes⟩, if_neg fun hno => h ⟨_, .no hno⟩,
      Option.map_eq_none_iff, Option.eq_none_iff_forall_ne_some]
    exact fun d hd => h ⟨_, .decimal (ofChars?_eq_some_iff.1 hd)⟩

/-- **Two literals have the same canonical form iff they are the same number.** -/
theorem canonical?_eq_iff (ha : Denotes a p) (hb : Denotes b q) :
    canonical? a = canonical? b ↔ p = q := by
  obtain ⟨d, hd, rfl, hda⟩ := ha.canonical?
  obtain ⟨e, he, rfl, heb⟩ := hb.canonical?
  rw [hda, heb, Option.some.injEq]
  constructor
  · intro h
    rw [hd.eq_of_render he h]
  · intro h
    rw [hd.eq_of_value he h]

theorem Denotes.unique (hp : Denotes raw p) (hq : Denotes raw q) : p = q :=
  (canonical?_eq_iff hp hq).1 rfl

end Number.Decimal
end SchemaEvolution

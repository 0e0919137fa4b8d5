import InfraGraph.Json.Printer
import InfraGraph.Json.Reader
import InfraGraph.Proofs.Json.Clean

/-!
# Reading what was written: strings and numbers

A string is written one character after the other, and each character is read
back from what was written for it, whether it stands for itself, is escaped by a
letter or by its number.  An integer is written in decimal digits; where no
digit follows, nor anything else that a number goes on with, those are the
digits that are read.

Text is written onto the end of other text, so what is written for something is
what the output grows by.

## Main definitions

* `Json.EndsNumber` — a text that no number goes on with.

## Main results

* `exists_writeString` — strings.
* `readNumber_toString` — integers of a machine word.
-/

namespace InfraGraph

namespace Json

/-! ## Strings -/

/-- The digits of a control character are read as its number. -/
theorem hexUnit?_hexChar {n : Nat} (h : n < 0x20) :
    hexUnit? '0' '0' (hexChar (n / 16)) (hexChar (n % 16)) = some n := by
  revert h n
  decide

theorem readString_escape {letter c : Char} (hletter : letter ≠ 'u')
    (h : shortEscape? letter = some c) (done : String) (rest : List Char) :
    readString done ('\\' :: letter :: rest) = readString (done.push c) rest := by
  rw [readString.eq_def]
  simp [hletter, h]

theorem readString_unit {c : Char} (h : c.toNat < 0x20) (done : String) (rest : List Char) :
    readString done ('\\' :: 'u' :: '0' :: '0' :: hexChar (c.toNat / 16) :: hexChar (c.toNat % 16)
      :: rest) = readString (done.push c) rest := by
  have hlow : isLowSurrogate c.toNat = false := by
    simp only [isLowSurrogate, Bool.and_eq_false_iff, decide_eq_false_iff_not]
    omega
  have hhigh : isHighSurrogate c.toNat = false := by
    simp only [isHighSurrogate, Bool.and_eq_false_iff, decide_eq_false_iff_not]
    omega
  rw [readString.eq_def]
  simp [hexUnit?_hexChar h, hlow, hhigh]

theorem readString_plain {c : Char} (hquote : c ≠ '"') (hbackslash : c ≠ '\\')
    (hcontrol : isControl c = false) (done : String) (rest : List Char) :
    readString done (c :: rest) = readString (done.push c) rest := by
  rw [readString.eq_def]
  simp [hbackslash, hcontrol]

/-- A text that was written for a character. -/
def ReadsChar (text : List Char) (c : Char) : Prop :=
  ∀ done rest, readString done (text ++ rest) = readString (done.push c) rest

theorem exists_escape (out : String) {c e letter : Char} {text : String} (hc : (c == e) = true)
    (hletter : letter ≠ 'u') (hescape : shortEscape? letter = some e)
    (htext : text.toList = ['\\', letter]) :
    ∃ written, (out ++ text).toList = out.toList ++ written ∧ ReadsChar written c := by
  obtain rfl : c = e := eq_of_beq hc
  refine ⟨['\\', letter], ?_, readString_escape hletter hescape⟩
  rw [String.toList_append, htext]

/-- **A character** is read back from what is written for it. -/
theorem exists_writeChar (out : String) (c : Char) :
    ∃ text, (writeChar out c).toList = out.toList ++ text ∧ ReadsChar text c := by
  unfold writeChar
  split
  · next h => exact exists_escape out h (by decide) rfl rfl
  split
  · next h => exact exists_escape out h (by decide) rfl rfl
  split
  · next h => exact exists_escape out h (by decide) rfl rfl
  split
  · next h => exact exists_escape out h (by decide) rfl rfl
  split
  · next h => exact exists_escape out h (by decide) rfl rfl
  split
  · next h => exact exists_escape out h (by decide) rfl rfl
  split
  · next h => exact exists_escape out h (by decide) rfl rfl
  split
  · next h =>
      refine ⟨['\\', 'u', '0', '0', hexChar (c.toNat / 16), hexChar (c.toNat % 16)], ?_,
        readString_unit h⟩
      simp
  · next hquote hbackslash _ _ _ _ _ hcontrol =>
      refine ⟨[c], String.toList_push c, readString_plain ?_ ?_ ?_⟩
      · rintro rfl
        exact hquote rfl
      · rintro rfl
        exact hbackslash rfl
      · exact decide_eq_false hcontrol

theorem exists_foldl_writeChar (cs : List Char) (out : String) :
    ∃ text, (cs.foldl writeChar out).toList = out.toList ++ text ∧
      ∀ done rest, readString done (text ++ rest) =
        readString (done ++ String.ofList cs) rest := by
  induction cs generalizing out with
  | nil => exact ⟨[], by simp, fun done rest => by simp⟩
  | cons c cs ih =>
      obtain ⟨first, hfirst, hread⟩ := exists_writeChar out c
      obtain ⟨others, hothers, hall⟩ := ih (writeChar out c)
      refine ⟨first ++ others, ?_, fun done rest => ?_⟩
      · rw [List.foldl_cons, hothers, hfirst, List.append_assoc]
      · have hpush : done.push c ++ String.ofList cs = done ++ String.ofList (c :: cs) := by
          rw [← String.toList_inj]
          simp
        rw [List.append_assoc, hread, hall, hpush]

/-- **A string** is read back from what is written for it. -/
theorem exists_writeString (out s : String) :
    ∃ text, (writeString out s).toList = out.toList ++ '"' :: text ∧
      ∀ rest, readString "" (text ++ rest) = .ok (s, rest) := by
  obtain ⟨text, htext, hread⟩ := exists_foldl_writeChar s.toList (out.push '"')
  refine ⟨text ++ ['"'], ?_, fun rest => ?_⟩
  · simp [writeString, htext]
  · rw [List.append_assoc, hread]
    simp [readString]

/-! ## Numbers -/

/-- A text that does not begin with anything that a number goes on with. -/
def EndsNumber (text : List Char) : Prop :=
  ∀ c ∈ text.head?, c.isDigit = false ∧ c ≠ '.' ∧ c ≠ 'e' ∧ c ≠ 'E'

theorem readDigits_append {digits rest : List Char} (hdigits : ∀ c ∈ digits, c.isDigit)
    (hrest : EndsNumber rest) (done : List Char) :
    readDigits done (digits ++ rest) = (done.reverse ++ digits, rest) := by
  induction digits generalizing done with
  | nil =>
      cases rest with
      | nil => simp [readDigits]
      | cons c rest =>
          have hc : c.isDigit = false := (hrest c rfl).1
          simp [readDigits, hc]
  | cons c digits ih =>
      obtain ⟨hc, hdigits⟩ := List.forall_mem_cons.1 hdigits
      simp [readDigits, hc, ih hdigits]

/-- Only zero is written with a zero in front. -/
theorem head?_toDigits {n : Nat} (h : 0 < n) : (Nat.toDigits 10 n).head? ≠ some '0' := by
  have hdigit : ∀ d < 10, 0 < d → [Nat.digitChar d].head? ≠ some '0' := by decide
  induction n using Nat.strongRecOn with
  | ind n ih =>
      rw [Nat.toDigits_eq_if (by decide)]
      by_cases hlt : n < 10
      · rw [if_pos hlt]
        exact hdigit n hlt h
      · have hfirst := ih (n / 10) (by omega) (by omega)
        rw [if_neg hlt]
        cases hdigits : Nat.toDigits 10 (n / 10) with
        | nil => exact absurd hdigits Nat.toDigits_ne_nil
        | cons c cs =>
            rw [hdigits] at hfirst
            exact hfirst

theorem digitsValue_toDigits (n : Nat) : digitsValue (Nat.toDigits 10 n) = n := by
  have hvalue : digitsValue (Nat.toDigits 10 n) = Nat.ofDigitChars 10 (Nat.toDigits 10 n) 0 := by
    rw [Nat.ofDigitChars_eq_foldl, digitsValue]
    exact congrArg (List.foldl · 0 _) (funext fun m => funext fun c =>
      congrArg (· + _) (Nat.mul_comm m 10))
  rw [hvalue, Nat.ofDigitChars_ten_toDigits]

section

variable {rest : List Char} (hrest : EndsNumber rest)

include hrest

theorem readFraction_of_ends : readFraction rest = .ok (none, rest) := by
  cases rest with
  | nil => rfl
  | cons c rest =>
      obtain ⟨-, hpoint, -, -⟩ := hrest c rfl
      simp [readFraction, hpoint]

theorem readExponent_of_ends : readExponent rest = .ok (none, rest) := by
  cases rest with
  | nil => rfl
  | cons c rest =>
      obtain ⟨-, -, hsmall, hlarge⟩ := hrest c rfl
      simp [readExponent, hsmall, hlarge]

/-- Digits without a sign and with one, and what they are read as. -/
theorem readNumber_digits {c : Char} {cs : List Char} (hdigits : ∀ d ∈ c :: cs, d.isDigit)
    (hzero : c = '0' → cs = []) :
    readNumber (c :: (cs ++ rest)) = .ok (NumberText.value ⟨false, c :: cs, none, none⟩, rest) ∧
      readNumber ('-' :: c :: (cs ++ rest)) =
        .ok (NumberText.value ⟨true, c :: cs, none, none⟩, rest) := by
  have hsome : readSomeDigits (c :: (cs ++ rest)) = .ok (c :: cs, rest) := by
    have hread := readDigits_append hdigits hrest []
    rw [List.cons_append] at hread
    rw [readSomeDigits, hread]
    rfl
  have hminus : c ≠ '-' := by
    rintro rfl
    have hnot := hdigits '-' List.mem_cons_self
    revert hnot
    decide
  have hlead : ¬((c :: cs).head? == some '0' && (c :: cs).length > 1) = true := by
    intro h
    simp_all
  have hfraction {α : Type} (k : Option (List Char) × List Char → Except Flaw α) :
      (readFraction rest >>= k) = k (none, rest) := by
    rw [readFraction_of_ends hrest]
    rfl
  have hexponent {α : Type} (k : Option Int × List Char → Except Flaw α) :
      (readExponent rest >>= k) = k (none, rest) := by
    rw [readExponent_of_ends hrest]
    rfl
  constructor
  · unfold readNumber
    split
    next negative text hsign =>
      split at hsign
      next heq => exact absurd (List.cons.inj heq).1 hminus
      next =>
        obtain ⟨rfl, rfl⟩ := Prod.mk.inj hsign
        rw [hsome]
        show (if _ then _ else _) = _
        rw [if_neg hlead]
        exact (hfraction _).trans (hexponent _)
  · show (readSomeDigits (c :: (cs ++ rest)) >>= _) = _
    rw [hsome]
    show (if _ then _ else _) = _
    rw [if_neg hlead]
    exact (hfraction _).trans (hexponent _)

end

theorem value_toDigits {n : Nat} (h : n < UInt64.size) :
    NumberText.value ⟨false, Nat.toDigits 10 n, none, none⟩ = .int n := by
  simp [NumberText.value, digitsValue_toDigits, h]

theorem value_neg_toDigits {n : Nat} (hpos : 0 < n) (h : Int64.minValue.toInt ≤ -n) :
    NumberText.value ⟨true, Nat.toDigits 10 n, none, none⟩ = .int (-n) := by
  have hrange : ¬(n == 0 || decide (-(n : Int) < Int64.minValue.toInt)) = true := by
    simp only [Bool.or_eq_true, beq_iff_eq, decide_eq_true_eq, not_or]
    omega
  simp only [NumberText.value, digitsValue_toDigits]
  exact if_neg hrange

/-- The digits of a number, with their first one apart. -/
theorem exists_toDigits (n : Nat) : ∃ c cs, Nat.toDigits 10 n = c :: cs ∧
    (∀ d ∈ c :: cs, d.isDigit) ∧ (c = '0' → cs = []) := by
  cases hdigits : Nat.toDigits 10 n with
  | nil => exact absurd hdigits Nat.toDigits_ne_nil
  | cons c cs =>
      refine ⟨c, cs, rfl, fun d hd => ?_, ?_⟩
      · rw [← hdigits] at hd
        exact Nat.isDigit_of_mem_toDigits (by decide) (by decide) hd
      · rintro rfl
        cases n with
        | zero =>
            rw [Nat.toDigits_zero] at hdigits
            exact (List.cons.inj hdigits).2.symm
        | succ n =>
            have hlead := head?_toDigits (Nat.succ_pos n)
            rw [hdigits] at hlead
            exact absurd rfl hlead

/-- **An integer** of a machine word is read back from its digits. -/
theorem readNumber_toString {n : Int} (hclean : (int n).Clean) {rest : List Char}
    (hrest : EndsNumber rest) : readNumber ((toString n).toList ++ rest) = .ok (.int n, rest) := by
  obtain ⟨hmin, hmax⟩ := clean_int.1 hclean
  rw [Int.toString_eq_repr, Int.repr_eq_if]
  by_cases hsign : 0 ≤ n
  · obtain ⟨c, cs, hdigits, hall, hzero⟩ := exists_toDigits n.toNat
    have hvalue : NumberText.value ⟨false, c :: cs, none, none⟩ = .int n := by
      rw [← hdigits, value_toDigits (by omega), Int.toNat_of_nonneg hsign]
    rw [if_pos hsign, Nat.toList_repr, hdigits, List.cons_append,
      (readNumber_digits hrest hall hzero).1, hvalue]
  · obtain ⟨c, cs, hdigits, hall, hzero⟩ := exists_toDigits (-n).toNat
    have hvalue : NumberText.value ⟨true, c :: cs, none, none⟩ = .int n := by
      rw [← hdigits, value_neg_toDigits (by omega) (by omega), Int.toNat_of_nonneg (by omega),
        Int.neg_neg]
    rw [if_neg hsign, String.toList_append, Nat.toList_repr, hdigits]
    show readNumber ('-' :: c :: (cs ++ rest)) = _
    rw [(readNumber_digits hrest hall hzero).2, hvalue]

/-- What an integer is written as begins like a number. -/
theorem exists_toString (n : Int) :
    ∃ c cs, (toString n).toList = c :: cs ∧ (c = '-' ∨ c.isDigit) := by
  rw [Int.toString_eq_repr, Int.repr_eq_if]
  by_cases hsign : 0 ≤ n
  · obtain ⟨c, cs, hdigits, hall, -⟩ := exists_toDigits n.toNat
    rw [if_pos hsign, Nat.toList_repr]
    exact ⟨c, cs, hdigits, .inr (hall c List.mem_cons_self)⟩
  · rw [if_neg hsign, String.toList_append]
    exact ⟨'-', _, rfl, .inl rfl⟩

end Json

end InfraGraph

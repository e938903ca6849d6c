import WorkloadEnv.Time.Reader
import WorkloadEnv.Proofs.Decode.Record

/-! # Points in time as they are written and read

    The reader is relaxed: it takes blanks, fields of one digit, fractions and
    offsets.  What is written has none of these, so each field is read back from
    exactly its digits (`readField_padded`), and the whole from the fields in
    turn (`parse_text`).

    Whatever is read is a valid point in time (`valid_of_parse`), hence is
    written in a form that reads as the same one. -/

namespace WorkloadEnv.Instant

variable {width low high n : Nat} {ds rest cs : List Char} {c : Char}

/-! ## Digits -/

/-- The text does not go on with a digit. -/
def NoDigit (cs : List Char) : Prop := ∀ c, cs.head? = some c → c.isDigit = false

theorem noDigit_cons (h : c.isDigit = false) (cs : List Char) : NoDigit (c :: cs) := by
  intro c' hc'
  obtain rfl : c = c' := Option.some.inj hc'
  exact h

/-- Digits up to something else are read as their number. -/
theorem readDigits_append (hds : ∀ c ∈ ds, c.isDigit = true) (hne : ds ≠ [])
    (hwidth : ds.length ≤ width) (hrest : NoDigit rest) :
    readDigits width (ds ++ rest) = .ok (digitsValue ds, rest) := by
  have hspan : ((ds ++ rest).take width).takeWhile Char.isDigit = ds := by
    rw [List.take_append, List.take_of_length_le hwidth]
    have hstop : (rest.take (width - ds.length)).takeWhile Char.isDigit = [] := by
      cases rest with
      | nil => simp
      | cons c rest =>
        cases width - ds.length with
        | zero => rfl
        | succ k => simp [hrest c rfl]
    rw [List.takeWhile_append_of_pos hds, hstop, List.append_nil]
  obtain ⟨d, ds', rfl⟩ := List.exists_cons_of_ne_nil hne
  rw [List.cons_append, readDigits, ← List.cons_append, hspan]
  · simp
  · simp

theorem isDigit_of_mem_padded (hc : c ∈ padded width n) : c.isDigit = true := by
  unfold padded at hc
  rcases List.mem_append.mp hc with hc | hc
  · rw [List.eq_of_mem_replicate hc]
    rfl
  · exact Nat.isDigit_of_mem_toDigits (by decide) (by decide) hc

theorem padded_ne_nil (width n : Nat) : padded width n ≠ [] := by
  unfold padded
  simp [Nat.toDigits_ne_nil]

/-- The zeros in front add nothing. -/
theorem digitsValue_padded (width n : Nat) : digitsValue (padded width n) = n := by
  have hvalue : ∀ ds, digitsValue ds = Nat.ofDigitChars 10 ds 0 := fun _ => rfl
  rw [hvalue, padded, Nat.ofDigitChars_append, Nat.ofDigitChars_replicate_zero, Nat.mul_zero,
    Nat.ofDigitChars_toDigits (by decide) (by decide)]

theorem length_padded_le (hwidth : 0 < width) (hn : n < 10 ^ width) :
    (padded width n).length ≤ width := by
  have hdigits := (Nat.length_toDigits_le_iff (by decide) hwidth).mpr hn
  unfold padded
  simp
  omega

/-- A padded number is read back by a reader that is wide enough. -/
theorem readDigits_padded (hlength : (padded width n).length ≤ low) (hrest : NoDigit rest) :
    readDigits low (padded width n ++ rest) = .ok (n, rest) := by
  rw [readDigits_append (fun _ => isDigit_of_mem_padded) (padded_ne_nil width n) hlength hrest,
    digitsValue_padded]

/-! ## Fields -/

theorem isBlank_of_isDigit (hc : c.isDigit = true) : Text.isBlank c = false := by
  rw [Char.isDigit_iff_toNat] at hc
  simp only [Text.isBlank, Bool.or_eq_false_iff, Bool.and_eq_false_imp, decide_eq_true_eq,
    decide_eq_false_iff_not, beq_eq_false_iff_ne]
  change 48 ≤ c.toNat ∧ c.toNat ≤ 57 at hc
  omega

theorem skipBlanks_cons (hc : Text.isBlank c = false) (cs : List Char) :
    Text.skipBlanks (c :: cs) = c :: cs := by
  simp [Text.skipBlanks, hc]

/-- No blanks stand before a padded number. -/
theorem skipBlanks_padded (width n : Nat) (rest : List Char) :
    Text.skipBlanks (padded width n ++ rest) = padded width n ++ rest := by
  obtain ⟨d, ds, hds⟩ := List.exists_cons_of_ne_nil (padded_ne_nil width n)
  have hdigit : d.isDigit = true := isDigit_of_mem_padded (hds ▸ List.mem_cons_self)
  rw [hds, List.cons_append, skipBlanks_cons (isBlank_of_isDigit hdigit)]

/-- **A field is read back from its two digits.** -/
theorem readField_padded (hlow : low ≤ n) (hhigh : n ≤ high) (hn : n < 100)
    (hrest : NoDigit rest) : readField low high (padded 2 n ++ rest) = .ok (n, rest) := by
  have hlength : (padded 2 n).length ≤ 2 := length_padded_le (by decide) hn
  unfold readField
  rw [skipBlanks_padded, readDigits_padded hlength hrest]
  simp [bind, Except.bind, hlow, hhigh]

theorem readSeparator_cons (hc : Text.isBlank c = false) (cs : List Char) :
    readSeparator c (c :: cs) = .ok ((), cs) := by
  unfold readSeparator
  rw [skipBlanks_cons hc]
  simp

/-- Every year that can be told fits in 32 bits. -/
theorem contains_of_tellable {year : Int} (hfirst : Date.firstYear ≤ year)
    (hlast : year ≤ Date.lastYear) : (IntRange.signed 32).contains year = true := by
  have hlow : (IntRange.signed 32).low = -2147483648 := rfl
  have hhigh : (IntRange.signed 32).high = 2147483647 := rfl
  unfold Date.firstYear at hfirst
  unfold Date.lastYear at hlast
  simp only [IntRange.contains, hlow, hhigh, Bool.and_eq_true, decide_eq_true_eq]
  omega

theorem noDigit_separator (rest : List Char) : NoDigit ('-' :: rest) := noDigit_cons rfl rest

/-- A digit is no sign, so the year has four digits at most. -/
theorem readYear_of_isDigit (hc : c.isDigit = true)
    (h : readDigits 4 (c :: cs) = .ok (n, rest))
    (hrange : (IntRange.signed 32).contains (n : Int) = true) :
    readYear (c :: cs) = .ok ((n : Int), rest) := by
  unfold readYear
  rw [skipBlanks_cons (isBlank_of_isDigit hc)]
  dsimp only
  split
  · next heq =>
    obtain ⟨rfl, -⟩ := List.cons.inj heq
    cases hc
  · next heq =>
    obtain ⟨rfl, -⟩ := List.cons.inj heq
    cases hc
  · simp only [h, Except.map, bind, Except.bind, hrange, if_true]

/-- A year is read back from its four digits, or from all of them after its sign. -/
theorem readYear_yearText {year : Int} (hfirst : Date.firstYear ≤ year)
    (hlast : year ≤ Date.lastYear) (rest : List Char) :
    readYear (yearText year ++ '-' :: rest) = .ok (year, '-' :: rest) := by
  have hrange := contains_of_tellable hfirst hlast
  -- after a sign the reader takes as many digits as there are
  have hall : ∀ n, readDigits (padded 4 n ++ '-' :: rest).length (padded 4 n ++ '-' :: rest) =
      .ok (n, '-' :: rest) := fun n =>
    readDigits_padded (by simp) (noDigit_separator rest)
  unfold yearText
  by_cases hnegative : year < 0
  · have hyear : -(year.natAbs : Int) = year := by omega
    rw [if_pos hnegative]
    unfold readYear
    rw [List.cons_append, skipBlanks_cons rfl]
    simp only [hall, Except.map, bind, Except.bind, hyear, hrange, if_true]
  · have hyear : (year.natAbs : Int) = year := by omega
    rw [if_neg hnegative]
    by_cases hlong : 9999 < year
    · rw [if_pos hlong]
      unfold readYear
      rw [List.cons_append, skipBlanks_cons rfl]
      simp only [hall, Except.map, bind, Except.bind, hyear, hrange, if_true]
    · rw [if_neg hlong]
      have hfour : (padded 4 year.natAbs).length ≤ 4 := length_padded_le (by decide) (by omega)
      have hread := readDigits_padded hfour (noDigit_separator rest)
      obtain ⟨d, ds, hds⟩ := List.exists_cons_of_ne_nil (padded_ne_nil 4 year.natAbs)
      have hdigit : d.isDigit = true := isDigit_of_mem_padded (hds ▸ List.mem_cons_self)
      rw [hds, List.cons_append] at hread ⊢
      rw [readYear_of_isDigit hdigit hread (hyear.symm ▸ hrange), hyear]

/-! ## Whole texts -/

variable {t : Instant} {s : String}

theorem chars_eq (t : Instant) :
    t.chars = yearText t.date.year ++ '-' :: (padded 2 t.date.month ++ '-' ::
      (padded 2 t.date.day ++ 'T' :: (padded 2 t.hour ++ ':' :: (padded 2 t.minute ++ ':' ::
        (padded 2 t.second ++ ['Z']))))) := by
  simp [chars]

/-- The fields are read one after the other, each up to its separator. -/
theorem readLocal_chars (ht : t.Valid) : readLocal t.chars = .ok ((t, 0), []) := by
  obtain ⟨⟨hfirst, hlast, hmonth, hmonth', hday, hday'⟩, hhour, hminute, hsecond⟩ := ht
  have hday31 : t.date.day ≤ 31 := by
    have hmax : Date.daysInMonth t.date.year t.date.month ≤ 31 := by
      unfold Date.daysInMonth
      split_ifs <;> omega
    omega
  have hdash := readSeparator_cons (show Text.isBlank '-' = false from rfl)
  have hcolon := readSeparator_cons (show Text.isBlank ':' = false from rfl)
  have hbetween : ∀ cs, readBetween ('T' :: cs) = .ok ((), cs) := fun _ => rfl
  unfold readLocal
  rw [chars_eq, readYear_yearText hfirst hlast]
  simp only [bind, Except.bind, hdash]
  rw [readField_padded hmonth hmonth' (by omega) (noDigit_cons rfl _)]
  simp only [hdash]
  rw [readField_padded hday hday31 (by omega) (noDigit_cons rfl _)]
  simp only [hbetween]
  rw [readField_padded (Nat.zero_le _) (by omega) (by omega) (noDigit_cons rfl _)]
  simp only [hcolon]
  rw [readField_padded (Nat.zero_le _) (by omega) (by omega) (noDigit_cons rfl _)]
  simp only [hcolon]
  rw [readField_padded (Nat.zero_le _) hsecond (by omega) (noDigit_cons rfl _)]
  rfl

theorem shift_zero (ht : t.Valid) : t.shift 0 = t := by
  obtain ⟨-, hhour, hminute, -⟩ := ht
  have htotal : ¬((t.hour * 60 + t.minute + 0 : Int) < 0) := by omega
  have hday : (t.hour * 60 + t.minute + 0 : Int) < 1440 := by omega
  have hinDay : ((t.hour * 60 + t.minute + 0 : Int) % 1440).toNat = t.hour * 60 + t.minute := by
    omega
  have hhour' : (t.hour * 60 + t.minute) / 60 = t.hour := by omega
  have hminute' : (t.hour * 60 + t.minute) % 60 = t.minute := by omega
  unfold shift
  simp only [if_neg htotal, if_pos hday, hinDay, hhour', hminute']

/-- **What is written of a valid point in time reads as that point in time.** -/
theorem parse_text (ht : t.Valid) : parse t.text = .ok t := by
  have hlist : t.text.toList = t.chars := String.toList_ofList
  unfold parse
  rw [hlist, readLocal_chars ht]
  have hdate := ht.1
  simp [bind, Except.bind, Text.skipBlanks, shift_zero ht, hdate]

/-! ## What is read is valid -/

theorem le_of_readField {r : Nat × List Char} (h : readField low high cs = .ok r) :
    r.1 ≤ high := by
  obtain ⟨⟨n, rest⟩, -, h⟩ := bind_eq_ok_iff.mp h
  dsimp only at h
  split at h
  · next hrange =>
    cases h
    exact hrange.2
  · cases h

/-- The second is told by its field, whatever the offset. -/
theorem second_le_of_readLocal {offset : Int} (h : readLocal cs = .ok ((t, offset), rest)) :
    t.second ≤ 60 := by
  simp only [readLocal, bind_eq_ok_iff, Prod.exists] at h
  obtain ⟨year, _, -, _, _, -, month, _, -, _, _, -, day, _, -, _, _, -, hour, _, -, _, _, -,
    minute, _, -, _, _, -, second, _, hsecond, _, _, -, _, _, -, h⟩ := h
  cases h
  exact le_of_readField hsecond

/-- **Whatever is read is valid**: the date by the check at the end, the time of day by
    the way it is moved to UTC. -/
theorem valid_of_parse (h : parse s = .ok t) : t.Valid := by
  unfold parse at h
  obtain ⟨⟨⟨told, offset⟩, rest⟩, hlocal, h⟩ := bind_eq_ok_iff.mp h
  dsimp only at h
  split at h
  · cases h
  · split at h
    · split at h
      · next hdate =>
        cases h
        have hsecond : told.second ≤ 60 := second_le_of_readLocal hlocal
        refine ⟨hdate, ?_, ?_, hsecond⟩
        · show ((told.hour * 60 + told.minute + -offset : Int) % 1440).toNat / 60 < 24
          omega
        · show ((told.hour * 60 + told.minute + -offset : Int) % 1440).toNat % 60 < 60
          omega
      · cases h
    · cases h

/-- A time that was read and written once is written the same ever after. -/
theorem parse_text_of_parse (h : parse s = .ok t) : parse t.text = .ok t :=
  parse_text (valid_of_parse h)

end WorkloadEnv.Instant

import Mathlib.Data.List.Induction
import Mathlib.Data.Nat.Digits.Defs
import TaskExchange.Proofs.Calendar
import TaskExchange.Time.Timestamp

/-!
Stamps: the text of a time stamp is read as this time stamp.  The text is written in parts, and each
reader takes its part from the front of what is left; where it stops depends on the first character
of the next part, which is no digit.  Main statements: `ofString?_text`, and
`nameable_of_ofString?`, by which this holds of all time stamps that are read.
-/

namespace TaskExchange.Timestamp

/-- A time stamp that can be named: its second is, and only the last second of a minute may be
repeated as a leap second. -/
structure Nameable (t : Timestamp) : Prop where
  notBefore : firstSecond ≤ t.seconds
  notAfter : t.seconds ≤ lastSecond
  nanos : t.nanos < 10 ^ 9 ∨ t.nanos < 2 * 10 ^ 9 ∧ t.seconds % 60 = 59

variable {digits rest : Rest} {limit width n : Nat} {c : Char}

/-! ### Digits -/

/-- What is left to read begins with no digit. -/
def Stops (rest : Rest) : Prop := ∀ c ∈ rest.head?, c.isDigit = false

theorem stops_cons (h : c.isDigit = false) : Stops (c :: rest) := by
  intro d hd
  cases hd
  exact h

theorem Stops.takeWhile_eq (h : Stops rest) : rest.takeWhile Char.isDigit = [] := by
  cases rest with
  | nil => rfl
  | cons c rest => simp [h c rfl]

theorem Stops.take (h : Stops rest) (n : Nat) : Stops (rest.take n) := by
  cases n with
  | zero => intro c hc; simp at hc
  | succ n =>
    cases rest with
    | nil => exact h
    | cons c rest => exact stops_cons (h c rfl)

theorem readDigits_append (hne : digits ≠ []) (hdigits : ∀ c ∈ digits, c.isDigit = true)
    (hlimit : digits.length ≤ limit) (hstops : Stops rest) :
    readDigits limit (digits ++ rest) = some (digits, rest) := by
  have htake : ((digits ++ rest).take limit).takeWhile Char.isDigit = digits := by
    rw [List.take_append, List.take_of_length_le hlimit, List.takeWhile_append_of_pos hdigits,
      (hstops.take _).takeWhile_eq, List.append_nil]
  rw [readDigits, htake, if_neg (by simpa using hne), List.drop_left]

theorem toNat_of_isDigit (h : c.isDigit = true) : 48 ≤ c.toNat ∧ c.toNat ≤ 57 := by
  simpa [Char.isDigit, UInt32.le_iff_toNat_le] using h

theorem isDigit_of_mem_padded (hc : c ∈ padded width n) : c.isDigit = true := by
  rcases List.mem_append.mp hc with hc | hc
  · rw [List.eq_of_mem_replicate hc]
    decide
  · exact Nat.isDigit_of_mem_toDigits (by decide) (by decide) hc

theorem padded_ne_nil (width n : Nat) : padded width n ≠ [] := by
  simp [padded, Nat.toDigits_ne_nil]

theorem length_padded (hwidth : 0 < width) (h : n < 10 ^ width) :
    (padded width n).length = width := by
  have := Nat.toDigits_length 10 n width hwidth h
  rw [padded, List.length_append, List.length_replicate]
  omega

/-- Zeros in front do not count. -/
theorem digitsValue_padded (width n : Nat) : digitsValue (padded width n) = n := by
  have hzeros : ∀ k : Nat, digitsValue (List.replicate k '0') = 0 := by
    intro k
    induction k with
    | zero => rfl
    | succ k ih => exact ih
  have hvalue := Nat.ofDigitChars_ten_toDigits (n := n)
  rw [Nat.ofDigitChars_eq_foldl] at hvalue
  rw [padded, digitsValue, List.foldl_append]
  change (Nat.toDigits 10 n).foldl _ (digitsValue (List.replicate _ '0')) = n
  rw [hzeros]
  exact hvalue

/-! ### Parts -/

theorem not_isBlank_of_isDigit (h : c.isDigit = true) : Text.isBlank c = false := by
  have hrange := toNat_of_isDigit h
  simp only [Text.isBlank, Bool.or_eq_false_iff, Bool.and_eq_false_iff, decide_eq_false_iff_not,
    beq_eq_false_iff_ne]
  omega

theorem dropBlanks_padded (width n : Nat) (rest : Rest) :
    Text.dropBlanks (padded width n ++ rest) = padded width n ++ rest := by
  obtain ⟨c, digits, hcons⟩ := List.exists_cons_of_ne_nil (padded_ne_nil width n)
  have hc : c.isDigit = true := isDigit_of_mem_padded (hcons ▸ List.mem_cons_self)
  rw [hcons, List.cons_append, Text.dropBlanks, List.dropWhile_cons_of_neg]
  simp [not_isBlank_of_isDigit hc]

theorem readNumber_padded (hwidth : 0 < width) (h : n < 10 ^ width) (hstops : Stops rest) :
    readNumber width (padded width n ++ rest) = some (n, rest) := by
  rw [readNumber, dropBlanks_padded, readDigits_append (padded_ne_nil width n)
    (fun c => isDigit_of_mem_padded) (length_padded hwidth h).le hstops]
  simp [digitsValue_padded]

theorem readMark_cons (h : Text.isBlank c = false) : readMark c (c :: rest) = some rest := by
  simp [readMark, Text.dropBlanks, h]

/-- A sign and digits are a year, as long as it is. -/
theorem readYear_sign (width n : Nat) (hstops : Stops rest) :
    readYear ('-' :: (padded width n ++ rest)) = some (-(n : Int), rest) ∧
      readYear ('+' :: (padded width n ++ rest)) = some ((n : Int), rest) := by
  have hread : readDigits (padded width n ++ rest).length (padded width n ++ rest) =
      some (padded width n, rest) :=
    readDigits_append (padded_ne_nil width n) (fun c => isDigit_of_mem_padded) (by simp) hstops
  have hblank : Text.isBlank '-' = false ∧ Text.isBlank '+' = false := by decide
  rw [List.length_append] at hread
  simp [readYear, Text.dropBlanks, hblank, hread, digitsValue_padded]

/-- Four digits without a sign are a year. -/
theorem readYear_digits (h : n < 10 ^ 4) (hstops : Stops rest) :
    readYear (padded 4 n ++ rest) = some ((n : Int), rest) := by
  have hread := readDigits_append (padded_ne_nil 4 n) (fun c => isDigit_of_mem_padded)
    (length_padded (by decide) h).le hstops
  have hdrop := dropBlanks_padded 4 n rest
  obtain ⟨c, digits, hcons⟩ := List.exists_cons_of_ne_nil (padded_ne_nil 4 n)
  have hc : c.isDigit = true := isDigit_of_mem_padded (hcons ▸ List.mem_cons_self)
  rw [readYear, hdrop]
  split
  · next h => simp [hcons] at h; simp [h.1] at hc
  · next h => simp [hcons] at h; simp [h.1] at hc
  · rw [hread]
    simp [digitsValue_padded]

theorem readYear_yearText (year : Int) (hstops : Stops rest) :
    readYear (yearText year ++ rest) = some (year, rest) := by
  rw [yearText]
  split
  · next h =>
    rw [readYear_digits (by omega) hstops, Int.toNat_of_nonneg h.1]
  · split
    · next hneg =>
      rw [List.cons_append, (readYear_sign 4 year.natAbs hstops).1]
      congr 2
      omega
    · next hneg =>
      rw [List.cons_append, (readYear_sign 4 year.natAbs hstops).2]
      congr 2
      omega

/-- Some digits after a point, of nine. -/
theorem readFraction_point (hwidth : 0 < width) (hlimit : width ≤ 9) (h : n < 10 ^ width) :
    readFraction ('.' :: (padded width n ++ ['Z'])) = some (n * 10 ^ (9 - width), ['Z']) := by
  have hlength := length_padded hwidth h
  have hread : readDigits 9 (padded width n ++ ['Z']) = some (padded width n, ['Z']) :=
    readDigits_append (padded_ne_nil width n) (fun c => isDigit_of_mem_padded)
      (hlength.le.trans hlimit) (stops_cons (by decide))
  simp [readFraction, hread, hlength, digitsValue_padded]

theorem readFraction_fractionText (h : n < 10 ^ 9) :
    readFraction (fractionText n ++ ['Z']) = some (n, ['Z']) := by
  rw [fractionText]
  split
  · next hzero => rw [hzero]; rfl
  · split
    · rw [List.cons_append, readFraction_point (by decide) (by decide) (by omega)]
      congr 2
      omega
    · split
      · rw [List.cons_append, readFraction_point (by decide) (by decide) (by omega)]
        congr 2
        omega
      · rw [List.cons_append, readFraction_point (by decide) (by decide) h]
        simp

/-! ### The whole text -/

theorem stops_fractionText (n : Nat) : Stops (fractionText n ++ ['Z']) := by
  rw [fractionText]
  split
  · exact stops_cons rfl
  · split
    · exact stops_cons rfl
    · split <;> exact stops_cons rfl

/-- The characters of a day and a time of universal time. -/
def spelled (date : Date) (hour minute second nanos : Nat) : List Char :=
  yearText date.year ++ '-' :: (padded 2 date.month ++ '-' :: (padded 2 date.day ++ 'T' ::
    (padded 2 hour ++ ':' :: (padded 2 minute ++ ':' :: (padded 2 second ++
      (fractionText nanos ++ ['Z']))))))

/-- A day and a time of universal time are read as they are spelled. -/
theorem ofString?_spelled {date : Date} {hour minute second nanos : Nat}
    (hdate : date.isValid = true) (hhour : hour ≤ 23) (hminute : minute ≤ 59)
    (hsecond : second ≤ 60) (hnanos : nanos < 10 ^ 9)
    {seconds : Int} (hseconds : seconds = date.toDays * daySeconds +
      (hour * 3600 + minute * 60 + (if second = 60 then 59 else second) : Nat))
    (hnotBefore : firstSecond ≤ seconds) (hnotAfter : seconds ≤ lastSecond) :
    ofString? (String.ofList (spelled date hour minute second nanos)) =
      some ⟨seconds, nanos + if second = 60 then 1000000000 else 0⟩ := by
  have hmonth : date.month < 10 ^ 2 ∧ date.day < 10 ^ 2 := Date.lt_of_isValid hdate
  have hdash : ∀ rest, Stops ('-' :: rest) := fun _ => stops_cons (by decide)
  have hcolon : ∀ rest, Stops (':' :: rest) := fun _ => stops_cons (by decide)
  have hfraction := stops_fractionText nanos
  have hmark : Text.isBlank '-' = false ∧ Text.isBlank ':' = false := by decide
  have hoffset : readOffset ['Z'] = some (0, []) := by decide
  rw [ofString?, String.toList_ofList, spelled]
  refine Option.bind_eq_some_iff.mpr ⟨_, readYear_yearText date.year (hdash _), ?_⟩
  refine Option.bind_eq_some_iff.mpr ⟨_, readMark_cons hmark.1, ?_⟩
  refine Option.bind_eq_some_iff.mpr ⟨_, readNumber_padded Nat.two_pos hmonth.1 (hdash _), ?_⟩
  refine Option.bind_eq_some_iff.mpr ⟨_, readMark_cons hmark.1, ?_⟩
  refine Option.bind_eq_some_iff.mpr
    ⟨_, readNumber_padded Nat.two_pos hmonth.2 (stops_cons (c := 'T') rfl), ?_⟩
  refine Option.bind_eq_some_iff.mpr ⟨_, rfl, ?_⟩
  refine Option.bind_eq_some_iff.mpr ⟨_, readNumber_padded Nat.two_pos (by omega) (hcolon _), ?_⟩
  refine Option.bind_eq_some_iff.mpr ⟨_, readMark_cons hmark.2, ?_⟩
  refine Option.bind_eq_some_iff.mpr ⟨_, readNumber_padded Nat.two_pos (by omega) (hcolon _), ?_⟩
  refine Option.bind_eq_some_iff.mpr ⟨_, readMark_cons hmark.2, ?_⟩
  refine Option.bind_eq_some_iff.mpr ⟨_, readNumber_padded Nat.two_pos (by omega) hfraction, ?_⟩
  refine Option.bind_eq_some_iff.mpr ⟨_, readFraction_fractionText hnanos, ?_⟩
  refine Option.bind_eq_some_iff.mpr ⟨_, hoffset, ?_⟩
  have htest : Text.dropBlanks [] = [] ∧ date.isValid ∧ hour ≤ 23 ∧ minute ≤ 59 ∧ second ≤ 60 ∧
      (0 : Int).natAbs < 86400 := ⟨rfl, hdate, hhour, hminute, hsecond, by decide⟩
  dsimp only
  rw [if_pos htest, Int.sub_zero, ← hseconds, if_pos ⟨hnotBefore, hnotAfter⟩]

/-- The text of a time stamp is spelled from the day and the time in the day. -/
theorem text_eq (t : Timestamp) : t.text = String.ofList (spelled
    (Date.ofDays (t.seconds.fdiv daySeconds)) ((t.seconds.fmod daySeconds).toNat / 3600)
    ((t.seconds.fmod daySeconds).toNat / 60 % 60)
    ((t.seconds.fmod daySeconds).toNat % 60 + if 1000000000 ≤ t.nanos then 1 else 0)
    (if 1000000000 ≤ t.nanos then t.nanos - 1000000000 else t.nanos)) := by
  simp only [text, spelled, List.append_assoc, List.cons_append, List.nil_append]

/-- A second is one of a day. -/
theorem exists_day (seconds : Int) : ∃ days : Int, ∃ inDay : Nat,
    seconds.fdiv daySeconds = days ∧ seconds.fmod daySeconds = inDay ∧
      seconds = days * 86400 + inDay ∧ inDay < 86400 := by
  have hsplit := Int.mul_fdiv_add_fmod seconds 86400
  have hlt := Int.fmod_lt_of_pos seconds (b := 86400) (by decide)
  obtain ⟨inDay, hinDay⟩ := Int.eq_ofNat_of_zero_le
    (Int.fmod_nonneg_of_pos seconds (b := 86400) (by decide))
  exact ⟨seconds.fdiv 86400, inDay, rfl, hinDay, by omega, by omega⟩

/-- The text of a time stamp that can be named is read as this time stamp. -/
theorem ofString?_text {t : Timestamp} (h : t.Nameable) : ofString? t.text = some t := by
  obtain ⟨hnotBefore, hnotAfter, hnanos⟩ := h
  obtain ⟨days, inDay, hdays, hinDay, hseconds, hlt⟩ := exists_day t.seconds
  have hdate : (Date.ofDays days).isValid = true := by
    rw [firstSecond, daySeconds] at hnotBefore
    rw [lastSecond, daySeconds] at hnotAfter
    exact Date.isValid_ofDays (by omega) (by omega)
  have hread : ∀ second nanos, second ≤ 60 → nanos < 10 ^ 9 →
      (if second = 60 then 59 else second) = inDay % 60 →
      ofString? (String.ofList (spelled (Date.ofDays days) (inDay / 3600) (inDay / 60 % 60)
        second nanos)) = some ⟨t.seconds, nanos + if second = 60 then 1000000000 else 0⟩ := by
    intro second nanos hsecond hnanos hminute
    refine ofString?_spelled hdate (by omega) (by omega) hsecond hnanos ?_ hnotBefore hnotAfter
    rw [hminute, Date.toDays_ofDays, daySeconds]
    omega
  rw [text_eq, hdays, hinDay, Int.toNat_natCast]
  by_cases hleap : 1000000000 ≤ t.nanos
  · have hlast : inDay % 60 = 59 := by omega
    rw [if_pos hleap, if_pos hleap, hread _ _ (by omega) (by omega) (by simp [hlast]),
      if_pos (by omega), Nat.sub_add_cancel hleap]
  · have hsecond : inDay % 60 ≠ 60 := by omega
    rw [if_neg hleap, if_neg hleap, Nat.add_zero,
      hread _ _ (by omega) (by omega) (by simp [hsecond]), if_neg hsecond]
    rfl

/-! ### Texts that are read -/

theorem digitsValue_lt (h : ∀ c ∈ digits, c.isDigit = true) :
    digitsValue digits < 10 ^ digits.length := by
  induction digits using List.reverseRecOn with
  | nil => decide
  | append_singleton digits c ih =>
    obtain ⟨hdigits, hc⟩ := List.forall_mem_append.mp h
    have hvalue : digitValue c ≤ 9 := by
      have hrange := toNat_of_isDigit (hc c List.mem_cons_self)
      rw [digitValue]
      omega
    have hlast : digitsValue (digits ++ [c]) = 10 * digitsValue digits + digitValue c := by
      rw [digitsValue, List.foldl_append]
      rfl
    rw [hlast, List.length_append, List.length_singleton, Nat.pow_succ]
    have := ih hdigits
    omega

theorem lt_of_readDigits {cs : Rest} (h : readDigits limit cs = some (digits, rest)) :
    digits.length ≤ limit ∧ digitsValue digits < 10 ^ digits.length := by
  rw [readDigits] at h
  split at h
  · cases h
  · cases h
    refine ⟨(List.takeWhile_prefix _).length_le.trans (List.length_take_le ..), ?_⟩
    exact digitsValue_lt (List.all_eq_true.mp List.all_takeWhile)

theorem lt_of_readFraction {cs : Rest} (h : readFraction cs = some (n, rest)) : n < 10 ^ 9 := by
  rw [readFraction.eq_def] at h
  split at h
  · obtain ⟨⟨digits, left⟩, hdigits, heq⟩ := Option.map_eq_some_iff.mp h
    cases heq
    obtain ⟨hlength, hvalue⟩ := lt_of_readDigits hdigits
    calc digitsValue digits * 10 ^ (9 - digits.length)
        < 10 ^ digits.length * 10 ^ (9 - digits.length) :=
          Nat.mul_lt_mul_of_pos_right hvalue (Nat.pow_pos (by decide))
      _ = 10 ^ 9 := by rw [← Nat.pow_add, Nat.add_sub_cancel' hlength]
  · cases h
    decide

/-- Offsets are whole minutes. -/
theorem dvd_of_readOffset {cs : Rest} {offset : Int} (h : readOffset cs = some (offset, rest)) :
    60 ∣ offset := by
  rw [readOffset] at h
  split at h
  · cases h
  · next c rest' _ =>
    split at h
    · cases h
      exact Int.dvd_zero 60
    · split at h
      · cases h
        exact Int.dvd_zero 60
      · obtain ⟨⟨sign, left⟩, -, h⟩ := Option.bind_eq_some_iff.mp h
        obtain ⟨⟨hours, left⟩, -, h⟩ := Option.bind_eq_some_iff.mp h
        obtain ⟨⟨minutes, left⟩, -, h⟩ := Option.bind_eq_some_iff.mp h
        dsimp only at h
        split at h
        · cases h
          exact Dvd.dvd.mul_left (by omega) sign
        · cases h

/-- Every time stamp that is read can be named. -/
theorem nameable_of_ofString? {s : String} {t : Timestamp} (h : ofString? s = some t) :
    t.Nameable := by
  obtain ⟨⟨year, cs⟩, -, h⟩ := Option.bind_eq_some_iff.mp h
  obtain ⟨cs, -, h⟩ := Option.bind_eq_some_iff.mp h
  obtain ⟨⟨month, cs⟩, -, h⟩ := Option.bind_eq_some_iff.mp h
  obtain ⟨cs, -, h⟩ := Option.bind_eq_some_iff.mp h
  obtain ⟨⟨day, cs⟩, -, h⟩ := Option.bind_eq_some_iff.mp h
  obtain ⟨cs, -, h⟩ := Option.bind_eq_some_iff.mp h
  obtain ⟨⟨hour, cs⟩, -, h⟩ := Option.bind_eq_some_iff.mp h
  obtain ⟨cs, -, h⟩ := Option.bind_eq_some_iff.mp h
  obtain ⟨⟨minute, cs⟩, -, h⟩ := Option.bind_eq_some_iff.mp h
  obtain ⟨cs, -, h⟩ := Option.bind_eq_some_iff.mp h
  obtain ⟨⟨second, cs⟩, -, h⟩ := Option.bind_eq_some_iff.mp h
  obtain ⟨⟨nanos, cs⟩, hfraction, h⟩ := Option.bind_eq_some_iff.mp h
  obtain ⟨⟨offset, cs⟩, hoffset, h⟩ := Option.bind_eq_some_iff.mp h
  have hnanos := lt_of_readFraction hfraction
  have hminutes := dvd_of_readOffset hoffset
  obtain ⟨-, h⟩ := Option.ite_none_right_eq_some.mp h
  obtain ⟨⟨hnotBefore, hnotAfter⟩, heq⟩ := Option.ite_none_right_eq_some.mp h
  cases heq
  refine ⟨hnotBefore, hnotAfter, ?_⟩
  by_cases hleap : second = 60
  · refine Or.inr ⟨?_, ?_⟩
    · simp only [hleap, if_true]
      omega
    · simp only [hleap, if_true, daySeconds]
      omega
  · exact Or.inl (by simpa [hleap] using hnanos)

end TaskExchange.Timestamp

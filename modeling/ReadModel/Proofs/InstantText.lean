import Mathlib.Algebra.GroupWithZero.Nat
import ReadModel.Instant.Text
import ReadModel.Proofs.Calendar
import ReadModel.Proofs.Decoding

/-!
Instants that are written and read again.

A number in the written form is spelled by digits (`Instant.Spells`), and a reader takes it off the
front of any text that goes on with something else. Main statements: what is read is an instant that
there can be (`Instant.valid_of_parse`), and such an instant is read back as it was written
(`Instant.parse_render`).
-/

namespace ReadModel

namespace Instant

/-- An instant that there can be: its year is one that instants can lie in, and its nanoseconds go
beyond a second only in the last second of a minute. -/
structure Valid (t : Instant) : Prop where
  inRange : t.inRange = true
  nanos : t.nanos < 2000000000
  leap : 1000000000 ≤ t.nanos → t.seconds % 60 = 59

/-- Digits that denote a number. -/
structure Spells (digits : List Char) (n : Nat) : Prop where
  inhabited : digits ≠ []
  plain : ∀ c ∈ digits, c.isDigit = true
  value : decimalValue digits = n

theorem decimalValue_eq (digits : List Char) : decimalValue digits = Nat.ofDigitChars 10 digits 0 := by
  simp only [decimalValue, Nat.ofDigitChars_eq_foldl, Nat.mul_comm]
  rfl

theorem spells_padded (width n : Nat) : Spells (padded width n).toList n := by
  have ne : Nat.toDigits 10 n ≠ [] := Nat.toDigits_ne_nil
  refine ⟨?_, ?_, ?_⟩
  · simp [padded, ne]
  · intro c here
    rw [padded, String.toList_ofList, List.mem_append] at here
    rcases here with zero | digit
    · rw [List.eq_of_mem_replicate zero]
      rfl
    · exact Nat.isDigit_of_mem_toDigits (by decide) (by decide) digit
  · rw [padded, String.toList_ofList, decimalValue_eq, Nat.ofDigitChars_append,
      Nat.ofDigitChars_replicate_zero, Nat.mul_zero, Nat.ofDigitChars_ten_toDigits]

theorem length_padded {width n : Nat} (wide : 0 < width) (fits : n < 10 ^ width) :
    (padded width n).toList.length = width := by
  have short := (Nat.length_toDigits_le_iff (b := 10) (by decide) wide).mpr fits
  rw [padded, String.toList_ofList, List.length_append, List.length_replicate]
  omega

theorem isBlank_of_isDigit {c : Char} (digit : c.isDigit = true) : isBlank c = false := by
  have bounds := Char.isDigit_iff_toNat.mp digit
  change 48 ≤ c.toNat ∧ c.toNat ≤ 57 at bounds
  simp only [isBlank, Bool.or_eq_false_iff, Bool.and_eq_false_iff, decide_eq_false_iff_not,
    beq_eq_false_iff_ne]
  omega

theorem dropBlanks_cons {c : Char} (rest : List Char) (visible : isBlank c = false) :
    dropBlanks (c :: rest) = c :: rest := by
  simp [dropBlanks, visible]

namespace Spells

variable {digits : List Char} {n : Nat}

theorem dropBlanks (spells : Spells digits n) (rest : List Char) :
    dropBlanks (digits ++ rest) = digits ++ rest := by
  obtain ⟨c, tail, rfl⟩ := List.exists_cons_of_ne_nil spells.inhabited
  exact dropBlanks_cons _ (isBlank_of_isDigit (spells.plain c (List.mem_cons_self ..)))

theorem append_ne (spells : Spells digits n) {mark : Char} (other : mark.isDigit = false)
    {more rest : List Char} : digits ++ more ≠ mark :: rest := by
  obtain ⟨c, tail, rfl⟩ := List.exists_cons_of_ne_nil spells.inhabited
  intro same
  obtain rfl := (List.cons.inj same).1
  exact Bool.false_ne_true (other ▸ spells.plain _ (List.mem_cons_self ..))

theorem takeWhile (spells : Spells digits n) {more : List Char}
    (stops : more.takeWhile Char.isDigit = []) : (digits ++ more).takeWhile Char.isDigit = digits := by
  rw [List.takeWhile_append_of_pos spells.plain, stops, List.append_nil]

theorem takeWhile_take (spells : Spells digits n) {w : Nat} (wide : digits.length ≤ w) {c : Char}
    (rest : List Char) (stop : c.isDigit = false) :
    ((digits ++ c :: rest).take w).takeWhile Char.isDigit = digits := by
  rw [List.take_append, List.take_of_length_le wide]
  refine spells.takeWhile ?_
  cases w - digits.length <;> simp [stop]

theorem readNumber (spells : Spells digits n) (fits : (n : Int) ≤ greatestSigned) (width : Option Nat)
    (wide : ∀ w ∈ width, digits.length ≤ w) {c : Char} (rest : List Char) (stop : c.isDigit = false) :
    readNumber width (digits ++ c :: rest) = .ok (n, c :: rest) := by
  have inhabited : (digits ++ c :: rest).isEmpty = false := by simp
  have digitsThere : digits.isEmpty = false := by simp [spells.inhabited]
  have small : ¬greatestSigned < (n : Int) := by omega
  cases width with
  | none =>
    have taken : (digits ++ c :: rest).takeWhile Char.isDigit = digits :=
      spells.takeWhile (by simp [stop])
    simp only [Instant.readNumber, taken, inhabited, digitsThere, spells.value, small,
      List.drop_left, Bool.false_eq_true, if_false]
  | some w =>
    simp only [Instant.readNumber, spells.takeWhile_take (wide w rfl) rest stop, inhabited,
      digitsThere, spells.value, small, List.drop_left, Bool.false_eq_true, if_false]

theorem readPart (spells : Spells digits n) {width least most : Nat} (wide : digits.length ≤ width)
    (lower : least ≤ n) (upper : n ≤ most) (fits : (n : Int) ≤ greatestSigned)
    {c : Char} (rest : List Char) (stop : c.isDigit = false) :
    readPart width least most (digits ++ c :: rest) = .ok (n, c :: rest) := by
  simp only [Instant.readPart, spells.dropBlanks,
    spells.readNumber fits (some width) (fun w same => Option.some.inj same ▸ wide) rest stop]
  exact if_pos ⟨lower, upper⟩

end Spells

theorem readMark_cons (mark : Char) (visible : isBlank mark = false) (rest : List Char) :
    readMark mark (mark :: rest) = .ok ((), rest) := by
  simp [readMark, dropBlanks_cons rest visible]

/-- A number of two digits is read back in front of anything else. -/
theorem readPart_padded {n least most : Nat} (lower : least ≤ n) (upper : n ≤ most) (short : most < 100)
    {c : Char} (rest : List Char) (stop : c.isDigit = false) :
    readPart 2 least most ((padded 2 n).toList ++ c :: rest) = .ok (n, c :: rest) := by
  have length : (padded 2 n).toList.length = 2 := length_padded (by decide) (by omega)
  refine (spells_padded 2 n).readPart (Nat.le_of_eq length) lower upper ?_ rest stop
  unfold greatestSigned
  omega

section Year

variable {digits : List Char} {n : Nat}

theorem readYear_short (spells : Spells digits n) (short : digits.length ≤ 4) (small : n ≤ 2147483647)
    {c : Char} (rest : List Char) (stop : c.isDigit = false) :
    readYear (digits ++ c :: rest) = .ok ((n : Int), c :: rest) := by
  have fits : (n : Int) ≤ greatestSigned := by unfold greatestSigned; omega
  have bounds : -2147483648 ≤ (n : Int) ∧ (n : Int) ≤ 2147483647 := by omega
  unfold readYear
  rw [spells.dropBlanks]
  split
  next same => exact absurd same (spells.append_ne rfl)
  next same => exact absurd same (spells.append_ne rfl)
  next =>
    rw [spells.readNumber fits _ (fun w same => Option.some.inj same ▸ short) rest stop]
    exact if_pos bounds

theorem readYear_signed (spells : Spells digits n) (small : n ≤ 2147483647) {c : Char}
    (rest : List Char) (stop : c.isDigit = false) :
    readYear ('+' :: (digits ++ c :: rest)) = .ok ((n : Int), c :: rest) ∧
      readYear ('-' :: (digits ++ c :: rest)) = .ok (-(n : Int), c :: rest) := by
  have fits : (n : Int) ≤ greatestSigned := by unfold greatestSigned; omega
  have read := spells.readNumber fits none nofun rest stop
  have plus : dropBlanks ('+' :: (digits ++ c :: rest)) = '+' :: (digits ++ c :: rest) :=
    dropBlanks_cons _ rfl
  have minus : dropBlanks ('-' :: (digits ++ c :: rest)) = '-' :: (digits ++ c :: rest) :=
    dropBlanks_cons _ rfl
  constructor
  · simp only [readYear, plus, read, bind, Except.bind, pure, Except.pure]
    exact if_pos (by omega)
  · simp only [readYear, minus, read, bind, Except.bind, pure, Except.pure]
    exact if_pos (by omega)

end Year

theorem readYear_render {year : Int} (least : leastYear ≤ year) (greatest : year ≤ greatestYear)
    {c : Char} (rest : List Char) (stop : c.isDigit = false) :
    readYear ((renderYear year).toList ++ c :: rest) = .ok (year, c :: rest) := by
  have spells := spells_padded 4 year.natAbs
  unfold leastYear at least
  unfold greatestYear at greatest
  have small : year.natAbs ≤ 2147483647 := by omega
  have ⟨plus, minus⟩ := readYear_signed spells small rest stop
  unfold renderYear
  split
  next short =>
    have length : (padded 4 year.natAbs).toList.length = 4 := length_padded (by decide) (by omega)
    rw [readYear_short spells (Nat.le_of_eq length) small rest stop, Int.natAbs_of_nonneg short.1]
  next =>
    rw [String.toList_append, List.append_assoc]
    split
    next negative =>
      rw [show -(year.natAbs : Int) = year by omega] at minus
      simpa using minus
    next positive =>
      rw [show (year.natAbs : Int) = year by omega] at plus
      simpa using plus

theorem readFraction_render {nanos : Nat} (bound : nanos < 1000000000) :
    readFraction ((renderFraction nanos).toList ++ ['Z']) = .ok (nanos, ['Z']) := by
  have read (width n : Nat) (wide : 0 < width) (narrow : width ≤ 9) (fits : n < 10 ^ width)
      (small : n < 1000000000) : readFraction (("." ++ padded width n).toList ++ ['Z']) =
        .ok (n * 10 ^ (9 - width), ['Z']) := by
    have length := length_padded wide fits
    have bounded : (n : Int) ≤ greatestSigned := by unfold greatestSigned; omega
    have read := (spells_padded width n).readNumber bounded (some 9)
      (fun w same => by cases same; omega) [] (c := 'Z') rfl
    rw [String.toList_append]
    change readFraction ('.' :: ((padded width n).toList ++ ['Z'])) = _
    simp only [readFraction, read, bind, Except.bind, List.length_append, length, Nat.add_sub_cancel]
    rfl
  unfold renderFraction
  split
  next none =>
    rw [none]
    rfl
  next =>
    split
    next =>
      rw [read 3 _ (by decide) (by decide) (by omega) (by omega)]
      congr 2
      omega
    next =>
      split
      next =>
        rw [read 6 _ (by decide) (by decide) (by omega) (by omega)]
        congr 2
        omega
      next =>
        rw [read 9 _ (by decide) (by decide) (by omega) (by omega)]
        congr 2
        omega

theorem toList_render (t : Instant) :
    t.render.toList =
      (renderYear t.date.year).toList ++ '-' :: ((padded 2 t.date.month).toList ++ '-' ::
        ((padded 2 t.date.day).toList ++ 'T' ::
          ((padded 2 ((t.seconds % 86400).toNat / 3600)).toList ++ ':' ::
            ((padded 2 ((t.seconds % 86400).toNat / 60 % 60)).toList ++ ':' ::
              ((padded 2 ((t.seconds % 86400).toNat % 60 +
                  if 1000000000 ≤ t.nanos then 1 else 0)).toList ++
                ((renderFraction (t.nanos % 1000000000)).toList ++ ['Z'])))))) := by
  simp [render, String.toList_append, List.append_assoc]

/-- A text in the written form is read part by part; what is left is to check the date and to put the
parts together. -/
theorem parse_of_parts {text : String} {year : Int} {month day hour minute second nanos : Nat}
    {yearText : List Char} {c : Char} {rest : List Char}
    (shape : text.toList = yearText ++ '-' :: ((padded 2 month).toList ++ '-' ::
      ((padded 2 day).toList ++ 'T' :: ((padded 2 hour).toList ++ ':' ::
        ((padded 2 minute).toList ++ ':' :: ((padded 2 second).toList ++ c :: rest))))))
    (readsYear : ∀ rest, readYear (yearText ++ '-' :: rest) = .ok (year, '-' :: rest))
    (readsFraction : readFraction (c :: rest) = .ok (nanos, ['Z'])) (stop : c.isDigit = false)
    (ofCalendar : CivilDate.valid ⟨year, month, day⟩ = true) (inDay : hour ≤ 23) (inHour : minute ≤ 59)
    (inMinute : second ≤ 60) :
    parse text =
      let leap := second = 60
      let t := ofDate ⟨year, month, day⟩
        (hour * 3600 + minute * 60 + (if leap then 59 else second : Nat))
        (if leap then nanos + 1000000000 else nanos)
      if t.inRange then .ok t else .error .impossible := by
  obtain ⟨-, ⟨fromJanuary, toDecember⟩, fromFirst, toLast⟩ := CivilDate.valid_iff.mp ofCalendar
  have toLast : day ≤ 31 := Nat.le_trans toLast (CivilDate.daysInMonth_le year month)
  have dash := readMark_cons '-' rfl
  have colon := readMark_cons ':' rfl
  have readsMonth := fun rest =>
    readPart_padded fromJanuary toDecember (by decide) (c := '-') rest rfl
  have readsDay := fun rest => readPart_padded fromFirst toLast (by decide) (c := 'T') rest rfl
  have readsHour := fun rest =>
    readPart_padded (Nat.zero_le _) inDay (by decide) (c := ':') rest rfl
  have readsMinute := fun rest =>
    readPart_padded (Nat.zero_le _) inHour (by decide) (c := ':') rest rfl
  have readsSecond := readPart_padded (Nat.zero_le _) inMinute (by decide) rest stop
  have zone : readOffset (dropBlanks ['Z']) = .ok (0, []) := rfl
  have nothing : (dropBlanks []).isEmpty = true := rfl
  simp only [parse, shape, readsYear, dash, readsMonth, readsDay, readsHour, colon, readsMinute,
    readsSecond, readsFraction, zone, nothing, ofCalendar, bind, Except.bind, Char.reduceEq, or_true,
    true_or, if_true, not_true_eq_false, if_false, Int.sub_zero]
  rfl

theorem exists_renderFraction (nanos : Nat) :
    ∃ c rest, (renderFraction nanos).toList ++ ['Z'] = c :: rest ∧ c.isDigit = false := by
  have point (digits : String) :
      ∃ c rest, ("." ++ digits).toList ++ ['Z'] = c :: rest ∧ c.isDigit = false :=
    ⟨'.', digits.toList ++ ['Z'], by simp, rfl⟩
  unfold renderFraction
  split
  next => exact ⟨'Z', [], rfl, rfl⟩
  next =>
    split
    next => exact point _
    next => split <;> exact point _

theorem ofDate_date (t : Instant) (nanos : Nat) :
    ofDate ⟨t.date.year, t.date.month, t.date.day⟩ (t.seconds % 86400) nanos = ⟨t.seconds, nanos⟩ := by
  have number : t.date.dayNumber = t.seconds / 86400 := CivilDate.dayNumber_ofDayNumber _
  have whole := Int.mul_ediv_add_emod t.seconds 86400
  simp only [ofDate, number, Instant.mk.injEq, and_true]
  omega

theorem parse_render {t : Instant} (valid : t.Valid) : parse t.render = .ok t := by
  obtain ⟨range, bound, leap⟩ := valid
  have years := range
  simp only [inRange, Bool.and_eq_true, decide_eq_true_eq] at years
  have fraction := readFraction_render (Nat.mod_lt t.nanos (by decide : 0 < 1000000000))
  obtain ⟨c, rest, ends, stop⟩ := exists_renderFraction (t.nanos % 1000000000)
  have shape := toList_render t
  rw [ends] at fraction shape
  rw [parse_of_parts shape (fun rest => readYear_render years.1 years.2 rest rfl) fraction stop
    (CivilDate.valid_ofDayNumber years.1 years.2) (by omega) (by omega) (by split <;> omega)]
  have clock : ((t.seconds % 86400).toNat : Int) = t.seconds % 86400 := by omega
  generalize (t.seconds % 86400).toNat = second at clock ⊢
  dsimp only
  -- A leap second is written as second 60, and what is written as second 60 is one.
  by_cases long : 1000000000 ≤ t.nanos
  · have last := leap long
    have sixty : second % 60 + 1 = 60 := by omega
    have sum : ((second / 3600 : Nat) : Int) * 3600 + (second / 60 % 60 : Nat) * 60 + (59 : Nat) =
        t.seconds % 86400 := by omega
    have nanos : t.nanos % 1000000000 + 1000000000 = t.nanos := by omega
    simp only [long, if_true, sixty, sum, nanos, ofDate_date, range]
  · have sixty : ¬second % 60 + 0 = 60 := by omega
    have sum : ((second / 3600 : Nat) : Int) * 3600 + (second / 60 % 60 : Nat) * 60 +
        (second % 60 + 0 : Nat) = t.seconds % 86400 := by omega
    have nanos : t.nanos % 1000000000 = t.nanos := by omega
    simp only [long, if_false, sixty, sum, nanos, ofDate_date, range, if_true]

theorem decimalValue_lt {digits : List Char} (plain : ∀ c ∈ digits, c.isDigit = true) :
    decimalValue digits < 10 ^ digits.length := by
  rw [decimalValue_eq]
  induction digits with
  | nil => exact Nat.one_pos
  | cons c digits ih =>
    have first := Char.isDigit_iff_toNat.mp (plain c (List.mem_cons_self ..))
    have others := ih fun d later => plain d (List.mem_cons_of_mem _ later)
    rw [Nat.ofDigitChars_cons, Nat.ofDigitChars_eq_ofDigitChars_zero, Nat.mul_zero, Nat.zero_add,
      List.length_cons, Nat.pow_succ]
    have digit : c.toNat - '0'.toNat ≤ 9 := Nat.sub_le_sub_right first.2 _
    have scaled := Nat.mul_le_mul_left (10 ^ digits.length) digit
    omega

theorem readNumber_bounds {width : Nat} {cs rest : List Char} {n : Nat}
    (read : readNumber (some width) cs = .ok (n, rest)) :
    cs.length - rest.length ≤ width ∧ n < 10 ^ (cs.length - rest.length) := by
  simp only [readNumber] at read
  have plain : ∀ c ∈ (cs.take width).takeWhile Char.isDigit, c.isDigit = true :=
    fun c here => List.all_eq_true.mp List.all_takeWhile c here
  have narrow : ((cs.take width).takeWhile Char.isDigit).length ≤ (cs.take width).length :=
    (List.takeWhile_prefix _).length_le
  rw [List.length_take] at narrow
  split at read
  next => cases read
  next =>
    split at read
    next => cases read
    next =>
      split at read
      next => cases read
      next =>
        cases read
        have taken : cs.length - (cs.drop ((cs.take width).takeWhile Char.isDigit).length).length =
            ((cs.take width).takeWhile Char.isDigit).length := by
          rw [List.length_drop]
          omega
        rw [taken]
        exact ⟨by omega, decimalValue_lt plain⟩

theorem readFraction_lt {cs rest : List Char} {nanos : Nat}
    (read : readFraction cs = .ok (nanos, rest)) : nanos < 1000000000 := by
  unfold readFraction at read
  split at read
  next cs =>
    obtain ⟨⟨n, after⟩, digits, read⟩ := Except.bind_eq_ok_iff.mp read
    cases read
    have ⟨short, bound⟩ := readNumber_bounds digits
    have scaled := Nat.mul_lt_mul_of_pos_right bound
      (Nat.pow_pos (n := 9 - (cs.length - after.length)) (show 0 < 10 by decide))
    rw [← Nat.pow_add, Nat.add_sub_cancel' short] at scaled
    exact scaled
  next =>
    cases read
    decide

theorem readClockOffset_whole_minutes {cs rest : List Char} {offset : Int}
    (read : readClockOffset cs = .ok (offset, rest)) : offset % 60 = 0 := by
  obtain ⟨hours, -, read⟩ := Except.bind_eq_ok_iff.mp read
  obtain ⟨minutes, -, read⟩ := Except.bind_eq_ok_iff.mp read
  cases read
  omega

theorem readOffset_whole_minutes {cs rest : List Char} {offset : Int}
    (read : readOffset cs = .ok (offset, rest)) : offset % 60 = 0 := by
  unfold readOffset at read
  split at read
  next => cases read
  next c cs =>
    split at read
    next => cases read; rfl
    next =>
      split at read
      next => cases read; rfl
      next =>
        split at read
        next => exact readClockOffset_whole_minutes read
        next =>
          split at read
          next =>
            obtain ⟨⟨ahead, rest⟩, clock, same⟩ := Except.exists_of_map_eq_ok read
            have whole := readClockOffset_whole_minutes clock
            cases same
            omega
          next => cases read

theorem valid_of_parse {text : String} {t : Instant} (read : parse text = .ok t) : t.Valid := by
  unfold parse at read
  obtain ⟨⟨year, cs⟩, -, read⟩ := Except.bind_eq_ok_iff.mp read
  obtain ⟨_, -, read⟩ := Except.bind_eq_ok_iff.mp read
  obtain ⟨⟨month, cs⟩, -, read⟩ := Except.bind_eq_ok_iff.mp read
  obtain ⟨_, -, read⟩ := Except.bind_eq_ok_iff.mp read
  obtain ⟨⟨day, cs⟩, -, read⟩ := Except.bind_eq_ok_iff.mp read
  cases cs with
  | nil => cases read
  | cons c cs =>
    obtain ⟨cs, -, read⟩ := Except.bind_eq_ok_iff.mp (Except.eq_ok_of_check read)
    obtain ⟨⟨hour, cs⟩, -, read⟩ := Except.bind_eq_ok_iff.mp read
    obtain ⟨_, -, read⟩ := Except.bind_eq_ok_iff.mp read
    obtain ⟨⟨minute, cs⟩, -, read⟩ := Except.bind_eq_ok_iff.mp read
    obtain ⟨_, -, read⟩ := Except.bind_eq_ok_iff.mp read
    obtain ⟨⟨second, cs⟩, -, read⟩ := Except.bind_eq_ok_iff.mp read
    obtain ⟨⟨nanos, cs⟩, fraction, read⟩ := Except.bind_eq_ok_iff.mp read
    obtain ⟨⟨offset, cs⟩, zone, read⟩ := Except.bind_eq_ok_iff.mp read
    have short := readFraction_lt fraction
    have whole := readOffset_whole_minutes zone
    have read := Except.eq_ok_of_guard (Except.eq_ok_of_guard (Except.eq_ok_of_guard read))
    obtain ⟨range, rfl⟩ := Except.ite_eq_ok_iff.mp read
    refine ⟨range, ?_, ?_⟩ <;> dsimp only [ofDate] <;> split <;> omega

end Instant

end ReadModel

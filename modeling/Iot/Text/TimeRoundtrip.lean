import Mathlib.Data.List.TakeWhile
import Mathlib.Tactic.Linarith
import Iot.Text.Time

/-!
# Timestamps survive being written

`parseZoned` reads what `rfc3339NanoAt` writes (`parseZoned_rfc3339NanoAt`). The calendar part
rests on the split of days into cycles of years (`toMarch_spec`).
-/

namespace Iot.Text

/-! ## The calendar -/

/-- The split of the days of an era into centuries, four-year cycles and years. -/
theorem cycles_spec {doe : Int} (h0 : 0 ≤ doe) (h1 : doe < 146097) :
    ∃ century quad year doy : Int,
      min 3 (doe / 36524) = century ∧ (doe - 36524 * century) / 1461 = quad ∧
      min 3 ((doe - 36524 * century - 1461 * quad) / 365) = year ∧
      doe - 36524 * century - 1461 * quad - 365 * year = doy ∧
      0 ≤ century ∧ century ≤ 3 ∧ 0 ≤ quad ∧ quad ≤ 24 ∧ 0 ≤ year ∧ year ≤ 3 ∧
      0 ≤ doy ∧ doy ≤ 365 ∧ (doy = 365 → year = 3 ∧ (quad = 24 → century = 3)) := by
  obtain ⟨century, hcentury⟩ : ∃ century, min 3 (doe / 36524) = century := ⟨_, rfl⟩
  obtain ⟨doc, hdoc⟩ : ∃ doc, doe - 36524 * century = doc := ⟨_, rfl⟩
  obtain ⟨quad, hquad⟩ : ∃ quad, doc / 1461 = quad := ⟨_, rfl⟩
  obtain ⟨doq, hdoq⟩ : ∃ doq, doc - 1461 * quad = doq := ⟨_, rfl⟩
  obtain ⟨year, hyear⟩ : ∃ year, min 3 (doq / 365) = year := ⟨_, rfl⟩
  have hcenturies : 0 ≤ century ∧ century ≤ 3 ∧ 0 ≤ doc ∧ doc ≤ 36524 ∧
      (century < 3 → doc < 36524) := by omega
  have hquads : 0 ≤ quad ∧ quad ≤ 24 ∧ 0 ≤ doq ∧ doq ≤ 1460 := by omega
  have hyears : 0 ≤ year ∧ year ≤ 3 ∧ 0 ≤ doq - 365 * year ∧ doq - 365 * year ≤ 365 ∧
      (doq - 365 * year = 365 → year = 3) := by omega
  refine ⟨century, quad, year, doq - 365 * year, hcentury, by rw [hdoc, hquad], ?_, ?_, ?_⟩
  · rw [hdoc, hdoq, hyear]
  · rw [hdoc, hdoq]
  · omega

/-- The split into years is right, and only leap years have a 366th day. -/
theorem toMarch_spec (days : Int) :
    fromMarch (toMarch days).1 (toMarch days).2 = days ∧ 0 ≤ (toMarch days).2 ∧
      (toMarch days).2 ≤ 365 ∧ ((toMarch days).2 = 365 → isLeap ((toMarch days).1 + 1)) := by
  obtain ⟨century, quad, year, doy, hcentury, hquad, hyear, hdoy, hc0, hc3, hq0, hq24, hy0, hy3,
    hd0, hd365, hlast⟩ := @cycles_spec ((days + 719468) % 146097) (by omega) (by omega)
  have hmarch : toMarch days =
      (400 * ((days + 719468) / 146097) + 100 * century + 4 * quad + year, doy) := by
    simp only [toMarch, hcentury, hquad, hyear, hdoy]
  obtain ⟨era, hera⟩ : ∃ era, (days + 719468) / 146097 = era := ⟨_, rfl⟩
  rw [hmarch, hera]
  refine ⟨?_, hd0, hd365, fun hleap => ?_⟩
  · have hyoe : (400 * era + 100 * century + 4 * quad + year) % 400 =
        100 * century + 4 * quad + year := by omega
    have hquot : (400 * era + 100 * century + 4 * quad + year) / 400 = era := by omega
    have hfours : (100 * century + 4 * quad + year) / 4 = 25 * century + quad := by omega
    have hhundreds : (100 * century + 4 * quad + year) / 100 = century := by omega
    have hdays : days + 719468 = 146097 * era + (days + 719468) % 146097 := by omega
    simp only [fromMarch, hyoe, hquot, hfours, hhundreds]
    linarith
  · obtain ⟨rfl, hcentury⟩ := hlast hleap
    simp only [isLeap, Bool.and_eq_true, Bool.or_eq_true, beq_iff_eq, bne_iff_ne]
    omega

/-- The calendar day of a day number has a month and a day of that month. -/
theorem civil_spec (days : Int) :
    daysFromCivil (civil days) = days ∧ 1 ≤ (civil days).month ∧ (civil days).month ≤ 12 ∧
      1 ≤ (civil days).day ∧ (civil days).day ≤ daysIn (civil days).year (civil days).month := by
  obtain ⟨hdays, hdoy0, hdoy365, hleap⟩ := toMarch_spec days
  obtain ⟨year, doy, hmarch⟩ : ∃ year doy, toMarch days = (year, doy) := ⟨_, _, rfl⟩
  simp only [hmarch] at hdays hdoy0 hdoy365 hleap
  obtain ⟨mp, hmp⟩ : ∃ mp, (5 * doy + 2) / 153 = mp := ⟨_, rfl⟩
  have hmp0 : 0 ≤ mp ∧ mp ≤ 11 := by omega
  have hmonth : (153 * mp + 2) / 5 + (doy - (153 * mp + 2) / 5 + 1) - 1 = doy := by omega
  by_cases hlate : mp < 10
  · have hcivil : civil days = ⟨year, mp + 3, doy - (153 * mp + 2) / 5 + 1⟩ := by
      simp only [civil, hmarch, hmp, hlate, if_true]
    have hmarchMonth : ¬ mp + 3 ≤ 2 := by omega
    rw [hcivil]
    refine ⟨?_, by dsimp only; omega, by dsimp only; omega, by dsimp only; omega, ?_⟩
    · simp only [daysFromCivil, hmarchMonth, if_false, Int.add_sub_cancel, hmonth, hdays]
    · simp only [daysIn]
      split_ifs <;> omega
  · have hcivil : civil days = ⟨year + 1, mp - 9, doy - (153 * mp + 2) / 5 + 1⟩ := by
      simp only [civil, hmarch, hmp, hlate, if_false]
    have hmarchMonth : mp - 9 ≤ 2 := by omega
    rw [hcivil]
    refine ⟨?_, by dsimp only; omega, by dsimp only; omega, by dsimp only; omega, ?_⟩
    · simp only [daysFromCivil, hmarchMonth, if_true, Int.add_sub_cancel, Int.sub_add_cancel,
        hmonth, hdays]
    · simp only [daysIn]
      by_cases hlast : doy = 365
      · simp only [hleap hlast, if_true]
        split_ifs <;> omega
      · split_ifs <;> omega

/-! ## Digits -/

/-- The byte of a digit. -/
theorem toNat_digit (n : Int) : (digit n).toNat = 0x30 + n.toNat % 10 := by
  have hall : ∀ m : Fin 10, (0x30 + m.val).toUInt8.toNat = 0x30 + m.val := by decide
  exact hall ⟨n.toNat % 10, Nat.mod_lt _ (by decide)⟩

/-- The byte of a digit is a digit. -/
theorem digit_range (n : Int) : (0x30 ≤ digit n && digit n ≤ 0x39) = true := by
  simp only [Bool.and_eq_true, decide_eq_true_eq, UInt8.le_iff_toNat_le, toNat_digit]
  simp
  omega

/-- A two-digit number is read back. -/
theorem takeDigits_pad2 {n : Int} (h0 : 0 ≤ n) (h1 : n < 100) (rest : Bytes) :
    takeDigits 2 (pad2 n ++ rest) = some (n, rest) := by
  have hvalue : (digitsValue (pad2 n) : Int) = n := by
    simp only [digitsValue, pad2, List.foldl_cons, List.foldl_nil, toNat_digit]
    omega
  simp [takeDigits, pad2, digit_range] at hvalue ⊢
  exact hvalue

/-- A two-digit hour is read back. -/
theorem takeNumber_pad2 {n : Int} (h0 : 0 ≤ n) (h1 : n < 100) (rest : Bytes) :
    takeNumber (pad2 n ++ rest) = some (n, rest) := by
  rw [takeNumber, takeDigits_pad2 h0 h1, Option.some_or]

/-- A four-digit number is read back. -/
theorem takeDigits_pad4 {n : Int} (h0 : 0 ≤ n) (h1 : n < 10000) (rest : Bytes) :
    takeDigits 4 (pad4 n ++ rest) = some (n, rest) := by
  have hvalue : (digitsValue (pad4 n) : Int) = n := by
    simp only [digitsValue, pad4, List.foldl_cons, List.foldl_nil, toNat_digit]
    omega
  simp [takeDigits, pad4, digit_range] at hvalue ⊢
  exact hvalue

/-- One more digit. -/
theorem digitsValue_digit {s : Bytes} {n : Int} (h0 : 0 ≤ n) (h : (digitsValue s : Int) = n / 10) :
    (digitsValue (s ++ [digit n]) : Int) = n := by
  rw [digitsValue, List.foldl_append, List.foldl_cons, List.foldl_nil, toNat_digit, ← digitsValue]
  omega

/-- The value of nine digits. -/
theorem digitsValue_pad9 {n : Int} (h0 : 0 ≤ n) (h1 : n < 1000000000) :
    (digitsValue (pad9 n) : Int) = n := by
  have hnone : (digitsValue [] : Int) = n / (100000000 * 10) := by
    show (0 : Int) = _
    omega
  have hnext : ∀ {s : Bytes} {k : Int}, 0 < k → (digitsValue s : Int) = n / (k * 10) →
      (digitsValue (s ++ [digit (n / k)]) : Int) = n / k := by
    intro s k hk h
    refine digitsValue_digit (Int.ediv_nonneg h0 hk.le) ?_
    rw [h, Int.ediv_ediv_of_nonneg hk.le]
  have hmillis := hnext (k := 1000000) (by decide) <| hnext (k := 10000000) (by decide) <|
    hnext (k := 100000000) (by decide) hnone
  have hmicros := hnext (k := 1000) (by decide) <| hnext (k := 10000) (by decide) <|
    hnext (k := 100000) (by decide) hmillis
  exact digitsValue_digit h0 <| hnext (k := 10) (by decide) <| hnext (k := 100) (by decide) hmicros

/-- A text is what is left of it without its trailing zeros, and zeros. -/
theorem trailing_zeros (s : Bytes) :
    ∃ k, s = (s.reverse.dropWhile (· == 0x30)).reverse ++ List.replicate k 0x30 := by
  refine ⟨(s.reverse.takeWhile (· == 0x30)).length, ?_⟩
  have hzeros : s.reverse.takeWhile (· == 0x30) =
      List.replicate (s.reverse.takeWhile (· == 0x30)).length 0x30 := by
    refine List.eq_replicate_iff.mpr ⟨rfl, fun b hb => ?_⟩
    simpa using List.mem_takeWhile_imp hb
  have hsplit := congrArg List.reverse
    (List.takeWhile_append_dropWhile (p := (· == (0x30 : UInt8))) (l := s.reverse))
  rw [List.reverse_append, List.reverse_reverse, hzeros, List.reverse_replicate] at hsplit
  exact hsplit.symm

/-- What may follow a clock: no digit, and no mark of a fraction. -/
def endsClock (suffix : Bytes) : Bool :=
  suffix.head?.all fun b => b != 0x2E && b != 0x2C && !(0x30 ≤ b && b ≤ 0x39)

/-- A fraction of a second is read back. -/
theorem takeFraction_fraction {nanos : Int} (h0 : 0 ≤ nanos) (h1 : nanos < 1000000000)
    {suffix : Bytes} (hsuffix : endsClock suffix) :
    takeFraction (fraction nanos ++ suffix) = some (nanos, suffix) := by
  have hhead : ∀ b rest, suffix = b :: rest →
      ¬ (b = 0x2E ∨ b = 0x2C) ∧ (0x30 ≤ b && b ≤ 0x39) = false := by
    rintro b rest rfl
    simp only [endsClock, List.head?_cons, Option.all_some, Bool.and_eq_true, bne_iff_ne,
      Bool.not_eq_true'] at hsuffix
    exact ⟨not_or.mpr hsuffix.1, hsuffix.2⟩
  by_cases hnanos : nanos = 0
  · subst hnanos
    rw [fraction, if_pos rfl, List.nil_append]
    cases suffix with
    | nil => rfl
    | cons b rest => rw [takeFraction, if_neg (hhead b rest rfl).1]
  · obtain ⟨k, hk⟩ := trailing_zeros (pad9 nanos)
    rw [fraction, if_neg hnanos]
    generalize ((pad9 nanos).reverse.dropWhile (· == 0x30)).reverse = digits at hk ⊢
    have hdigits : ∀ b ∈ digits, (0x30 ≤ b && b ≤ 0x39) = true := by
      intro b hb
      have hmem : b ∈ pad9 nanos := hk ▸ List.mem_append_left _ hb
      simp only [pad9, List.mem_cons, List.not_mem_nil, or_false] at hmem
      rcases hmem with rfl | rfl | rfl | rfl | rfl | rfl | rfl | rfl | rfl <;> exact digit_range _
    have hlength : digits.length + k = 9 := by
      have := congrArg List.length hk
      simpa [pad9, eq_comm] using this
    have hvalue := digitsValue_pad9 h0 h1
    have hne : digits ≠ [] := by
      rintro rfl
      have hk9 : k = 9 := by simpa using hlength
      rw [hk, hk9] at hvalue
      exact hnanos (hvalue.symm.trans (by decide))
    have htake : digits ++ List.replicate 9 0x30 = pad9 nanos ++ List.replicate (9 - k) 0x30 := by
      rw [hk, List.append_assoc, List.replicate_append_replicate]
      congr 2
      omega
    have hnine : (digits ++ List.replicate 9 0x30).take 9 = pad9 nanos := by
      rw [htake, List.take_append_of_le_length (by simp [pad9]),
        List.take_of_length_le (by simp [pad9])]
    have hwhile : (digits ++ suffix).takeWhile (fun b => 0x30 ≤ b && b ≤ 0x39) = digits := by
      rw [List.takeWhile_append_of_pos hdigits]
      cases suffix with
      | nil => simp
      | cons b rest => rw [List.takeWhile_cons, (hhead b rest rfl).2]; simp
    have hdrop : (digits ++ suffix).dropWhile (fun b => 0x30 ≤ b && b ≤ 0x39) = suffix := by
      rw [List.dropWhile_append_of_pos hdigits]
      cases suffix with
      | nil => rfl
      | cons b rest => rw [List.dropWhile_cons, (hhead b rest rfl).2]; simp
    have hempty : digits.isEmpty = false := by simpa using hne
    simp only [List.cons_append, takeFraction, hwhile, hdrop, hempty, hnine, hvalue]
    rfl

/-! ## Timestamps -/

/-- A timestamp in UTC ends with `Z`. -/
theorem rfc3339Nano_dropLast {t : Time} {s : Bytes} (h : rfc3339Nano t = some s) :
    s.dropLast ++ ascii "Z" = s := by
  simp only [rfc3339Nano] at h
  split_ifs at h
  cases h
  rw [show ascii "Z" = [0x5A] from rfl, List.dropLast_concat]

/-- At the offset zero a timestamp is one in UTC. -/
theorem rfc3339NanoAt_zero (t : Time) : rfc3339NanoAt 0 t = rfc3339Nano t := by
  rw [rfc3339NanoAt, Int.zero_mul, Int.add_zero]
  cases hclock : rfc3339Nano t with
  | none => rfl
  | some clock => exact congrArg some (rfc3339Nano_dropLast hclock)

/-- A clock is read back with the offset that follows it. -/
theorem parseZoned_clock {t : Time} {text suffix : Bytes} {offset : Int}
    (h : rfc3339Nano t = some text) (hends : endsClock suffix)
    (hoffset : takeOffset suffix = some offset) :
    parseZoned (text.dropLast ++ suffix) = some (t - offset * second, offset) := by
  have hsplit : t / second * second + t % second = t := Int.mul_comm .. ▸ Int.mul_ediv_add_emod ..
  have hnanos : 0 ≤ t % second ∧ t % second < second :=
    ⟨Int.emod_nonneg t (by decide), Int.emod_lt_of_pos t (by decide)⟩
  obtain ⟨seconds, hseconds⟩ : ∃ seconds : Int, t / second = seconds := ⟨_, rfl⟩
  obtain ⟨nanos, hnanos'⟩ : ∃ nanos : Int, t % second = nanos := ⟨_, rfl⟩
  obtain ⟨clock, hclock⟩ : ∃ clock : Int, seconds % 86400 = clock := ⟨_, rfl⟩
  rw [hseconds, hnanos'] at hsplit
  rw [hnanos'] at hnanos
  have hnanos0 : 0 ≤ nanos := hnanos.1
  have hnanos1 : nanos < 1000000000 := hnanos.2
  have hclock0 : 0 ≤ clock ∧ clock < 86400 := by omega
  obtain ⟨hdays, hmonth1, hmonth12, hday1, hdayIn⟩ := civil_spec (seconds / 86400)
  simp only [rfc3339Nano, hseconds, hnanos', hclock] at h
  generalize civil (seconds / 86400) = date at h hdays hmonth1 hmonth12 hday1 hdayIn
  split_ifs at h with hyear
  cases h
  have hday31 : date.day ≤ 31 := by
    refine hdayIn.trans ?_
    simp only [daysIn]
    split_ifs <;> omega
  have hclocks : clock / 3600 ≤ 23 ∧ clock / 60 % 60 ≤ 59 ∧ clock % 60 ≤ 59 := by omega
  have htime : seconds / 86400 * 86400 + clock / 3600 * 3600 + clock / 60 % 60 * 60 + clock % 60 -
      offset = seconds - offset := by omega
  have hshift : (seconds - offset) * second + nanos = t - offset * second := by
    rw [Int.sub_mul, ← hsplit]
    omega
  have hdash : ∀ rest, takeByte 0x2D (ascii "-" ++ rest) = some rest := fun _ => rfl
  have hcolon : ∀ rest, takeByte 0x3A (ascii ":" ++ rest) = some rest := fun _ => rfl
  have hT : ∀ rest, takeByte 0x54 (ascii "T" ++ rest) = some rest := fun _ => rfl
  rw [show ascii "Z" = [0x5A] from rfl, List.dropLast_concat]
  simp only [List.append_assoc]
  -- the parts are read one after the other
  refine Option.bind_eq_some_iff.mpr ⟨_, takeDigits_pad4 hyear.1 (by omega) _, ?_⟩
  refine Option.bind_eq_some_iff.mpr ⟨_, hdash _, ?_⟩
  refine Option.bind_eq_some_iff.mpr ⟨_, takeDigits_pad2 (by omega) (by omega) _, ?_⟩
  refine Option.bind_eq_some_iff.mpr ⟨_, hdash _, ?_⟩
  refine Option.bind_eq_some_iff.mpr ⟨_, takeDigits_pad2 (by omega) (by omega) _, ?_⟩
  refine Option.bind_eq_some_iff.mpr ⟨_, hT _, ?_⟩
  refine Option.bind_eq_some_iff.mpr ⟨_, takeNumber_pad2 (by omega) (by omega) _, ?_⟩
  refine Option.bind_eq_some_iff.mpr ⟨_, hcolon _, ?_⟩
  refine Option.bind_eq_some_iff.mpr ⟨_, takeDigits_pad2 (by omega) (by omega) _, ?_⟩
  refine Option.bind_eq_some_iff.mpr ⟨_, hcolon _, ?_⟩
  refine Option.bind_eq_some_iff.mpr ⟨_, takeDigits_pad2 (by omega) (by omega) _, ?_⟩
  refine Option.bind_eq_some_iff.mpr ⟨_, takeFraction_fraction hnanos0 hnanos1 hends, ?_⟩
  refine Option.bind_eq_some_iff.mpr ⟨_, hoffset, ?_⟩
  simp only [hmonth1, hmonth12, hday1, hdayIn, hclocks, and_self, if_true, hdays]
  rw [htime, hshift]

/-- A numeric offset is read back. -/
theorem takeNumericOffset_pad2 {hours minutes : Int} (hhours : 0 ≤ hours ∧ hours ≤ 24)
    (hminutes : 0 ≤ minutes ∧ minutes ≤ 60) (sign : UInt8) :
    takeNumericOffset (sign :: (pad2 hours ++ (ascii ":" ++ pad2 minutes))) =
      if sign = 0x2B then some (hours * 3600 + minutes * 60)
      else if sign = 0x2D then some (-(hours * 3600 + minutes * 60))
      else none := by
  have hcolon : ∀ rest, takeByte 0x3A (ascii ":" ++ rest) = some rest := fun _ => rfl
  have hrest := @takeDigits_pad2 minutes hminutes.1 (by omega) []
  rw [List.append_nil] at hrest
  simp only [takeNumericOffset, takeDigits_pad2 hhours.1 (show hours < 100 by omega), hcolon, hrest,
    Option.bind_eq_bind, Option.bind_some, hhours.2, hminutes.2, and_self, if_true]

/-- An offset of whole minutes, less than a day, is read back. -/
theorem takeOffset_zoneSuffix {offset : Int} (hminutes : offset % 60 = 0)
    (hday : (offset.tdiv 60).natAbs / 60 < 24) : takeOffset (zoneSuffix offset) = some offset := by
  rw [zoneSuffix]
  split_ifs with hzero
  · rw [hzero]
    rfl
  · have hzone : offset = 60 * offset.tdiv 60 := by
      rw [Int.tdiv_eq_ediv_of_dvd (Int.dvd_of_emod_eq_zero hminutes)]
      omega
    generalize offset.tdiv 60 = zone at hday hzone
    have hread := @takeNumericOffset_pad2 (zone.natAbs / 60) (zone.natAbs % 60) (by omega)
      (by omega)
    dsimp only
    by_cases hneg : zone < 0
    · rw [if_pos hneg, show ascii "-" = [0x2D] from rfl, List.append_assoc, List.append_assoc,
        List.singleton_append, takeOffset, if_neg (by simp), hread, if_neg (by decide), if_pos rfl]
      congr 1
      omega
    · rw [if_neg hneg, show ascii "+" = [0x2B] from rfl, List.append_assoc, List.append_assoc,
        List.singleton_append, takeOffset, if_neg (by simp), hread, if_pos rfl]
      congr 1
      omega

/-- An offset ends the clock. -/
theorem endsClock_zoneSuffix (offset : Int) : endsClock (zoneSuffix offset) := by
  rw [zoneSuffix]
  dsimp only
  split_ifs <;> rfl

/-- A timestamp at an offset of whole minutes is read back with its offset. -/
theorem parseZoned_rfc3339NanoAt {offset : Int} {t : Time} {text : Bytes}
    (hminutes : offset % 60 = 0) (hday : (offset.tdiv 60).natAbs / 60 < 24)
    (h : rfc3339NanoAt offset t = some text) : parseZoned text = some (t, offset) := by
  obtain ⟨clock, hclock, rfl⟩ := Option.map_eq_some_iff.mp h
  rw [parseZoned_clock hclock (endsClock_zoneSuffix offset) (takeOffset_zoneSuffix hminutes hday),
    Int.add_sub_cancel]

/-- An offset that was read is one of whole minutes. -/
theorem takeOffset_minutes {s : Bytes} {offset : Int} (h : takeOffset s = some offset) :
    offset % 60 = 0 := by
  unfold takeOffset at h
  split_ifs at h
  · cases h
    rfl
  · unfold takeNumericOffset at h
    split at h
    · simp only [Option.bind_eq_bind, Option.bind_eq_some_iff] at h
      obtain ⟨⟨hours, _⟩, _, _, _, ⟨minutes, _⟩, _, h⟩ := h
      dsimp only at h
      split_ifs at h <;> cases h <;> omega
    · cases h

/-- The offset of a timestamp that was read is one of whole minutes. -/
theorem parseZoned_minutes {s : Bytes} {t : Time} {offset : Int}
    (h : parseZoned s = some (t, offset)) : offset % 60 = 0 := by
  obtain ⟨⟨year, s⟩, -, h⟩ := Option.bind_eq_some_iff.mp h
  obtain ⟨s, -, h⟩ := Option.bind_eq_some_iff.mp h
  obtain ⟨⟨month, s⟩, -, h⟩ := Option.bind_eq_some_iff.mp h
  obtain ⟨s, -, h⟩ := Option.bind_eq_some_iff.mp h
  obtain ⟨⟨day, s⟩, -, h⟩ := Option.bind_eq_some_iff.mp h
  obtain ⟨s, -, h⟩ := Option.bind_eq_some_iff.mp h
  obtain ⟨⟨hour, s⟩, -, h⟩ := Option.bind_eq_some_iff.mp h
  obtain ⟨s, -, h⟩ := Option.bind_eq_some_iff.mp h
  obtain ⟨⟨minute, s⟩, -, h⟩ := Option.bind_eq_some_iff.mp h
  obtain ⟨s, -, h⟩ := Option.bind_eq_some_iff.mp h
  obtain ⟨⟨secs, s⟩, -, h⟩ := Option.bind_eq_some_iff.mp h
  obtain ⟨⟨nanos, s⟩, -, h⟩ := Option.bind_eq_some_iff.mp h
  obtain ⟨offset, hoffset, h⟩ := Option.bind_eq_some_iff.mp h
  split_ifs at h
  cases h
  exact takeOffset_minutes hoffset

/-- A timestamp in UTC is read back. -/
theorem parseRFC3339_rfc3339Nano {t : Time} {text : Bytes} (h : rfc3339Nano t = some text) :
    parseRFC3339 text = some t := by
  rw [← rfc3339NanoAt_zero] at h
  rw [parseRFC3339, parseZoned_rfc3339NanoAt rfl (by decide) h, Option.map_some]

end Iot.Text

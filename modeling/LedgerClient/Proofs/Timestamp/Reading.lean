/-
  Texts of points in time.

  * `Shows shown offset cs`: the text `cs` is a clock that shows `shown` and is ahead of UTC by
    `offset` minutes;
  * `ofText?_eq_some_iff`: what is read is what such a clock comes to in UTC;
  * `shows_chars`: what is written shows UTC, and so it is read back (`ofText?_text`).
-/
import LedgerClient.Proofs.Timestamp.Calendar
import LedgerClient.Proofs.Timestamp.Parts

namespace LedgerClient.Timestamp

open Text

/-! ## Dates and times of day -/

/-- A year, a month and a day. -/
inductive WritesDate : Date → List Char → Prop
  | mk {year : Int} {month day : Nat} {ys ms ds : List Char} : Padded (WritesYear year) ys →
      WritesField '-' month ms → WritesField '-' day ds →
      WritesDate ⟨year, month, day⟩ (ys ++ (ms ++ ds))

/-- A time of day. -/
inductive WritesTime (date : Date) : Timestamp → List Char → Prop
  | mk {hour minute second nano : Nat} {hs ms ss fs : List Char} :
      Padded (WritesNumber 2 hour) hs → WritesField ':' minute ms → WritesField ':' second ss →
      WritesFraction nano fs →
      WritesTime date ⟨date, hour, minute, second, nano⟩ (hs ++ (ms ++ (ss ++ fs)))

theorem date?_eq (cs : List Char) :
    date? cs = (year? cs).bind fun (year, cs) =>
      (field? '-' cs).bind fun (month, cs) =>
        (field? '-' cs).bind fun (day, cs) => some (⟨year, month, day⟩, cs) := by
  simp only [date?, field?, Option.bind_assoc, Option.bind_eq_bind, Option.pure_def]

theorem time?_eq (date : Date) (cs : List Char) :
    time? date cs = (pair? cs).bind fun (hour, cs) =>
      (field? ':' cs).bind fun (minute, cs) =>
        (field? ':' cs).bind fun (second, cs) =>
          (fraction? cs).bind fun (nano, cs) => some (⟨date, hour, minute, second, nano⟩, cs) := by
  simp only [time?, field?, Option.bind_assoc, Option.bind_eq_bind, Option.pure_def]

theorem takes_date : Takes date? WritesDate isDigit := by
  have hfield := takes_field '-' (by decide)
  constructor
  · intro cs date rest h
    simp only [date?_eq, Option.bind_eq_some_iff, Prod.exists] at h
    obtain ⟨year, rest₁, hyear, month, rest₂, hmonth, day, rest₃, hday, he⟩ := h
    obtain ⟨rfl, rfl⟩ := by simpa using he
    obtain ⟨ys, hys, rfl⟩ := takes_year.sound hyear
    obtain ⟨ms, hms, rfl⟩ := hfield.sound hmonth
    obtain ⟨ds, hds, rfl⟩ := hfield.sound hday
    exact ⟨ys ++ (ms ++ ds), .mk hys hms hds, by simp⟩
  · rintro _ _ rest ⟨hys, hms, hds⟩ hrest
    simp only [date?_eq, List.append_assoc, Option.bind_some,
      takes_year.complete hys (hms.stops (by decide) _),
      hfield.complete hms (hds.stops (by decide) _), hfield.complete hds hrest]

theorem takes_time (date : Date) :
    Takes (time? date) (WritesTime date) fun c => isDigit c || c == '.' := by
  have hfield := takes_field ':' (by decide)
  constructor
  · intro cs t rest h
    simp only [time?_eq, Option.bind_eq_some_iff, Prod.exists] at h
    obtain ⟨hour, rest₁, hhour, minute, rest₂, hminute, second, rest₃, hsecond, nano, rest₄, hnano,
      he⟩ := h
    obtain ⟨rfl, rfl⟩ := by simpa using he
    obtain ⟨hs, hhs, rfl⟩ := takes_pair.sound hhour
    obtain ⟨ms, hms, rfl⟩ := hfield.sound hminute
    obtain ⟨ss, hss, rfl⟩ := hfield.sound hsecond
    obtain ⟨fs, hfs, rfl⟩ := takes_fraction.sound hnano
    exact ⟨hs ++ (ms ++ (ss ++ fs)), .mk hhs hms hss hfs, by simp⟩
  · rintro _ _ rest ⟨hhs, hms, hss, hfs⟩ hrest
    rename_i fs
    have hstop : Stops isDigit (fs ++ rest) := by
      cases hfs with
      | none => exact hrest.mono fun c hc => (Bool.or_eq_true _ _).mpr (.inl hc)
      | point => exact stops_cons (by decide)
    simp only [time?_eq, List.append_assoc, Option.bind_some,
      takes_pair.complete hhs (hms.stops (by decide) _),
      hfield.complete hms (hss.stops (by decide) _), hfield.complete hss hstop,
      takes_fraction.complete hfs hrest]

/-! ## Whole texts -/

/-- The text is a clock: it shows a date and a time of day in a zone that is ahead of UTC by so
many minutes. -/
inductive Shows : Timestamp → Int → List Char → Prop
  | mk {date : Date} {shown : Timestamp} {offset : Int} {mark : Char} {ds ts zs bs : List Char} :
      WritesDate date ds → mark ∈ ['T', 't', ' '] → WritesTime date shown ts →
      Padded (WritesZone offset) zs → (∀ b ∈ bs, isBlank b) →
      Shows shown offset (ds ++ mark :: (ts ++ (zs ++ bs)))

/-- Steps over the mark between the date and the time of day. -/
def skipMark? : List Char → Option (List Char)
  | 'T' :: cs | 't' :: cs | ' ' :: cs => some cs
  | _ => none

theorem skipMark?_eq_some_iff {cs rest : List Char} :
    skipMark? cs = some rest ↔ ∃ mark ∈ ['T', 't', ' '], cs = mark :: rest := by
  constructor
  · intro h
    unfold skipMark? at h
    split at h
    all_goals first | (obtain rfl := Option.some.inj h; exact ⟨_, by decide, rfl⟩) | cases h
  · rintro ⟨mark, hmark, rfl⟩
    simp only [List.mem_cons, List.not_mem_nil, or_false] at hmark
    obtain rfl | rfl | rfl := hmark <;> rfl

theorem ofText?_eq (s : String) :
    ofText? s = (date? s.toList).bind fun (date, cs) =>
      (skipMark? cs).bind fun cs =>
        (time? date cs).bind fun (shown, cs) =>
          (zone? (skipBlanks cs)).bind fun (offset, cs) =>
            if shown.isValid && (skipBlanks cs).isEmpty then shown.atOffset? offset else none := by
  unfold ofText?
  cases date? s.toList with
  | none => rfl
  | some p =>
    obtain ⟨date, cs⟩ := p
    simp only [Option.bind_eq_bind, Option.bind_some]
    split
    · rfl
    · rfl
    · rfl
    · rename_i hupper hlower hspace
      rw [skipMark?]
      · exact hupper
      · exact hlower
      · exact hspace

theorem takes_zone_padded :
    Takes (fun cs => zone? (skipBlanks cs)) (fun offset => Padded (WritesZone offset))
      fun _ => false :=
  takes_zone.padded fun _ _ h => h.opens.mono fun c hc => by rw [hc, Bool.true_or]

/-- A text that shows a valid date and time of day is read as what that comes to in UTC. -/
theorem ofText?_of_shows {s : String} {shown : Timestamp} {offset : Int}
    (h : Shows shown offset s.toList) (hvalid : shown.isValid) :
    ofText? s = shown.atOffset? offset := by
  generalize hs : s.toList = cs at h
  obtain ⟨hds, hmark, hts, hzs, hbs⟩ := h
  rename_i date mark ds ts zs bs
  have hdate : Stops isDigit (mark :: (ts ++ (zs ++ bs))) := by
    refine stops_cons ?_
    simp only [List.mem_cons, List.not_mem_nil, or_false] at hmark
    obtain rfl | rfl | rfl := hmark <;> decide
  have hend : skipBlanks bs = [] := List.dropWhile_eq_nil_iff.2 hbs
  simp only [ofText?_eq, hs, takes_date.complete hds hdate, Option.bind_some,
    skipMark?_eq_some_iff.2 ⟨mark, hmark, rfl⟩,
    (takes_time date).complete hts (stops_time_of_zone hzs bs),
    takes_zone_padded.complete hzs (stops_nothing bs), hend, hvalid]
  rfl

/-- **What is read is what a clock comes to in UTC**, where its text shows a valid date and time
of day. -/
theorem ofText?_eq_some_iff {s : String} {t : Timestamp} :
    ofText? s = some t ↔ ∃ shown offset,
      Shows shown offset s.toList ∧ shown.isValid ∧ shown.atOffset? offset = some t := by
  constructor
  · intro h
    simp only [ofText?_eq, Option.bind_eq_some_iff, Prod.exists] at h
    obtain ⟨date, rest₁, hdate, rest₂, hmark, shown, rest₃, htime, offset, rest₄, hoffset, h⟩ := h
    obtain ⟨ds, hds, hs⟩ := takes_date.sound hdate
    obtain ⟨mark, hmem, rfl⟩ := skipMark?_eq_some_iff.1 hmark
    obtain ⟨ts, hts, rfl⟩ := (takes_time date).sound htime
    obtain ⟨zs, hzs, rfl⟩ := takes_zone_padded.sound hoffset
    split at h
    · rename_i hend
      rw [Bool.and_eq_true, List.isEmpty_iff] at hend
      have hblank : ∀ b ∈ rest₄, isBlank b := List.dropWhile_eq_nil_iff.1 hend.2
      exact ⟨shown, offset, hs ▸ .mk hds hmem hts hzs hblank, hend.1, h⟩
    · cases h
  · rintro ⟨shown, offset, hshows, hvalid, hoffset⟩
    exact (ofText?_of_shows hshows hvalid).trans hoffset

/-- The text is a clock, and what it shows is the given point in time. -/
def Tells (s : String) (t : Timestamp) : Prop :=
  ∃ shown offset, Shows shown offset s.toList ∧ shown.isValid ∧ shown.SameInstant offset t

theorem isValid_of_ofText? {s : String} {t : Timestamp} (h : ofText? s = some t) : t.isValid := by
  obtain ⟨shown, offset, -, hvalid, hoffset⟩ := ofText?_eq_some_iff.1 h
  exact (atOffset?_eq_some hvalid hoffset).1

/-- **A text that is read tells what it is read as**, and tells no other point in time. -/
theorem tells_iff_of_ofText? {s : String} {t u : Timestamp} (h : ofText? s = some t)
    (hu : u.isValid) : Tells s u ↔ u = t := by
  obtain ⟨shown, offset, hshows, hvalid, hoffset⟩ := ofText?_eq_some_iff.1 h
  constructor
  · rintro ⟨shown', offset', hshows', hvalid', hsame⟩
    have hoffset' := (ofText?_of_shows hshows' hvalid').symm.trans h
    obtain ⟨ht, hsame'⟩ := atOffset?_eq_some hvalid' hoffset'
    exact hsame.unique hsame' hu ht
  · rintro rfl
    exact ⟨shown, offset, hshows, hvalid, (atOffset?_eq_some hvalid hoffset).2⟩

/-! ## Writing -/

theorem writesNumber_padLeft {width n : Nat} (h : n < tenTo (width + 1)) :
    WritesNumber (width + 1) n (padLeft (width + 1) (digits n)) where
  isNumeral := isNumeral_padLeft _ (isNumeral_digits n)
  length_le := (length_padLeft (length_digits_le h)).le
  valueOf_eq := by rw [valueOf_padLeft, valueOf_digits]

theorem writesYear_yearChars (year : Int) : WritesYear year (yearChars year) := by
  have hnumeral := isNumeral_padLeft 4 (isNumeral_digits year.natAbs)
  have hvalue : valueOf (padLeft 4 (digits year.natAbs)) = year.natAbs := by
    rw [valueOf_padLeft, valueOf_digits]
  simp only [yearChars]
  split
  · have hyear : -(year.natAbs : Int) = year := by omega
    have hminus := WritesYear.minus hnumeral
    rwa [hvalue, hyear] at hminus
  have hyear : (year.natAbs : Int) = year := by omega
  split
  · have hplus := WritesYear.plus hnumeral
    rwa [hvalue, hyear] at hplus
  · have hbound : year.natAbs < tenTo 4 := by
      show year.natAbs < 10000
      omega
    have hplain := WritesYear.plain (writesNumber_padLeft hbound)
    rwa [hyear] at hplain

theorem writesNumber_twoDigits {n : Nat} (h : n < 100) : WritesNumber 2 n (twoDigits n) :=
  writesNumber_padLeft h

theorem writesField_twoDigits (mark : Char) {n : Nat} (h : n < 100) :
    WritesField mark n (mark :: twoDigits n) :=
  padded_of ⟨twoDigits n, rfl, padded_of (writesNumber_twoDigits h)⟩

/-- Digits of a fraction, up to nine of them, count by their places. -/
theorem writesFraction_padLeft {k n : Nat} (hk : k < 9) (h : n < tenTo (k + 1)) :
    WritesFraction (n * tenTo (8 - k)) ('.' :: padLeft (k + 1) (digits n)) := by
  obtain ⟨hnumeral, -, hvalue⟩ := writesNumber_padLeft h
  have hlength := length_padLeft (length_digits_le h)
  have hpoint := WritesFraction.point hnumeral
  rwa [valueOf_take_nine, List.take_of_length_le (by omega), hvalue, hlength,
    show 9 - (k + 1) = 8 - k by omega] at hpoint

theorem writesFraction_fractionChars {nano : Nat} (h : nano < tenTo 9) :
    WritesFraction nano (fractionChars nano) := by
  have hnano : nano < 1000000000 := h
  unfold fractionChars
  split
  · rename_i hzero
    exact hzero ▸ .none
  split
  · have hmilli := writesFraction_padLeft (k := 2) (n := nano / 1000000) (by decide)
      (show nano / 1000000 < 1000 by omega)
    have hsame : nano / 1000000 * tenTo (8 - 2) = nano := by
      show nano / 1000000 * 1000000 = nano
      omega
    rwa [hsame] at hmilli
  split
  · have hmicro := writesFraction_padLeft (k := 5) (n := nano / 1000) (by decide)
      (show nano / 1000 < 1000000 by omega)
    have hsame : nano / 1000 * tenTo (8 - 5) = nano := by
      show nano / 1000 * 1000 = nano
      omega
    rwa [hsame] at hmicro
  · have hfull := writesFraction_padLeft (k := 8) (by decide) h
    rwa [Nat.sub_self, tenTo_zero, Nat.mul_one] at hfull

variable {t : Timestamp}

/-- **The text of a point in time shows it in UTC.** -/
theorem shows_chars (h : t.isValid) : Shows t 0 t.chars := by
  obtain ⟨hdate, hhour, hminute, hsecond, hnano⟩ := isValid_iff.mp h
  obtain ⟨-, hmonth, -, hday⟩ := (Date.isValid_iff.mp hdate).2
  have hmonth' : t.date.month < 100 := by omega
  have hday' : t.date.day < 100 := Nat.lt_of_le_of_lt (hday.trans (daysInMonth_le _ _)) (by decide)
  have hds : WritesDate t.date (yearChars t.date.year ++
      ('-' :: twoDigits t.date.month ++ '-' :: twoDigits t.date.day)) :=
    .mk (padded_of (writesYear_yearChars _)) (writesField_twoDigits '-' hmonth')
      (writesField_twoDigits '-' hday')
  have hts : WritesTime t.date t (twoDigits t.hour ++ (':' :: twoDigits t.minute ++
      (':' :: twoDigits t.second ++ fractionChars t.nano))) :=
    .mk (padded_of (writesNumber_twoDigits (by omega))) (writesField_twoDigits ':' (by omega))
      (writesField_twoDigits ':' (by omega)) (writesFraction_fractionChars hnano)
  have hshows := Shows.mk hds (show 'T' ∈ ['T', 't', ' '] by decide) hts
    (padded_of (.zulu (z := 'Z') (by decide))) (List.forall_mem_nil _)
  simpa only [chars, List.append_assoc, List.cons_append, List.append_nil] using hshows

/-- **A point in time is read back from its own text.** -/
theorem ofText?_text (h : t.isValid) : ofText? t.text = some t := by
  refine ofText?_eq_some_iff.2 ⟨t, 0, ?_, h, atOffset?_zero h⟩
  rw [text, String.toList_ofList]
  exact shows_chars h

end LedgerClient.Timestamp

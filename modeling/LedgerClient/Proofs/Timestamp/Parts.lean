/-
  The parts of the text of a point in time, and who reads them.

  * `Takes read W p`: the reader takes the texts in `W` off the front of a text, and nothing else,
    where the text does not go on with a character in `p`; blanks in front make no difference
    (`Takes.padded`);
  * `WritesYear`, `WritesField`, `WritesFraction` and `WritesZone` are the texts of the parts, and
    `takes_year`, `takes_field`, `takes_fraction` and `takes_zone` say that they are what is read.
-/
import LedgerClient.Proofs.Text.Decoration
import LedgerClient.Proofs.Text.Search
import LedgerClient.Timestamp.Reader

namespace LedgerClient.Timestamp

open Text

/-! ## Readers -/

/-- The text does not go on with a character in `p`. -/
def Stops (p : Char → Bool) (cs : List Char) : Prop :=
  ∀ c ∈ cs.head?, ¬p c

/-- The text starts with a character that is not in `p`. -/
def Opens (p : Char → Bool) (cs : List Char) : Prop :=
  ∃ c rest, cs = c :: rest ∧ ¬p c

theorem stops_cons {p : Char → Bool} {c : Char} {cs : List Char} (h : ¬p c) :
    Stops p (c :: cs) := by
  intro d hd
  obtain rfl := Option.some.inj hd
  exact h

theorem Stops.mono {p q : Char → Bool} {cs : List Char} (h : Stops q cs) (hpq : ∀ c, p c → q c) :
    Stops p cs :=
  fun c hc hp => h c hc (hpq c hp)

theorem Opens.stops {p : Char → Bool} {cs : List Char} (h : Opens p cs) (rest : List Char) :
    Stops p (cs ++ rest) := by
  obtain ⟨c, cs, rfl, hc⟩ := h
  exact stops_cons hc

theorem Opens.mono {p q : Char → Bool} {cs : List Char} (h : Opens q cs) (hpq : ∀ c, p c → q c) :
    Opens p cs := by
  obtain ⟨c, cs, rfl, hc⟩ := h
  exact ⟨c, cs, rfl, fun hp => hc (hpq c hp)⟩

/-- The reader takes the texts in `W` off the front of a text, and nothing else. A text in `W` is
taken as a whole where nothing in `p` comes behind it. -/
structure Takes {α : Type} (read : List Char → Option (α × List Char)) (W : α → List Char → Prop)
    (p : Char → Bool) : Prop where
  sound : ∀ {cs a rest}, read cs = some (a, rest) → ∃ xs, W a xs ∧ cs = xs ++ rest
  complete : ∀ {xs a rest}, W a xs → Stops p rest → read (xs ++ rest) = some (a, rest)

/-- A reader whose results are taken for others takes the same texts. -/
theorem Takes.map {α β : Type} {read : List Char → Option (α × List Char)}
    {W : α → List Char → Prop} {p : Char → Bool} (h : Takes read W p) (f : α → β) :
    Takes (fun cs => (read cs).map fun x => (f x.1, x.2))
      (fun b xs => ∃ a, W a xs ∧ f a = b) p where
  sound {cs b rest} hread := by
    obtain ⟨⟨a, rest'⟩, ha, he⟩ := Option.map_eq_some_iff.1 hread
    obtain ⟨rfl, rfl⟩ := Prod.mk.inj he
    obtain ⟨xs, hxs, hcs⟩ := h.sound ha
    exact ⟨xs, ⟨a, hxs, rfl⟩, hcs⟩
  complete {xs b rest} hxs hrest := by
    obtain ⟨a, hxs, rfl⟩ := hxs
    rw [h.complete hxs hrest, Option.map_some]

/-- A text in `W` behind blanks. -/
def Padded (W : List Char → Prop) (cs : List Char) : Prop :=
  ∃ bs xs, (∀ b ∈ bs, isBlank b) ∧ W xs ∧ cs = bs ++ xs

section Padded

variable {W : List Char → Prop} {p : Char → Bool} {cs : List Char}

theorem Padded.opens (h : Padded W cs) (hW : ∀ xs, W xs → Opens p xs)
    (hp : ∀ b, isBlank b → ¬p b) : Opens p cs := by
  obtain ⟨bs, xs, hbs, hxs, rfl⟩ := h
  cases bs with
  | nil => exact hW xs hxs
  | cons b bs => exact ⟨b, bs ++ xs, rfl, hp b (hbs b List.mem_cons_self)⟩

theorem padded_of (h : W cs) : Padded W cs :=
  ⟨[], cs, List.forall_mem_nil _, h, rfl⟩

theorem skipBlanks_append {bs : List Char} (hbs : ∀ b ∈ bs, isBlank b) (hcs : Stops isBlank cs) :
    skipBlanks (bs ++ cs) = cs :=
  dropWhile_append_of_head hbs hcs

theorem exists_skipBlanks (cs : List Char) :
    ∃ bs, (∀ b ∈ bs, isBlank b) ∧ cs = bs ++ skipBlanks cs := by
  obtain ⟨bs, rest, hbs, hrest, rfl⟩ := exists_run_append isBlank cs
  exact ⟨bs, hbs, by rw [skipBlanks_append hbs hrest]⟩

end Padded

/-- A reader that skips blanks takes the same texts behind blanks. -/
theorem Takes.padded {α : Type} {read : List Char → Option (α × List Char)}
    {W : α → List Char → Prop} {p : Char → Bool} (h : Takes read W p)
    (hW : ∀ a xs, W a xs → Opens isBlank xs) :
    Takes (fun cs => read (skipBlanks cs)) (fun a => Padded (W a)) p where
  sound {cs a rest} hread := by
    obtain ⟨bs, hbs, hcs⟩ := exists_skipBlanks cs
    obtain ⟨xs, hxs, hskip⟩ := h.sound hread
    rw [hskip] at hcs
    exact ⟨bs ++ xs, ⟨bs, xs, hbs, hxs, rfl⟩, by rw [hcs, List.append_assoc]⟩
  complete {cs a rest} hcs hrest := by
    obtain ⟨bs, xs, hbs, hxs, rfl⟩ := hcs
    rw [List.append_assoc, skipBlanks_append hbs ((hW a xs hxs).stops rest)]
    exact h.complete hxs hrest

/-! ## Numbers -/

theorem not_isBlank_of_isDigit {c : Char} (h : isDigit c) : ¬isBlank c := by
  simp [isBlank_of_isDecimalDigit (isDecimalDigit_of_isDigit h)]

/-- One to `width` digits that stand for `n`. -/
structure WritesNumber (width n : Nat) (cs : List Char) : Prop where
  isNumeral : IsNumeral cs
  length_le : cs.length ≤ width
  valueOf_eq : valueOf cs = n

theorem WritesNumber.opens {width n : Nat} {cs : List Char} (h : WritesNumber width n cs) :
    Opens isBlank cs := by
  obtain ⟨hne, hdigit⟩ := h.isNumeral
  obtain ⟨c, cs, rfl⟩ := List.exists_cons_of_ne_nil hne
  exact ⟨c, cs, rfl, not_isBlank_of_isDigit (hdigit c List.mem_cons_self)⟩

theorem take_takeWhile_append {k : Nat} {ds rest : List Char} (hds : ∀ d ∈ ds, isDigit d)
    (hrest : Stops isDigit rest) : ((ds ++ rest).take k).takeWhile isDigit = ds.take k := by
  rw [List.take_append]
  refine takeWhile_append_of_head (fun d hd => hds d (List.mem_of_mem_take hd)) ?_
  intro c hc
  rw [List.head?_take] at hc
  split at hc
  · cases hc
  · exact hrest c hc

theorem takes_number (width : Nat) : Takes (number? width) (WritesNumber width) isDigit where
  sound {cs n rest} hread := by
    simp only [number?] at hread
    split at hread
    · cases hread
    · rename_i hne
      obtain ⟨rfl, rfl⟩ := by simpa using hread
      rw [List.isEmpty_iff] at hne
      have hpre : (cs.take width).takeWhile isDigit <+: cs :=
        (List.takeWhile_prefix _).trans (List.take_prefix _ _)
      refine ⟨_, ⟨⟨hne, List.all_eq_true.1 List.all_takeWhile⟩, ?_, rfl⟩,
        (List.prefix_iff_eq_append.1 hpre).symm⟩
      exact (List.takeWhile_prefix _).length_le.trans (List.length_take_le _ _)
  complete {xs n rest} hxs hrest := by
    obtain ⟨⟨hne, hdigit⟩, hlength, rfl⟩ := hxs
    simp only [number?, take_takeWhile_append hdigit hrest, List.take_of_length_le hlength,
      List.isEmpty_iff, hne, if_false, List.drop_left]

theorem takes_pair : Takes pair? (fun n => Padded (WritesNumber 2 n)) isDigit :=
  (takes_number 2).padded fun _ _ h => h.opens

/-- A year: at most four digits, or a sign and any number of them. -/
inductive WritesYear : Int → List Char → Prop
  | plain {n : Nat} {ds : List Char} : WritesNumber 4 n ds → WritesYear n ds
  | plus {ds : List Char} : IsNumeral ds → WritesYear (valueOf ds) ('+' :: ds)
  | minus {ds : List Char} : IsNumeral ds → WritesYear (-(valueOf ds)) ('-' :: ds)

theorem WritesYear.opens {year : Int} {cs : List Char} (h : WritesYear year cs) :
    Opens isBlank cs := by
  cases h with
  | plain h => exact h.opens
  | plus h => exact ⟨_, _, rfl, by decide⟩
  | minus h => exact ⟨_, _, rfl, by decide⟩

/-- The digits behind a sign may be as many as there are. -/
theorem writesNumber_append {ds : List Char} (h : IsNumeral ds) (rest : List Char) :
    WritesNumber (ds ++ rest).length (valueOf ds) ds :=
  ⟨h, List.length_append ▸ Nat.le_add_right _ _, rfl⟩

/-- Reads a year that stands at the start. -/
def bareYear? : List Char → Option (Int × List Char)
  | '-' :: rest => (number? rest.length rest).map fun (n, rest) => (-(n : Int), rest)
  | '+' :: rest => (number? rest.length rest).map fun (n, rest) => ((n : Int), rest)
  | rest => (number? 4 rest).map fun (n, rest) => ((n : Int), rest)

theorem bareYear?_of_number {c : Char} (h : isDigit c) (cs : List Char) :
    bareYear? (c :: cs) = (number? 4 (c :: cs)).map fun (n, rest) => ((n : Int), rest) := by
  have hmark : ∀ mark, ¬isDigit mark → ∀ rest, c :: cs = mark :: rest → False := by
    intro mark hmark rest he
    exact hmark ((List.cons.inj he).1 ▸ h)
  rw [bareYear?]
  · exact hmark '-' (by decide)
  · exact hmark '+' (by decide)

theorem takes_bareYear : Takes bareYear? WritesYear isDigit := by
  constructor
  · intro cs year rest h
    unfold bareYear? at h
    split at h
    · obtain ⟨ds, ⟨n, hds, rfl⟩, rfl⟩ := ((takes_number _).map fun n => -(n : Int)).sound h
      exact ⟨'-' :: ds, hds.valueOf_eq ▸ .minus hds.isNumeral, rfl⟩
    · obtain ⟨ds, ⟨n, hds, rfl⟩, rfl⟩ := ((takes_number _).map Int.ofNat).sound h
      exact ⟨'+' :: ds, hds.valueOf_eq ▸ .plus hds.isNumeral, rfl⟩
    · obtain ⟨ds, ⟨n, hds, rfl⟩, rfl⟩ := ((takes_number _).map Int.ofNat).sound h
      exact ⟨ds, .plain hds, rfl⟩
  · intro xs year rest hxs hrest
    cases hxs with
    | plain hds =>
      obtain ⟨c, cs, rfl⟩ := List.exists_cons_of_ne_nil hds.isNumeral.1
      rw [List.cons_append, bareYear?_of_number (hds.isNumeral.2 c List.mem_cons_self)]
      exact ((takes_number 4).map Int.ofNat).complete ⟨_, hds, rfl⟩ hrest
    | plus hds =>
      have hnumber := writesNumber_append hds rest
      rw [List.cons_append, bareYear?]
      exact ((takes_number _).map Int.ofNat).complete ⟨_, hnumber, rfl⟩ hrest
    | minus hds =>
      have hnumber := writesNumber_append hds rest
      rw [List.cons_append, bareYear?]
      exact ((takes_number _).map fun n => -(n : Int)).complete ⟨_, hnumber, rfl⟩ hrest

theorem takes_year : Takes year? (fun year => Padded (WritesYear year)) isDigit :=
  takes_bareYear.padded fun _ _ h => h.opens

/-! ## Separators -/

/-- A separator, and a number of at most two digits, both behind blanks. -/
def WritesField (mark : Char) (n : Nat) : List Char → Prop :=
  Padded fun xs => ∃ ys, xs = mark :: ys ∧ Padded (WritesNumber 2 n) ys

/-- Reads a separator and a number. -/
def field? (mark : Char) (cs : List Char) : Option (Nat × List Char) :=
  (separator? mark cs).bind pair?

theorem takes_field (mark : Char) (hmark : ¬isBlank mark) :
    Takes (field? mark) (WritesField mark) isDigit := by
  constructor
  · intro cs n rest h
    simp only [field?, separator?, Option.bind_eq_some_iff] at h
    obtain ⟨cs', hsep, hpair⟩ := h
    obtain ⟨bs, hbs, hcs⟩ := exists_skipBlanks cs
    split at hsep
    · rename_i d rest' hskip
      split at hsep
      · rename_i he
        obtain rfl := he
        obtain rfl := Option.some.inj hsep
        obtain ⟨xs, hxs, rfl⟩ := takes_pair.sound hpair
        refine ⟨bs ++ mark :: xs, ⟨bs, _, hbs, ⟨xs, rfl, hxs⟩, rfl⟩, ?_⟩
        rw [hcs, hskip, List.append_assoc, List.cons_append]
      · cases hsep
    · cases hsep
  · intro cs n rest h hrest
    obtain ⟨bs, _, hbs, ⟨xs, rfl, hxs⟩, rfl⟩ := h
    have hsep : separator? mark (bs ++ mark :: xs ++ rest) = some (xs ++ rest) := by
      rw [separator?, List.append_assoc, List.cons_append,
        skipBlanks_append hbs (stops_cons hmark)]
      exact if_pos rfl
    rw [field?, hsep]
    exact takes_pair.complete hxs hrest

theorem WritesField.stops {mark : Char} {n : Nat} {cs : List Char} (h : WritesField mark n cs)
    (hmark : ¬isDigit mark) (rest : List Char) : Stops isDigit (cs ++ rest) := by
  refine (Padded.opens h ?_ ?_).stops rest
  · rintro _ ⟨xs, rfl, -⟩
    exact ⟨mark, xs, rfl, hmark⟩
  · exact fun b hb hdigit => not_isBlank_of_isDigit hdigit hb

/-! ## Fractions -/

/-- A fraction of a second in nanoseconds: nothing, or a point and digits. The first nine digits
count, with zeros in the place of those that are missing. -/
inductive WritesFraction : Nat → List Char → Prop
  | none : WritesFraction 0 []
  | point {ds : List Char} : IsNumeral ds →
      WritesFraction (valueOf ((ds ++ List.replicate 9 '0').take 9)) ('.' :: ds)

theorem valueOf_take_nine (ds : List Char) :
    valueOf ((ds ++ List.replicate 9 '0').take 9) =
      valueOf (ds.take 9) * tenTo (9 - (ds.take 9).length) := by
  rw [List.take_append, List.take_replicate, valueOf_append, valueOf_replicate_zero,
    List.length_replicate, List.length_take, Nat.add_zero]
  congr 2
  omega

theorem fraction?_point {ds rest : List Char} (hds : ∀ d ∈ ds, isDigit d)
    (hrest : Stops isDigit rest) :
    fraction? ('.' :: (ds ++ rest)) =
      if ds = [] then none
      else some (valueOf ((ds ++ List.replicate 9 '0').take 9), rest) := by
  have hdrop : (ds ++ rest).drop (ds.take 9).length = ds.drop 9 ++ rest := by
    have hsplit : ds ++ rest = ds.take 9 ++ (ds.drop 9 ++ rest) := by
      rw [← List.append_assoc, List.take_append_drop]
    rw [hsplit, List.drop_left]
  simp only [fraction?, take_takeWhile_append hds hrest, hdrop, valueOf_take_nine]
  rw [dropWhile_append_of_head (fun d hd => hds d (List.mem_of_mem_drop hd)) hrest]
  simp

theorem fraction?_of_stops {cs : List Char} (h : Stops (· == '.') cs) :
    fraction? cs = some (0, cs) := by
  cases cs with
  | nil => rfl
  | cons c cs =>
    rw [fraction?]
    intro rest he
    exact h c rfl (beq_iff_eq.2 (List.cons.inj he).1)

theorem takes_fraction : Takes fraction? WritesFraction fun c => isDigit c || c == '.' := by
  constructor
  · intro cs nano rest h
    by_cases hpoint : Stops (· == '.') cs
    · rw [fraction?_of_stops hpoint] at h
      obtain ⟨rfl, rfl⟩ := by simpa using h
      exact ⟨[], .none, rfl⟩
    · obtain ⟨c, hc, hne⟩ : ∃ c ∈ cs.head?, (c == '.') = true := by
        simpa [Stops] using hpoint
      obtain rfl := beq_iff_eq.1 hne
      obtain ⟨cs, rfl⟩ := List.head?_eq_some_iff.1 hc
      -- The fraction is the whole run of digits behind the point, however long it is.
      obtain ⟨ds, rest', hds, hrest, rfl⟩ := exists_run_append isDigit cs
      rw [fraction?_point hds hrest] at h
      split at h
      · cases h
      · rename_i hne
        obtain ⟨rfl, rfl⟩ := by simpa using h
        exact ⟨'.' :: ds, .point ⟨hne, hds⟩, rfl⟩
  · intro xs nano rest h hrest
    cases h with
    | none => exact fraction?_of_stops (hrest.mono fun c hc => (Bool.or_eq_true _ _).mpr (.inr hc))
    | point hds =>
      have hstop : Stops isDigit rest := hrest.mono fun c hc => (Bool.or_eq_true _ _).mpr (.inl hc)
      rw [List.cons_append, fraction?_point hds.2 hstop, if_neg hds.1]

/-! ## Zones -/

/-- Two digits that stand for `n`. -/
structure WritesTwo (n : Nat) (cs : List Char) : Prop where
  length_eq : cs.length = 2
  isDigit : ∀ c ∈ cs, isDigit c
  valueOf_eq : valueOf cs = n

/-- Hours and minutes of an offset, as minutes. Colons and blanks may stand between them. -/
inductive WritesMinutes : Nat → List Char → Prop
  | mk {hours minutes : Nat} {hs gap ms : List Char} : WritesTwo hours hs → hours < 24 →
      (∀ c ∈ gap, c = ':' ∨ isBlank c) → WritesTwo minutes ms → minutes < 60 →
      WritesMinutes (hours * 60 + minutes) (hs ++ (gap ++ ms))

/-- The minutes by which a zone is ahead of UTC. -/
inductive WritesZone : Int → List Char → Prop
  | zulu {z : Char} : z ∈ ['Z', 'z'] → WritesZone 0 [z]
  | utc {u t c : Char} : u ∈ ['U', 'u'] → t ∈ ['T', 't'] → c ∈ ['C', 'c'] →
      WritesZone 0 [u, t, c]
  | ahead {n : Nat} {ms : List Char} : WritesMinutes n ms → WritesZone n ('+' :: ms)
  | behind {n : Nat} {sign : Char} {ms : List Char} : sign ∈ ['-', '\u2212'] →
      WritesMinutes n ms → WritesZone (-n) (sign :: ms)

theorem takes_two : Takes twoDigits? WritesTwo fun _ => false := by
  constructor
  · intro cs n rest h
    unfold twoDigits? at h
    split at h
    · rename_i a b rest'
      split at h
      · rename_i hab
        obtain ⟨rfl, rfl⟩ := by simpa using h
        rw [Bool.and_eq_true] at hab
        refine ⟨[a, b], ⟨rfl, by simpa using hab, ?_⟩, rfl⟩
        simp [valueOf, valueFrom]
      · cases h
    · cases h
  · intro xs n rest h _
    obtain ⟨hlength, hdigit, rfl⟩ := h
    obtain ⟨a, b, rfl⟩ := List.length_eq_two.1 hlength
    obtain ⟨ha, hb⟩ : isDigit a ∧ isDigit b := by simpa using hdigit
    simp [twoDigits?, ha, hb, valueOf, valueFrom]

theorem WritesTwo.opens {n : Nat} {cs : List Char} (h : WritesTwo n cs) :
    Opens (fun c => c == ':' || isBlank c) cs := by
  obtain ⟨a, b, rfl⟩ := List.length_eq_two.1 h.length_eq
  have ha := h.isDigit a List.mem_cons_self
  have hblank := not_isBlank_of_isDigit ha
  have hcolon : a ≠ ':' := by
    rintro rfl
    exact absurd ha (by decide)
  exact ⟨a, [b], rfl, by simp [hblank, hcolon]⟩

theorem stops_nothing (cs : List Char) : Stops (fun _ => false) cs :=
  fun _ _ => Bool.false_ne_true

theorem takes_minutes : Takes offsetMinutes? WritesMinutes fun _ => false := by
  constructor
  · intro cs n rest h
    simp only [offsetMinutes?, Option.bind_eq_bind, Option.bind_eq_some_iff, Prod.exists] at h
    obtain ⟨hours, rest₁, hhours, minutes, rest₂, hminutes, h⟩ := h
    split at h
    · rename_i hrange
      obtain ⟨rfl, rfl⟩ := by simpa using h
      obtain ⟨hs, hhs, rfl⟩ := takes_two.sound hhours
      obtain ⟨gap, rest', hgap, hrest', rfl⟩ :=
        exists_run_append (fun c => c == ':' || isBlank c) rest₁
      rw [dropWhile_append_of_head hgap hrest'] at hminutes
      obtain ⟨ms, hms, rfl⟩ := takes_two.sound hminutes
      refine ⟨hs ++ (gap ++ ms), .mk hhs hrange.2 (fun c hc => ?_) hms hrange.1, by simp⟩
      simpa using hgap c hc
    · cases h
  · intro xs n rest h _
    obtain ⟨hhs, hhours, hgap, hms, hminutes⟩ := h
    rename_i hours minutes hs gap ms
    have hgap' : ∀ c ∈ gap, (c == ':' || isBlank c) = true := fun c hc => by
      simpa using hgap c hc
    simp only [offsetMinutes?, Option.bind_eq_bind, List.append_assoc,
      takes_two.complete hhs (stops_nothing _), Option.bind_some,
      dropWhile_append_of_head hgap' (hms.opens.stops rest),
      takes_two.complete hms (stops_nothing _)]
    exact if_pos ⟨hminutes, hhours⟩

theorem WritesZone.opens {offset : Int} {cs : List Char} (h : WritesZone offset cs) :
    Opens (fun c => isBlank c || (isDigit c || c == '.')) cs := by
  have hmark : (['Z', 'z'] ++ ['U', 'u'] ++ ['+'] ++ ['-', '\u2212']).all
      fun c => !(isBlank c || (isDigit c || c == '.')) := rfl
  simp only [List.all_append, Bool.and_eq_true, List.all_eq_true, Bool.not_eq_true',
    ← Bool.not_eq_true] at hmark
  obtain ⟨⟨⟨hzulu, hutc⟩, hahead⟩, hbehind⟩ := hmark
  cases h with
  | zulu hz => exact ⟨_, _, rfl, hzulu _ hz⟩
  | utc hu => exact ⟨_, _, rfl, hutc _ hu⟩
  | ahead => exact ⟨_, _, rfl, hahead '+' List.mem_cons_self⟩
  | behind hsign => exact ⟨_, _, rfl, hbehind _ hsign⟩

theorem stops_time_of_zone {offset : Int} {cs : List Char} (h : Padded (WritesZone offset) cs)
    (rest : List Char) : Stops (fun c => isDigit c || c == '.') (cs ++ rest) := by
  refine (h.opens (fun xs hxs => hxs.opens.mono fun c hc => by rw [hc, Bool.or_true]) ?_).stops rest
  intro b hb htime
  rw [Bool.or_eq_true, beq_iff_eq] at htime
  obtain hdigit | rfl := htime
  · exact not_isBlank_of_isDigit hdigit hb
  · exact absurd hb (by decide)

theorem takes_zone : Takes zone? WritesZone fun _ => false := by
  constructor
  · intro cs offset rest h
    unfold zone? at h
    split at h
    · obtain ⟨rfl, rfl⟩ := by simpa using h
      exact ⟨['Z'], .zulu (by simp), rfl⟩
    · obtain ⟨rfl, rfl⟩ := by simpa using h
      exact ⟨['z'], .zulu (by simp), rfl⟩
    · obtain ⟨ms, ⟨n, hms, rfl⟩, rfl⟩ := (takes_minutes.map Int.ofNat).sound h
      exact ⟨'+' :: ms, .ahead hms, rfl⟩
    · obtain ⟨ms, ⟨n, hms, rfl⟩, rfl⟩ := (takes_minutes.map fun n => -(n : Int)).sound h
      exact ⟨'-' :: ms, .behind (by simp) hms, rfl⟩
    · obtain ⟨ms, ⟨n, hms, rfl⟩, rfl⟩ := (takes_minutes.map fun n => -(n : Int)).sound h
      exact ⟨'\u2212' :: ms, .behind (by simp) hms, rfl⟩
    · rename_i u t c rest' _ _ _ _ _
      split at h
      · rename_i hutc
        obtain ⟨rfl, rfl⟩ := by simpa using h
        obtain ⟨⟨hu, ht⟩, hc⟩ := by simpa using hutc
        exact ⟨[u, t, c], .utc (by simpa using hu) (by simpa using ht) (by simpa using hc), rfl⟩
      · cases h
    · cases h
  · intro xs offset rest h _
    cases h with
    | zulu hz =>
      obtain rfl | rfl := by simpa using hz
      · rfl
      · rfl
    | utc hu ht hc =>
      simp only [List.mem_cons, List.not_mem_nil, or_false] at hu ht hc
      obtain rfl | rfl := hu <;> obtain rfl | rfl := ht <;> obtain rfl | rfl := hc <;> rfl
    | ahead hms =>
      rw [List.cons_append, zone?]
      exact (takes_minutes.map Int.ofNat).complete ⟨_, hms, rfl⟩ (stops_nothing rest)
    | behind hsign hms =>
      obtain rfl | rfl := by simpa using hsign
      · rw [List.cons_append, zone?]
        exact (takes_minutes.map fun n => -(n : Int)).complete ⟨_, hms, rfl⟩ (stops_nothing rest)
      · rw [List.cons_append, zone?]
        exact (takes_minutes.map fun n => -(n : Int)).complete ⟨_, hms, rfl⟩ (stops_nothing rest)

end LedgerClient.Timestamp

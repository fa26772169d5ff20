import ReleaseKeeper.Proofs.Readers
import ReleaseKeeper.Timestamp

/-!
# Points in time survive writing

What `precise` writes is read back as the same point in time (`read_precise`), and what is read from
any text is a point of the calendar (`valid_of_read`), so a time that was stored once can be stored
again. Reading what was written goes reader by reader: each takes exactly what was written for it
and leaves the rest. What a reader can answer with is told by `Gives`, whatever it takes.
-/
namespace ReleaseKeeper

/-! ## Digits -/

theorem isDigit_bounds {c : Char} (h : c.isDigit = true) : '0' ≤ c ∧ c ≤ '9' := by
  simpa [Char.isDigit, Char.le_def] using h

theorem isDigit_value_lt {c : Char} (h : c.isDigit = true) : c.toNat - '0'.toNat < 10 := by
  have hnine : c.toNat ≤ '9'.toNat := (isDigit_bounds h).2
  exact Nat.lt_succ_of_le (Nat.sub_le_of_le_add hnine)

theorem digitValue?_of_isDigit {c : Char} (h : c.isDigit = true) :
    digitValue? 10 c = some (c.toNat - '0'.toNat) := by
  simp only [digitValue?]
  rw [if_pos (isDigit_bounds h), if_pos (isDigit_value_lt h)]

/-- Digits are read as the number that they denote. -/
theorem readNat?_eq_some {ds : List Char} (hne : ds ≠ []) (h : ∀ c ∈ ds, c.isDigit = true) :
    readNat? 10 ds = some (Nat.ofDigitChars 10 ds 0) := by
  have hfold : ∀ (ds : List Char) (n : Nat), (∀ c ∈ ds, c.isDigit = true) →
      ds.foldlM (fun n c => (digitValue? 10 c).map (10 * n + ·)) n =
        some (Nat.ofDigitChars 10 ds n) := by
    intro ds
    induction ds with
    | nil => exact fun _ _ => rfl
    | cons c ds ih =>
      intro n h
      obtain ⟨hc, hds⟩ := List.forall_mem_cons.1 h
      rw [List.foldlM_cons, digitValue?_of_isDigit hc]
      exact ih _ hds
  cases ds with
  | nil => exact absurd rfl hne
  | cons c ds => exact hfold (c :: ds) 0 h

namespace Timestamp

theorem isDigit_padded {width n : Nat} : ∀ c ∈ padded width n, c.isDigit = true := by
  intro c hc
  rcases List.mem_append.1 hc with hc | hc
  · rw [List.eq_of_mem_replicate hc]
    rfl
  · exact Nat.isDigit_of_mem_toDigits (by decide) (by decide) hc

theorem padded_ne_nil (width n : Nat) : padded width n ≠ [] := by
  simp [padded, Nat.toDigits_ne_nil]

theorem value_padded (width n : Nat) : Nat.ofDigitChars 10 (padded width n) 0 = n := by
  have hzeros : ∀ k, Nat.ofDigitChars 10 (List.replicate k '0') 0 = 0 := by
    intro k
    induction k with
    | zero => rfl
    | succ k ih => exact ih
  rw [padded, Nat.ofDigitChars_append, hzeros, Nat.ofDigitChars_toDigits (by decide) (by decide)]

theorem length_padded {width n : Nat} (hwidth : 0 < width) (h : n < tenTo width) :
    (padded width n).length = width := by
  have hle : (Nat.toDigits 10 n).length ≤ width :=
    (Nat.length_toDigits_le_iff (by decide) hwidth).2 h
  rw [padded, List.length_append, List.length_replicate]
  omega

/-! ## The calendar -/

/-- A date of the calendar. -/
structure Dated (t : Timestamp) : Prop where
  month : 1 ≤ t.month ∧ t.month ≤ 12
  day : 1 ≤ t.day ∧ t.day ≤ daysIn t.year t.month

/-- A time of day; a minute may have a second more. -/
structure Timed (t : Timestamp) : Prop where
  hour : t.hour ≤ 23
  minute : t.minute ≤ 59
  second : t.second ≤ 60
  nanos : t.nanos < 1000000000

/-- A point in time that the calendar goes as far as. -/
structure Valid (t : Timestamp) : Prop where
  told : isTold t.year = true
  dated : t.Dated
  timed : t.Timed

variable {t : Timestamp}

theorem le_daysIn (year : Int) (month : Nat) : 28 ≤ daysIn year month := by
  rw [daysIn]
  split
  · split <;> omega
  · split <;> omega

theorem daysIn_le (year : Int) (month : Nat) : daysIn year month ≤ 31 := by
  rw [daysIn]
  split
  · split <;> omega
  · split <;> omega

theorem dated_nextDay (h : t.Dated) : t.nextDay.Dated := by
  have hfirst : ∀ year month, 1 ≤ daysIn year month := fun year month =>
    Nat.le_trans (by decide) (le_daysIn year month)
  rw [nextDay]
  split
  · next hday => exact ⟨h.month, Nat.le_add_left _ _, hday⟩
  · split
    · next hmonth => exact ⟨⟨Nat.le_add_left _ _, hmonth⟩, Nat.le_refl 1, hfirst _ _⟩
    · exact ⟨⟨Nat.le_refl 1, (by decide : 1 ≤ 12)⟩, Nat.le_refl 1, hfirst _ _⟩

theorem dated_previousDay (h : t.Dated) : t.previousDay.Dated := by
  obtain ⟨⟨hfrom, hto⟩, hstart, hend⟩ := h
  rw [previousDay]
  split
  · next hday => exact ⟨⟨hfrom, hto⟩, Nat.le_sub_of_add_le hday, Nat.le_trans (Nat.sub_le _ _) hend⟩
  · split
    · next hmonth =>
      refine ⟨⟨Nat.le_sub_of_add_le hmonth, Nat.le_trans (Nat.sub_le _ _) hto⟩, ?_, Nat.le_refl _⟩
      exact Nat.le_trans (by decide) (le_daysIn t.year (t.month - 1))
    · exact ⟨⟨(by decide : 1 ≤ 12), Nat.le_refl 12⟩, (by decide : 1 ≤ 31), Nat.le_refl 31⟩

theorem timed_nextDay (h : t.Timed) : t.nextDay.Timed := by
  rw [nextDay]
  split
  · exact ⟨h.hour, h.minute, h.second, h.nanos⟩
  · split <;> exact ⟨h.hour, h.minute, h.second, h.nanos⟩

theorem timed_previousDay (h : t.Timed) : t.previousDay.Timed := by
  rw [previousDay]
  split
  · exact ⟨h.hour, h.minute, h.second, h.nanos⟩
  · split <;> exact ⟨h.hour, h.minute, h.second, h.nanos⟩

/-- A shift by an offset leaves a date of the calendar and a time of day. -/
theorem behind_spec (hdated : t.Dated) (htimed : t.Timed) (minutes : Int) :
    (t.behind minutes).Dated ∧ (t.behind minutes).Timed := by
  rw [behind]
  generalize ((t.hour * 60 + t.minute : Nat) : Int) - minutes = total
  have hclock : ({ t with
      hour := (total % 1440 / 60).toNat
      minute := (total % 1440 % 60).toNat } : Timestamp).Timed :=
    ⟨by dsimp only; omega, by dsimp only; omega, htimed.second, htimed.nanos⟩
  have hdate : ({ t with
      hour := (total % 1440 / 60).toNat
      minute := (total % 1440 % 60).toNat } : Timestamp).Dated := ⟨hdated.month, hdated.day⟩
  split
  · exact ⟨dated_previousDay hdate, timed_previousDay hclock⟩
  · split
    · exact ⟨dated_nextDay hdate, timed_nextDay hclock⟩
    · exact ⟨hdate, hclock⟩

theorem behind_zero (h : t.Timed) : t.behind 0 = t := by
  obtain ⟨hhour, hminute, -, -⟩ := h
  have hlow : ¬ ((t.hour * 60 + t.minute : Nat) : Int) - 0 < 0 := by omega
  have hhigh : ¬ 1440 ≤ ((t.hour * 60 + t.minute : Nat) : Int) - 0 := by omega
  have hback : (((t.hour * 60 + t.minute : Nat) : Int) - 0) % 1440 = t.hour * 60 + t.minute := by
    omega
  simp only [behind, hback, if_neg hlow, if_neg hhigh]
  have hsame : ((t.hour : Int) * 60 + t.minute) / 60 = t.hour ∧
      ((t.hour : Int) * 60 + t.minute) % 60 = t.minute := by omega
  rw [hsame.1, hsame.2]
  rfl

/-! ## Reading what was written -/

/-- What follows a number: no further digit. -/
def Stops (rest : List Char) : Prop := ∀ c ∈ rest.head?, c.isDigit = false

variable {cs ds rest : List Char} {c : Char}

theorem not_isWhitespace_of_isDigit (h : c.isDigit = true) : c.isWhitespace = false := by
  have hlow : '0'.toNat ≤ c.toNat := (isDigit_bounds h).1
  have hne : ∀ d : Char, d.toNat < '0'.toNat → c ≠ d := by
    rintro d hd rfl
    omega
  simp [Char.isWhitespace, hne]

theorem skipBlanks_run (h : c.isWhitespace = false) :
    skipBlanks.run (c :: rest) = .ok ((), c :: rest) := by
  change Except.ok ((), (c :: rest).dropWhile Char.isWhitespace) = _
  rw [List.dropWhile_cons_of_neg (by simp [h])]

theorem literal_run (h : c.isWhitespace = false) :
    (literal c).run (c :: rest) = .ok ((), rest) := by
  rw [literal, run_bind (skipBlanks_run h)]
  change (if c = c then set rest else throw .invalid : Reader Unit).run (c :: rest) = _
  rw [if_pos rfl]
  rfl

theorem number_run {width : Nat} (hne : ds ≠ []) (hds : ∀ c ∈ ds, c.isDigit = true)
    (hwidth : ds.length ≤ width) (hrest : ds.length = width ∨ Stops rest) :
    (number width).run (ds ++ rest) = .ok (Nat.ofDigitChars 10 ds 0, rest) := by
  have htake : ((ds ++ rest).take width).takeWhile Char.isDigit = ds := by
    rw [List.take_append, List.take_of_length_le hwidth, List.takeWhile_append_of_pos hds]
    suffices h : (rest.take (width - ds.length)).takeWhile Char.isDigit = [] by
      rw [h, List.append_nil]
    cases rest with
    | nil => simp
    | cons c rest =>
      cases hk : width - ds.length with
      | zero => rfl
      | succ k =>
        have hc : c.isDigit = false := by
          rcases hrest with hfull | hstop
          · omega
          · exact hstop c rfl
        rw [List.take_succ_cons, List.takeWhile_cons_of_neg (by simp [hc])]
  have hempty : (ds ++ rest).isEmpty = false := by
    cases ds with
    | nil => exact absurd rfl hne
    | cons => rfl
  change (if (ds ++ rest).isEmpty then _ else _ : Reader Nat).run (ds ++ rest) = _
  rw [hempty, if_neg Bool.false_ne_true]
  simp only [htake, readNat?_eq_some hne hds]
  change Except.ok (_, (ds ++ rest).drop ds.length) = _
  rw [List.drop_left]

theorem padded_run {width n : Nat} (hwidth : 0 < width) (hn : n < tenTo width) :
    (number width).run (padded width n ++ rest) = .ok (n, rest) := by
  have hlength := length_padded hwidth hn
  rw [number_run (padded_ne_nil width n) isDigit_padded (Nat.le_of_eq hlength) (.inl hlength),
    value_padded]

/-- The first character of a number is a digit. -/
theorem padded_eq_cons (width n : Nat) :
    ∃ c ds, padded width n = c :: ds ∧ c.isDigit = true := by
  cases h : padded width n with
  | nil => exact absurd h (padded_ne_nil width n)
  | cons c ds => exact ⟨c, ds, rfl, isDigit_padded c (h ▸ List.mem_cons_self)⟩

theorem bounded_run {low high n : Nat} (hlow : low ≤ n) (hhigh : n ≤ high) (hn : n < 100) :
    (bounded low high).run (padded 2 n ++ rest) = .ok (n, rest) := by
  obtain ⟨c, ds, hpadded, hc⟩ := padded_eq_cons 2 n
  have hskip : skipBlanks.run (padded 2 n ++ rest) = .ok ((), padded 2 n ++ rest) := by
    rw [hpadded, List.cons_append, skipBlanks_run (not_isWhitespace_of_isDigit hc)]
  rw [bounded, run_bind hskip, run_bind (padded_run (by decide) hn), if_pos ⟨hlow, hhigh⟩]
  rfl

/-- A year without a sign. -/
theorem readYear_digit {n : Nat} (hc : c.isDigit = true)
    (h : (number 4).run (c :: cs) = .ok (n, rest)) : readYear.run (c :: cs) = .ok ((n : Int), rest) := by
  have hminus : c ≠ '-' := by rintro rfl; cases hc
  have hplus : c ≠ '+' := by rintro rfl; cases hc
  rw [readYear, run_bind (skipBlanks_run (not_isWhitespace_of_isDigit hc)), run_bind (r := get) rfl]
  split
  · next heq => exact absurd (List.cons.inj heq).1 hminus
  · next heq => exact absurd (List.cons.inj heq).1 hplus
  · rw [run_bind h]
    rfl

theorem readYear_run {year : Int} (hrest : Stops rest) :
    readYear.run (writeYear year ++ rest) = .ok (year, rest) := by
  rw [writeYear]
  split
  · next hyear =>
    obtain ⟨c, ds, hpadded, hc⟩ := padded_eq_cons 4 year.toNat
    have hlow : year.toNat < 10000 := by omega
    have hnumber : (number 4).run (padded 4 year.toNat ++ rest) = .ok (year.toNat, rest) :=
      padded_run (by decide) hlow
    rw [hpadded, List.cons_append] at hnumber ⊢
    rw [readYear_digit hc hnumber, Int.toNat_of_nonneg hyear.1]
  · have hnumber : (number (padded 4 year.natAbs ++ rest).length).run
        (padded 4 year.natAbs ++ rest) = .ok (year.natAbs, rest) := by
      rw [number_run (padded_ne_nil _ _) isDigit_padded (by simp) (.inr hrest), value_padded]
    split
    · next hneg =>
      rw [readYear, List.cons_append, run_bind (skipBlanks_run (by decide))]
      change (number _ >>= fun n => (pure (-(n : Int)) : Reader Int)).run _ = _
      rw [run_bind hnumber]
      have hsame : -(year.natAbs : Int) = year := by omega
      rw [hsame]
      rfl
    · next hpos =>
      rw [readYear, List.cons_append, run_bind (skipBlanks_run (by decide))]
      change (number _ >>= fun n => (pure (n : Int) : Reader Int)).run _ = _
      rw [run_bind hnumber]
      have hsame : (year.natAbs : Int) = year := by omega
      rw [hsame]
      rfl

/-- Places are read as many billionths as they stand for. -/
theorem readPlaces_padded {width n : Nat} (hpos : 0 < width) (hwidth : width ≤ 9)
    (hn : n < tenTo width) (hrest : Stops rest) :
    readPlaces.run ('.' :: padded width n ++ rest) = .ok (n * tenTo (9 - width), rest) := by
  have hlength := length_padded hpos hn
  have hnumber : (number 9).run (padded width n ++ rest) = .ok (n, rest) := by
    rw [number_run (padded_ne_nil _ _) isDigit_padded (by omega) (.inr hrest), value_padded]
  have hdrop : rest.dropWhile Char.isDigit = rest := by
    cases rest with
    | nil => rfl
    | cons c rest => rw [List.dropWhile_cons_of_neg (by simp [hrest c rfl])]
  have htaken : (padded width n ++ rest).length - rest.length = width := by
    rw [List.length_append, hlength]
    omega
  change (number 9 >>= fun m => (do
    let left ← get
    modify fun cs => cs.dropWhile Char.isDigit
    return m * tenTo (9 - ((padded width n ++ rest).length - left.length)) : Reader Nat)).run
      (padded width n ++ rest) = _
  rw [run_bind hnumber]
  change Except.ok (n * tenTo (9 - ((padded width n ++ rest).length - rest.length)),
    rest.dropWhile Char.isDigit) = _
  rw [hdrop, htaken]

theorem readPlaces_run {n : Nat} (hn : n < 1000000000) :
    readPlaces.run (writePlaces n ++ ['Z']) = .ok (n, ['Z']) := by
  have hstop : Stops ['Z'] := by rintro c ⟨⟩; rfl
  rw [writePlaces]
  split
  · next hzero => rw [hzero]; rfl
  · split
    · have hlow : n / 1000000 < 1000 := by omega
      have hsame : n / 1000000 * tenTo (9 - 3) = n := Nat.div_mul_cancel (by omega)
      rw [readPlaces_padded (by decide) (by decide) hlow hstop, hsame]
    · split
      · have hlow : n / 1000 < 1000000 := by omega
        have hsame : n / 1000 * tenTo (9 - 6) = n := Nat.div_mul_cancel (by omega)
        rw [readPlaces_padded (by decide) (by decide) hlow hstop, hsame]
      · have hsame : n * tenTo (9 - 9) = n := Nat.mul_one n
        rw [readPlaces_padded (by decide) (by decide) hn hstop, hsame]

theorem reader_run (h : t.Valid) :
    reader.run (t.writeSeconds ++ writePlaces t.nanos ++ ['Z']) = .ok (t, []) := by
  obtain ⟨htold, ⟨⟨hmonth, hmonth'⟩, hday, hday'⟩, htimed⟩ := h
  have hmost := daysIn_le t.year t.month
  obtain ⟨hhour, hminute, hsecond, hnanos⟩ := id htimed
  have hstop : ∀ cs, Stops ('-' :: cs) := by rintro cs c ⟨⟩; rfl
  have hresolve : resolve t 0 = .ok t := by
    rw [resolve, behind_zero htimed, if_neg (by simp [htold, hday']), if_pos htold]
  simp only [writeSeconds, List.append_assoc, List.cons_append]
  rw [reader, run_bind (readYear_run (hstop _)), run_bind (literal_run (by decide)),
    run_bind (bounded_run hmonth hmonth' (by omega)), run_bind (literal_run (by decide)),
    run_bind (bounded_run hday (by omega) (by omega))]
  change StateT.run _ _ = _
  rw [run_bind (r := separator) rfl, run_bind (bounded_run (Nat.zero_le _) hhour (by omega)),
    run_bind (literal_run (by decide)), run_bind (bounded_run (Nat.zero_le _) hminute (by omega)),
    run_bind (literal_run (by decide)), run_bind (bounded_run (Nat.zero_le _) hsecond (by omega)),
    run_bind (readPlaces_run hnanos)]
  change Except.bind (resolve t 0) _ = _
  rw [hresolve]
  rfl

/-- **What was written is read.** -/
theorem read_precise (h : t.Valid) : read t.precise = .ok t := by
  change Prod.fst <$> reader.run (String.ofList _).toList = _
  rw [String.toList_ofList, reader_run h]
  rfl

/-! ## What is read from any text -/

theorem gives_bounded (low high : Nat) : Gives (bounded low high) fun n => low ≤ n ∧ n ≤ high := by
  refine gives_bind (gives_any skipBlanks) fun _ _ => gives_bind (gives_any (number 2)) fun n _ => ?_
  intro cs x rest h
  split at h
  · next hbounds =>
    obtain ⟨rfl, -⟩ := Prod.mk.inj (Except.ok.inj h)
    exact hbounds
  · cases h

/-- So many digits denote no greater number. -/
theorem ofDigitChars_lt (h : ∀ c ∈ ds, c.isDigit = true) :
    Nat.ofDigitChars 10 ds 0 < tenTo ds.length := by
  have hfold : ∀ (ds : List Char) (n : Nat), (∀ c ∈ ds, c.isDigit = true) →
      Nat.ofDigitChars 10 ds n < (n + 1) * tenTo ds.length := by
    intro ds
    induction ds with
    | nil => intro n _; simp [Nat.ofDigitChars]
    | cons c ds ih =>
      intro n h
      obtain ⟨hc, hds⟩ := List.forall_mem_cons.1 h
      have hdigit := isDigit_value_lt hc
      calc Nat.ofDigitChars 10 ds (10 * n + (c.toNat - '0'.toNat))
          < (10 * n + (c.toNat - '0'.toNat) + 1) * tenTo ds.length := ih _ hds
        _ ≤ (n + 1) * 10 * tenTo ds.length := Nat.mul_le_mul_right _ (by omega)
        _ = (n + 1) * tenTo (c :: ds).length := by
          rw [Nat.mul_assoc, Nat.mul_comm 10]
          rfl
  simpa using hfold ds 0 h

/-- A number is taken with its digits. -/
theorem digits_of_number {width n : Nat} (h : (number width).run cs = .ok (n, rest)) :
    ∃ ds, cs = ds ++ rest ∧ ds.length ≤ width ∧ n < tenTo ds.length := by
  change (if cs.isEmpty then _ else _ : Reader Nat).run cs = _ at h
  split at h
  · cases h
  · refine ⟨(cs.take width).takeWhile Char.isDigit, ?_⟩
    have hdigits : ∀ c ∈ (cs.take width).takeWhile Char.isDigit, c.isDigit = true :=
      List.all_eq_true.1 List.all_takeWhile
    have hbegins : (cs.take width).takeWhile Char.isDigit <+: cs :=
      (List.takeWhile_prefix _).trans (List.take_prefix _ _)
    cases hread : readNat? 10 ((cs.take width).takeWhile Char.isDigit) with
    | none => simp only [hread] at h; cases h
    | some m =>
      simp only [hread] at h
      have hne : (cs.take width).takeWhile Char.isDigit ≠ [] := by
        intro hnil
        rw [hnil] at hread
        cases hread
      obtain ⟨rfl, rfl⟩ := Prod.mk.inj (Except.ok.inj h)
      obtain rfl := Option.some.inj ((readNat?_eq_some hne hdigits).symm.trans hread)
      refine ⟨?_, ?_, ofDigitChars_lt hdigits⟩
      · exact (List.prefix_iff_eq_append.1 hbegins).symm
      · exact Nat.le_trans (List.takeWhile_prefix _).length_le (List.length_take_le _ _)

theorem gives_readPlaces : Gives readPlaces fun n => n < 1000000000 := by
  intro cs x rest h
  rw [readPlaces, run_bind (r := get) rfl] at h
  split at h
  · next rest' =>
    change (number 9 >>= fun m => (do
      let left ← get
      modify fun cs => cs.dropWhile Char.isDigit
      return m * tenTo (9 - (rest'.length - left.length)) : Reader Nat)).run rest' = _ at h
    cases hrun : (number 9).run rest' with
    | error e =>
      rw [StateT.run_bind, hrun] at h
      cases h
    | ok taken =>
      obtain ⟨n, left⟩ := taken
      rw [run_bind hrun] at h
      obtain ⟨rfl, -⟩ := Prod.mk.inj (Except.ok.inj h)
      obtain ⟨ds, rfl, hwidth, hn⟩ := digits_of_number hrun
      have hlength : (ds ++ left).length - left.length = ds.length := by
        rw [List.length_append]
        omega
      calc n * tenTo (9 - ((ds ++ left).length - left.length))
          < tenTo ds.length * tenTo (9 - ds.length) := by
            rw [hlength]
            exact Nat.mul_lt_mul_of_pos_right hn (Nat.pow_pos (by decide))
        _ = tenTo (ds.length + (9 - ds.length)) := (Nat.pow_add 10 _ _).symm
        _ = 1000000000 := by rw [Nat.add_sub_of_le hwidth]
  · obtain ⟨rfl, -⟩ := Prod.mk.inj (Except.ok.inj h)
    decide

theorem valid_of_resolve {offset : Int} {u : Timestamp} (hmonth : 1 ≤ t.month ∧ t.month ≤ 12)
    (hday : 1 ≤ t.day) (htimed : t.Timed) (h : resolve t offset = .ok u) : u.Valid := by
  rw [resolve] at h
  split at h
  · cases h
  · next hdate =>
    have hdated : t.Dated := ⟨hmonth, hday, Nat.le_of_not_lt fun hlate => hdate (.inl hlate)⟩
    split at h
    · next htold =>
      obtain rfl := Except.ok.inj h
      obtain ⟨hdated, htimed⟩ := behind_spec hdated htimed offset
      exact ⟨htold, hdated, htimed⟩
    · cases h

theorem gives_reader : Gives reader Valid := by
  refine gives_bind (gives_any readYear) fun year _ => ?_
  refine gives_bind (gives_any (literal '-')) fun _ _ => ?_
  refine gives_bind (gives_bounded 1 12) fun month hmonth => ?_
  refine gives_bind (gives_any (literal '-')) fun _ _ => ?_
  refine gives_bind (gives_bounded 1 31) fun day hday => ?_
  refine gives_bind (gives_any separator) fun _ _ => ?_
  refine gives_bind (gives_bounded 0 23) fun hour hhour => ?_
  refine gives_bind (gives_any (literal ':')) fun _ _ => ?_
  refine gives_bind (gives_bounded 0 59) fun minute hminute => ?_
  refine gives_bind (gives_any (literal ':')) fun _ _ => ?_
  refine gives_bind (gives_bounded 0 60) fun second hsecond => ?_
  refine gives_bind gives_readPlaces fun nanos hnanos => ?_
  refine gives_bind (gives_any ongoing) fun _ _ => ?_
  refine gives_bind (gives_any readOffset) fun offset _ => ?_
  refine gives_bind (gives_any ending) fun _ _ => ?_
  exact gives_lift fun t => valid_of_resolve hmonth hday.1
    ⟨hhour.2, hminute.2, hsecond.2, hnanos⟩

/-- **What is read is a point of the calendar.** -/
theorem valid_of_read {text : String} (h : read text = .ok t) : t.Valid := by
  obtain ⟨⟨_, rest⟩, hrun, hend⟩ := bind_eq_ok.1 h
  obtain rfl := Except.ok.inj hend
  exact gives_reader _ _ _ hrun

end Timestamp

end ReleaseKeeper

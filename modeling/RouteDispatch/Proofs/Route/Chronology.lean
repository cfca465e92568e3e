import Mathlib.Data.List.Induction
import Mathlib.Tactic.IntervalCases
import RouteDispatch.Proofs.Route.Pieces
import RouteDispatch.Route.Version

/-!
# Versions in the order of time

A name has a version by its form alone: a text, an underscore, and a date in three groups of digits.
A date of the Gregorian calendar from 1970 on gives the number that its digits spell, any other
groups of digits are refused, and a name that has not the form has version zero.  As numbers,
versions stand in the order of the days that they name.
-/

namespace RouteDispatch

namespace Date

/-! ## The calendar -/

/-- Every fourth year is a leap year, but of the full centuries only every fourth one. -/
def IsLeap (year : Nat) : Prop :=
  4 ∣ year ∧ (100 ∣ year → 400 ∣ year)

instance (year : Nat) : Decidable (IsLeap year) :=
  inferInstanceAs (Decidable (_ ∧ _))

def monthLengths (year : Nat) : List Nat :=
  [31, if IsLeap year then 29 else 28, 31, 30, 31, 30, 31, 31, 30, 31, 30, 31]

/-- The date is one of the Gregorian calendar, which is carried on into the past. -/
def IsGregorian (d : Date) : Prop :=
  1 ≤ d.month ∧ d.month ≤ 12 ∧ 1 ≤ d.day ∧ d.day ≤ (monthLengths d.year).getD (d.month - 1) 0

instance (d : Date) : Decidable d.IsGregorian :=
  inferInstanceAs (Decidable (_ ∧ _))

/-- The position of the day in time, counted from the start of year zero. -/
def dayNumber (d : Date) : Nat :=
  ((List.range d.year).map fun year => (monthLengths year).sum).sum +
    ((monthLengths d.year).take (d.month - 1)).sum + d.day

theorem isLeapYear_iff (year : Nat) : isLeapYear year = true ↔ IsLeap year := by
  simp only [isLeapYear, IsLeap, Bool.or_eq_true, Bool.and_eq_true, beq_iff_eq, bne_iff_ne]
  omega

theorem daysInMonth_eq {month : Nat} (hfirst : 1 ≤ month) (hlast : month ≤ 12) (year : Nat) :
    daysInMonth year month = (monthLengths year).getD (month - 1) 0 := by
  have hleap := isLeapYear_iff year
  interval_cases month <;> simp [daysInMonth, monthLengths, hleap]

theorem isReal_iff (d : Date) :
    d.isReal = true ↔ (1970 ≤ d.year ∧ d.IsGregorian) ∧ d.year ≤ 9999 := by
  simp only [isReal, IsGregorian, Bool.and_eq_true, decide_eq_true_eq]
  constructor
  · rintro ⟨⟨⟨⟨⟨hyear, hwide⟩, hfirst⟩, hlast⟩, hday⟩, hlength⟩
    rw [daysInMonth_eq hfirst hlast] at hlength
    exact ⟨⟨hyear, hfirst, hlast, hday, hlength⟩, hwide⟩
  · rintro ⟨⟨hyear, hfirst, hlast, hday, hlength⟩, hwide⟩
    rw [← daysInMonth_eq hfirst hlast] at hlength
    exact ⟨⟨⟨⟨⟨hyear, hwide⟩, hfirst⟩, hlast⟩, hday⟩, hlength⟩

/-! ## The order of time -/

/-- The one date is in an earlier year, or earlier in the same year. -/
def Precedes (a b : Date) : Prop :=
  a.year < b.year ∨
    (a.year = b.year ∧ (a.month < b.month ∨ (a.month = b.month ∧ a.day < b.day)))

theorem precedes_trichotomy (a b : Date) : a.Precedes b ∨ a = b ∨ b.Precedes a := by
  obtain ⟨y, m, d⟩ := a
  obtain ⟨y', m', d'⟩ := b
  simp only [Precedes, mk.injEq]
  omega

theorem sum_le_sum_of_prefix {l l' : List Nat} (h : l <+: l') : l.sum ≤ l'.sum := by
  obtain ⟨more, rfl⟩ := h
  rw [List.sum_append]
  exact Nat.le_add_right _ _

theorem IsGregorian.day_le {d : Date} (h : d.IsGregorian) : d.day ≤ 31 := by
  obtain ⟨hfirst, hlast, -, hday⟩ := h
  refine Nat.le_trans hday ?_
  rw [← daysInMonth_eq hfirst hlast]
  unfold daysInMonth
  split
  · split <;> decide
  · split <;> decide

/-- A day of a month comes before the end of the month. -/
theorem IsGregorian.days_le
    {d : Date} (h : d.IsGregorian) :
    ((monthLengths d.year).take (d.month - 1)).sum + d.day ≤
      ((monthLengths d.year).take d.month).sum := by
  obtain ⟨hfirst, hlast, -, hday⟩ := h
  obtain ⟨earlier, hmonth⟩ : ∃ earlier, d.month = earlier + 1 := ⟨d.month - 1, by omega⟩
  have hlt : earlier < (monthLengths d.year).length := by
    rw [monthLengths]
    simp only [List.length_cons, List.length_nil]
    omega
  rw [hmonth, Nat.add_sub_cancel] at hday ⊢
  rw [List.take_add_one, List.getElem?_eq_getElem hlt, List.sum_append, Option.toList_some,
    List.sum_singleton]
  rw [← List.getElem_eq_getD (h := hlt)] at hday
  exact Nat.add_le_add_left hday _

theorem dayNumber_lt_of_precedes
    {a b : Date} (ha : a.IsGregorian) (hb : b.IsGregorian) (h : a.Precedes b) :
    a.dayNumber < b.dayNumber := by
  have hmonths := ha.days_le
  have hday : 1 ≤ b.day := hb.2.2.1
  unfold dayNumber
  rcases h with hyear | ⟨hyear, hmonth | ⟨hmonth, hbefore⟩⟩
  · have hall := sum_le_sum_of_prefix (List.take_prefix a.month (monthLengths a.year))
    have hrange : (List.range b.year).take (a.year + 1) = List.range (a.year + 1) :=
      List.take_range.trans (congrArg List.range (Nat.min_eq_left hyear))
    have hyears := sum_le_sum_of_prefix
      ((List.take_prefix (a.year + 1) (List.range b.year)).map fun year => (monthLengths year).sum)
    rw [hrange] at hyears
    rw [List.range_succ, List.map_append, List.sum_append, List.map_singleton,
      List.sum_singleton] at hyears
    omega
  · rw [← hyear]
    have hearlier : ((monthLengths a.year).take a.month).sum ≤
        ((monthLengths a.year).take (b.month - 1)).sum :=
      sum_le_sum_of_prefix (List.take_prefix_take_left (by omega))
    omega
  · rw [← hyear, ← hmonth]
    omega

theorem version_lt_of_precedes
    {a b : Date} (ha : a.IsGregorian) (hb : b.IsGregorian) (h : a.Precedes b) :
    a.version < b.version := by
  have hdayA := ha.day_le
  obtain ⟨-, hmonthA, -, -⟩ := ha
  obtain ⟨hmonthB, -, hdayB, -⟩ := hb
  unfold version
  rcases h with hyear | ⟨hyear, hmonth | ⟨hmonth, hbefore⟩⟩
  · omega
  · omega
  · omega

/-- Versions are ordered as the days of their dates, and different dates have different versions. -/
theorem version_order
    {a b : Date} (ha : a.IsGregorian) (hb : b.IsGregorian) :
    (a.version < b.version ↔ a.dayNumber < b.dayNumber) ∧ (a.version = b.version ↔ a = b) := by
  rcases a.precedes_trichotomy b with hbefore | rfl | hbehind
  · have hversion := version_lt_of_precedes ha hb hbefore
    have hnumber := dayNumber_lt_of_precedes ha hb hbefore
    refine ⟨iff_of_true hversion hnumber, iff_of_false (Nat.ne_of_lt hversion) ?_⟩
    rintro rfl
    exact Nat.lt_irrefl _ hversion
  · exact ⟨iff_of_false (Nat.lt_irrefl _) (Nat.lt_irrefl _), iff_of_true rfl rfl⟩
  · have hversion := version_lt_of_precedes hb ha hbehind
    have hnumber := dayNumber_lt_of_precedes hb ha hbehind
    refine ⟨iff_of_false (Nat.lt_asymm hversion) (Nat.lt_asymm hnumber),
      iff_of_false (Nat.ne_of_gt hversion) ?_⟩
    rintro rfl
    exact Nat.lt_irrefl _ hversion

end Date

/-! ## Dated names -/

/-- The text is a group of ASCII digits. -/
def IsGroup (width : Nat) (text : String) : Prop :=
  text.toList.length = width ∧ ∀ c ∈ text.toList, c.isDigit = true

instance (width : Nat) (text : String) : Decidable (IsGroup width text) :=
  @instDecidableAnd _ _ _ (List.decidableBAll _ text.toList)

/-- The number that a group of digits spells. -/
def groupValue (text : String) : Nat :=
  Nat.ofDigitChars 10 text.toList 0

/-- The name is some text and a date in three groups of digits, which are its suffix. -/
inductive IsDated : String → Date → String → Prop
  | intro {base year month day : String} (hbase : base ≠ "") (hyear : IsGroup 4 year)
    (hmonth : IsGroup 2 month) (hday : IsGroup 2 day) :
    IsDated (base ++ "_" ++ year ++ "_" ++ month ++ "_" ++ day)
      ⟨groupValue year, groupValue month, groupValue day⟩
      (year ++ "_" ++ month ++ "_" ++ day)

theorem groupValue_lt {width : Nat} {text : String} (h : IsGroup width text) :
    groupValue text < Nat.pow 10 width := by
  obtain ⟨hlength, hdigits⟩ := h
  unfold groupValue
  generalize text.toList = cs at hlength hdigits
  induction cs using List.reverseRecOn generalizing width with
  | nil =>
      obtain rfl : width = 0 := hlength.symm
      exact Nat.le_refl 1
  | append_singleton cs c ih =>
      obtain rfl : width = cs.length + 1 := by simpa using hlength.symm
      have hfront := ih rfl fun d hd => hdigits d (List.mem_append_left _ hd)
      have hlast : c.toNat ≤ 57 := by
        have hc := hdigits c (by simp)
        simp only [Char.isDigit, Bool.and_eq_true, decide_eq_true_eq] at hc
        exact hc.2
      rw [Nat.ofDigitChars_append, Nat.ofDigitChars_cons, Nat.ofDigitChars_nil]
      change _ ≤ Nat.pow 10 cs.length * 10
      have hzero : '0'.toNat = 48 := rfl
      omega

theorem digitGroup?_eq_some_iff
    {width : Nat} (hwidth : 0 < width) {cs : List Char} {n : Nat} :
    digitGroup? width cs = some n ↔
      IsGroup width (String.ofList cs) ∧ n = groupValue (String.ofList cs) := by
  have hvalue : Decimal.ofDigits cs = groupValue (String.ofList cs) := by
    rw [groupValue, String.toList_ofList]
    rfl
  have hdigits : cs.all Decimal.isDigit = true ↔ ∀ c ∈ cs, c.isDigit = true := List.all_eq_true
  unfold digitGroup? Decimal.natural? IsGroup
  rw [String.toList_ofList, hvalue]
  by_cases hlength : cs.length = width
  · have hne : cs.isEmpty = false := by
      cases cs with
      | nil => exact absurd hlength (Nat.ne_of_lt hwidth)
      | cons c cs => rfl
    rw [if_pos hlength, hne, Bool.not_false, Bool.true_and]
    by_cases hall : cs.all Decimal.isDigit = true
    · rw [if_pos hall, Option.some.injEq]
      exact ⟨fun h => ⟨⟨hlength, hdigits.mp hall⟩, h.symm⟩, fun h => h.2.symm⟩
    · rw [if_neg hall]
      exact ⟨nofun, fun h => absurd (hdigits.mpr h.1.2) hall⟩
  · rw [if_neg hlength]
    exact ⟨nofun, fun h => absurd h.1.1 hlength⟩

theorem IsGroup.digitGroup? {width : Nat} {text : String} (h : IsGroup width text)
    (hwidth : 0 < width) : digitGroup? width text.toList = some (groupValue text) := by
  rw [digitGroup?_eq_some_iff hwidth, String.ofList_toList]
  exact ⟨h, rfl⟩

/-- A group of digits is one field of a name. -/
theorem IsGroup.ne_underscore {width : Nat} {text : String} (h : IsGroup width text) :
    ∀ c ∈ text.toList, (c == '_') = false := by
  intro c hc
  have hdigit := h.2 c hc
  rw [beq_eq_false_iff_ne]
  rintro rfl
  simp [Char.isDigit] at hdigit

namespace DatedName

/-- The date of a name is read behind the third underscore from the end. -/
theorem ofName?_fields
    {year month day : List Char} (hyear : ∀ c ∈ year, (c == '_') = false)
    (hmonth : ∀ c ∈ month, (c == '_') = false) (hday : ∀ c ∈ day, (c == '_') = false)
    (base : List Char) :
    ofName? (base ++ '_' :: (year ++ '_' :: (month ++ '_' :: day))) =
      if base.isEmpty then none
      else (do
        let y ← digitGroup? 4 year
        let m ← digitGroup? 2 month
        let d ← digitGroup? 2 day
        pure ⟨base, ⟨y, m, d⟩, Text.join '_' [year, month, day]⟩) := by
  have hfields : Text.split (· == '_') (base ++ '_' :: (year ++ '_' :: (month ++ '_' :: day))) =
      Text.split (· == '_') base ++ [year, month, day] := by
    rw [Text.split_append_cons rfl, Text.split_append_of_forall hyear rfl,
      Text.split_append_of_forall hmonth rfl, Text.split_eq_singleton hday]
  unfold ofName?
  rw [hfields, List.reverse_append]
  simp only [List.reverse_cons, List.reverse_nil, List.nil_append, List.cons_append,
    List.reverse_reverse, Text.join_split]

theorem exists_of_ofName? {name : List Char} {dated : DatedName}
    (h : ofName? name = some dated) :
    ∃ base year month day, name = base ++ '_' :: (year ++ '_' :: (month ++ '_' :: day)) ∧
      (∀ c ∈ year, (c == '_') = false) ∧ (∀ c ∈ month, (c == '_') = false) ∧
      ∀ c ∈ day, (c == '_') = false := by
  unfold ofName? at h
  split at h
  next day month year front hreverse =>
    have hfields : Text.split (· == '_') name = front.reverse ++ [year, month, day] := by
      simpa using congrArg List.reverse hreverse
    have hclean : ∀ field ∈ [year, month, day], ∀ c ∈ field, (c == '_') = false := by
      intro field hfield
      exact Text.eq_false_of_mem_split (hfields ▸ List.mem_append_right _ hfield)
    have hfront : front.reverse ≠ [] := by
      intro hnil
      simp [hnil, Text.join] at h
    refine ⟨Text.join '_' front.reverse, year, month, day, ?_, hclean year (by simp),
      hclean month (by simp), hclean day (by simp)⟩
    have hname := Text.join_split '_' name
    rw [hfields, Text.join_append '_' hfront (by simp)] at hname
    exact hname.symm
  · simp at h

theorem isDated_of_ofName?
    {name : String} {base : List Char} {date : Date} {suffix : String}
    (h : ofName? name.toList = some ⟨base, date, suffix.toList⟩) : IsDated name date suffix := by
  obtain ⟨front, year, month, day, hname, hyear, hmonth, hday⟩ := exists_of_ofName? h
  rw [hname, ofName?_fields hyear hmonth hday] at h
  split at h
  · simp at h
  next hbase =>
    simp only [bind, Option.bind_eq_some_iff] at h
    obtain ⟨y, hy, m, hm, d, hd, hdated⟩ := h
    obtain ⟨hyear, rfl⟩ := (digitGroup?_eq_some_iff (by decide)).mp hy
    obtain ⟨hmonth, rfl⟩ := (digitGroup?_eq_some_iff (by decide)).mp hm
    obtain ⟨hday, rfl⟩ := (digitGroup?_eq_some_iff (by decide)).mp hd
    obtain ⟨-, rfl, hsuffix⟩ := by simpa using hdated
    have hbase' : String.ofList front ≠ "" := by simpa using hbase
    have hform := IsDated.intro hbase' hyear hmonth hday
    have hwhole : name = String.ofList front ++ "_" ++ String.ofList year ++ "_" ++
        String.ofList month ++ "_" ++ String.ofList day :=
      String.toList_injective (by simp [hname])
    have hend : suffix =
        String.ofList year ++ "_" ++ String.ofList month ++ "_" ++ String.ofList day :=
      String.toList_injective (by simp [← hsuffix, Text.join])
    rwa [← hwhole, ← hend] at hform

theorem exists_ofName?_of_isDated
    {name : String} {date : Date} {suffix : String} (h : IsDated name date suffix) :
    ∃ base, ofName? name.toList = some ⟨base, date, suffix.toList⟩ := by
  cases h with
  | @intro base year month day hbase hyear hmonth hday =>
      refine ⟨base.toList, ?_⟩
      have hname : (base ++ "_" ++ year ++ "_" ++ month ++ "_" ++ day).toList =
          base.toList ++ '_' :: (year.toList ++ '_' :: (month.toList ++ '_' :: day.toList)) := by
        simp
      rw [hname, ofName?_fields hyear.ne_underscore hmonth.ne_underscore hday.ne_underscore,
        hyear.digitGroup? (by decide), hmonth.digitGroup? (by decide),
        hday.digitGroup? (by decide)]
      have hsome : base.toList.isEmpty = false := by simpa using hbase
      simp [hsome, Text.join]

/-- A name is read as a date and a suffix exactly if it has the form. -/
theorem ofName?_eq_some_iff {name : String} {date : Date} {suffix : String} :
    (∃ base, ofName? name.toList = some ⟨base, date, suffix.toList⟩) ↔
      IsDated name date suffix :=
  ⟨fun ⟨_, h⟩ => isDated_of_ofName? h, exists_ofName?_of_isDated⟩

end DatedName

/-! ## Versions -/

theorem IsDated.year_le {name suffix : String} {date : Date} (h : IsDated name date suffix) :
    date.year ≤ 9999 := by
  cases h with
  | intro _ hyear => exact Nat.le_of_lt_succ (groupValue_lt hyear)

/-- A dated name has the version of its date, or is refused. -/
theorem versionOf_of_isDated
    {name suffix : String} {date : Date} (h : IsDated name date suffix) :
    versionOf name =
      if 1970 ≤ date.year ∧ date.IsGregorian then .ok date.version
      else .error (.invalidVersion name suffix) := by
  obtain ⟨base, hread⟩ := DatedName.ofName?_eq_some_iff.mpr h
  have hreal : date.isReal = true ↔ 1970 ≤ date.year ∧ date.IsGregorian := by
    rw [date.isReal_iff]
    exact and_iff_left h.year_le
  unfold versionOf
  simp only [hread, hreal, String.ofList_toList]

theorem versionOf_of_not_isDated
    {name : String} (h : ∀ date suffix, ¬ IsDated name date suffix) : versionOf name = .ok 0 := by
  unfold versionOf
  cases hread : DatedName.ofName? name.toList with
  | none => rfl
  | some dated =>
      obtain ⟨base, date, suffix⟩ := dated
      refine absurd (DatedName.ofName?_eq_some_iff.mp ⟨base, ?_⟩) (h date (String.ofList suffix))
      rw [hread, String.toList_ofList]

/-- An accepted version of a dated name is that of its date, a day of the calendar. -/
theorem IsDated.eq_version
    {name suffix : String} {date : Date} (h : IsDated name date suffix) {v : Nat}
    (hv : versionOf name = .ok v) : date.IsGregorian ∧ v = date.version := by
  rw [versionOf_of_isDated h] at hv
  split at hv
  next hreal => exact ⟨hreal.2, (Except.ok.inj hv).symm⟩
  · simp at hv

theorem Date.IsGregorian.version_bounds
    {d : Date} (h : d.IsGregorian) (hyear : d.year ≤ 9999) :
    0 < d.version ∧ d.version < UInt32.size := by
  have hday := h.day_le
  obtain ⟨hfirst, hlast, -, -⟩ := h
  unfold Date.version
  rw [UInt32.size]
  omega

/-- A name with a date at its end has the version that the date spells if the date is one of the
calendar from 1970 on, and is refused otherwise; any other name has version zero.  Accepted versions
fit into 32 bits.  Those of dated names are positive, are in the order of the days, and are
different for different days. -/
theorem versionOf_chronological (name : String) :
    (∀ date suffix, IsDated name date suffix →
      versionOf name =
        if 1970 ≤ date.year ∧ date.IsGregorian then
          .ok (date.year * 10000 + date.month * 100 + date.day)
        else .error (.invalidVersion name suffix)) ∧
      ((∀ date suffix, ¬ IsDated name date suffix) → versionOf name = .ok 0) ∧
      (∀ v, versionOf name = .ok v → v < UInt32.size) ∧
      ∀ date suffix v, IsDated name date suffix → versionOf name = .ok v → 0 < v ∧
        ∀ name' date' suffix' v', IsDated name' date' suffix' → versionOf name' = .ok v' →
          (v < v' ↔ date.dayNumber < date'.dayNumber) ∧ (v = v' ↔ date = date') := by
  refine ⟨fun date suffix h => versionOf_of_isDated h, versionOf_of_not_isDated, fun v hv => ?_,
    fun date suffix v h hv => ?_⟩
  · by_cases hdated : ∃ date suffix, IsDated name date suffix
    · obtain ⟨date, suffix, h⟩ := hdated
      obtain ⟨hreal, rfl⟩ := h.eq_version hv
      exact (hreal.version_bounds h.year_le).2
    · have hzero := versionOf_of_not_isDated fun date suffix h => hdated ⟨date, suffix, h⟩
      obtain rfl : 0 = v := Except.ok.inj (hzero.symm.trans hv)
      decide
  · obtain ⟨hreal, rfl⟩ := h.eq_version hv
    refine ⟨(hreal.version_bounds h.year_le).1, fun name' date' suffix' v' h' hv' => ?_⟩
    obtain ⟨hreal', rfl⟩ := h'.eq_version hv'
    exact Date.version_order hreal hreal'

/-- Underscores in front of a date belong to the name, which must not be empty. -/
theorem versionOf_chronological_leapDay :
    versionOf "get__user_2024_02_29" = .ok 20240229 ∧
      versionOf "list_2023_02_29" = .error (.invalidVersion "list_2023_02_29" "2023_02_29") ∧
      versionOf "_2023_01_01" = .ok 0 ∧
      Date.dayNumber ⟨2023, 12, 31⟩ < Date.dayNumber ⟨2024, 2, 29⟩ := by
  have hleap : IsDated "get__user_2024_02_29" ⟨2024, 2, 29⟩ "2024_02_29" :=
    @IsDated.intro "get__user" "2024" "02" "29" (by decide) (by decide) (by decide) (by decide)
  have hnever : IsDated "list_2023_02_29" ⟨2023, 2, 29⟩ "2023_02_29" :=
    @IsDated.intro "list" "2023" "02" "29" (by decide) (by decide) (by decide) (by decide)
  have hlast : IsDated "list_2023_12_31" ⟨2023, 12, 31⟩ "2023_12_31" :=
    @IsDated.intro "list" "2023" "12" "31" (by decide) (by decide) (by decide) (by decide)
  have hplain : ∀ date suffix, ¬ IsDated "_2023_01_01" date suffix := by
    intro date suffix h
    obtain ⟨base, hread⟩ := DatedName.ofName?_eq_some_iff.mpr h
    have hnone : DatedName.ofName? "_2023_01_01".toList = none := by decide
    rw [hnone] at hread
    contradiction
  have hversion : versionOf "get__user_2024_02_29" = .ok 20240229 :=
    ((versionOf_chronological _).1 _ _ hleap).trans (by decide)
  have hearlier : versionOf "list_2023_12_31" = .ok 20231231 :=
    ((versionOf_chronological _).1 _ _ hlast).trans (by decide)
  refine ⟨hversion, ((versionOf_chronological _).1 _ _ hnever).trans (by decide),
    (versionOf_chronological _).2.1 hplain, ?_⟩
  obtain ⟨-, horder⟩ := (versionOf_chronological _).2.2.2 _ _ _ hlast hearlier
  exact (horder _ _ _ _ hleap hversion).1.mp (by decide)

end RouteDispatch

import Chronicle.Snapshot.Policy
import Chronicle.Timestamp
import Mathlib.Algebra.Group.Nat.Defs

/-!
# Points in time: their texts and the spans between them

What is read as a point in time lies in the calendar (`Timestamp.bounds_of_ofText?`), and the text
of such a point can be counted in 64 bits (`Timestamp.utf8ByteSize_toText_lt`). For that it is
enough to know that a number has no more digits than its value.

No age between two points of the calendar is too long to be compared, so a snapshot has expired
exactly if it is older than its policy permits (`SnapshotPolicy.isExpired_eq_false_iff`).
-/

namespace Chronicle

namespace Timestamp

/-! ## What is read -/

theorem foldl_digits_lt {ds : List Nat} (h : ∀ d ∈ ds, d < 10) (acc : Nat) :
    ds.foldl (fun acc d => acc * 10 + d) acc < (acc + 1) * 10 ^ ds.length := by
  induction ds generalizing acc with
  | nil => simp
  | cons d ds ih =>
    have hd := h d (List.mem_cons_self ..)
    have hrest := ih (fun other hin => h other (List.mem_cons_of_mem _ hin)) (acc * 10 + d)
    rw [List.foldl_cons, List.length_cons, Nat.pow_succ', ← Nat.mul_assoc]
    exact Nat.lt_of_lt_of_le hrest (Nat.mul_le_mul_right _ (by omega))

theorem digitValue?_lt {c : Char} {d : Nat} (h : digitValue? c = some d) : d < 10 := by
  unfold digitValue? at h
  split at h
  · next hc =>
    obtain rfl := Option.some.inj h
    have h9 : c.toNat ≤ 57 := hc.2
    show c.toNat - 48 < 10
    omega
  · cases h

theorem takeDigits_bounds (most : Nat) (text : List Char) :
    (takeDigits most text).1.length ≤ most ∧ ∀ d ∈ (takeDigits most text).1, d < 10 := by
  induction most generalizing text with
  | zero => exact ⟨Nat.le_refl _, by simp [takeDigits]⟩
  | succ most ih =>
    cases text with
    | nil => exact ⟨Nat.zero_le _, by simp [takeDigits]⟩
    | cons c text =>
      rw [takeDigits]
      cases hc : digitValue? c with
      | none => exact ⟨Nat.zero_le _, by simp⟩
      | some d =>
        obtain ⟨hlength, hdigits⟩ := ih text
        refine ⟨Nat.succ_le_succ hlength, fun other hin => ?_⟩
        rcases List.mem_cons.mp hin with rfl | hin
        · exact digitValue?_lt hc
        · exact hdigits other hin

theorem fraction?_lt {text rest : List Char} {nanos : Nat}
    (h : fraction? text = some (nanos, rest)) : nanos < 1000000000 := by
  unfold fraction? at h
  split at h
  · next behind =>
    obtain ⟨hlength, hdigits⟩ := takeDigits_bounds 9 behind
    cases hread : takeDigits 9 behind with
    | mk ds tail =>
    rw [hread] at h hlength hdigits
    cases ds with
    | nil => cases h
    | cons first others =>
      obtain ⟨rfl, -⟩ := Prod.mk.inj (Option.some.inj h)
      have hall : ∀ d ∈ first :: others ++ List.replicate (9 - (first :: others).length) 0,
          d < 10 := by
        intro d hin
        rcases List.mem_append.mp hin with hin | hin
        · exact hdigits d hin
        · rw [List.eq_of_mem_replicate hin]
          decide
      have hlt := foldl_digits_lt hall 0
      rw [List.length_append, List.length_replicate, Nat.add_sub_cancel' hlength] at hlt
      exact hlt
  · obtain ⟨rfl, -⟩ := Prod.mk.inj (Option.some.inj h)
    decide

/-- What is read as a point in time lies in the calendar, and in its second or a leap second. -/
theorem bounds_of_ofText? {text : String} {t : Timestamp} (h : ofText? text = some t) :
    inCalendar t.seconds = true ∧ t.nanos < 2000000000 := by
  unfold ofText? at h
  obtain ⟨⟨year, _⟩, -, h⟩ := Option.bind_eq_some_iff.mp h
  obtain ⟨_, -, h⟩ := Option.bind_eq_some_iff.mp h
  obtain ⟨⟨month, _⟩, -, h⟩ := Option.bind_eq_some_iff.mp h
  obtain ⟨_, -, h⟩ := Option.bind_eq_some_iff.mp h
  obtain ⟨⟨day, _⟩, -, h⟩ := Option.bind_eq_some_iff.mp h
  dsimp only at h
  -- by what stands between the date and the time
  split at h
  case h_4 => cases h
  all_goals
    obtain ⟨_, -, h⟩ := Option.bind_eq_some_iff.mp h
    obtain ⟨⟨hour, _⟩, -, h⟩ := Option.bind_eq_some_iff.mp h
    obtain ⟨_, -, h⟩ := Option.bind_eq_some_iff.mp h
    obtain ⟨⟨minute, _⟩, -, h⟩ := Option.bind_eq_some_iff.mp h
    obtain ⟨_, -, h⟩ := Option.bind_eq_some_iff.mp h
    obtain ⟨⟨second, _⟩, -, h⟩ := Option.bind_eq_some_iff.mp h
    obtain ⟨⟨nanos, _⟩, hnanos, h⟩ := Option.bind_eq_some_iff.mp h
    obtain ⟨⟨offset, _⟩, -, h⟩ := Option.bind_eq_some_iff.mp h
    split at h
    case isFalse => cases h
    split at h
    case isFalse => cases h
    next hcalendar =>
      obtain rfl := Option.some.inj h
      have hlt := fraction?_lt hnanos
      refine ⟨hcalendar.2, ?_⟩
      show nanos + _ < _
      split <;> omega

/-! ## The length of the text -/

theorem length_padded_le (width n : Nat) : (padded width n).length ≤ width + n + 1 := by
  have hdigits : (toString n).toList.length ≤ n + 1 := by
    rw [Nat.toString_eq_repr, String.length_toList]
    refine (Nat.length_repr_le_iff (Nat.succ_pos n)).mpr ?_
    exact Nat.lt_trans (Nat.lt_succ_self n) (Nat.lt_pow_self (by decide))
  rw [padded, List.length_append, List.length_replicate]
  omega

theorem length_yearText_le (year : Int) : (yearText year).length ≤ year.natAbs + 6 := by
  have hpadded := length_padded_le 4 year.natAbs
  unfold yearText
  split
  · rw [show year.toNat = year.natAbs by omega]
    omega
  · split <;> (rw [List.length_cons]; omega)

theorem length_fractionText_le (nanos : Nat) : (fractionText nanos).length ≤ nanos + 11 := by
  have hmillis := length_padded_le 3 (nanos / 1000000)
  have hmicros := length_padded_le 6 (nanos / 1000)
  have hnanos := length_padded_le 9 nanos
  unfold fractionText
  split
  · exact Nat.zero_le _
  split
  · rw [List.length_cons]; omega
  split <;> (rw [List.length_cons]; omega)

theorem ofDays_bounds (days : Int) (hlow : -100000000 ≤ days) (hhigh : days ≤ 100000000) :
    (Calendar.Date.ofDays days).year.natAbs ≤ 400000 ∧
      (Calendar.Date.ofDays days).month ≤ 20 ∧ (Calendar.Date.ofDays days).day ≤ 400 := by
  simp only [Calendar.Date.ofDays]
  refine ⟨?_, ?_, ?_⟩
  · split <;> omega
  · split <;> omega
  · omega

theorem utf8ByteSize_ofList_le (text : List Char) :
    (String.ofList text).utf8ByteSize ≤ 4 * text.length := by
  induction text with
  | nil => decide
  | cons c text ih =>
    have hc := Char.utf8Size_le_four c
    rw [String.ofList_cons, String.utf8ByteSize_append, String.utf8ByteSize_singleton,
      List.length_cons]
    omega

/-- The text of a point in time that lies in the calendar can be counted. -/
theorem utf8ByteSize_toText_lt {t : Timestamp} (h : inCalendar t.seconds = true)
    (hnanos : t.nanos < 2000000000) : t.toText.utf8ByteSize < UInt64.size := by
  have hfirst : firstSecond = -8334601228800 := by decide
  have hlast : lastSecond = 8210266876799 := by decide
  simp only [inCalendar, hfirst, hlast, Bool.and_eq_true, decide_eq_true_eq] at h
  obtain ⟨hyear, hmonth, hday⟩ := ofDays_bounds (t.seconds / 86400) (by omega) (by omega)
  have hyear' := length_yearText_le (Calendar.Date.ofDays (t.seconds / 86400)).year
  have hmonth' := length_padded_le 2 (Calendar.Date.ofDays (t.seconds / 86400)).month
  have hday' := length_padded_le 2 (Calendar.Date.ofDays (t.seconds / 86400)).day
  have hour := length_padded_le 2 ((t.seconds % 86400).toNat / 3600)
  have hminute := length_padded_le 2 ((t.seconds % 86400).toNat / 60 % 60)
  have hsecond := length_padded_le 2 ((t.seconds % 86400).toNat % 60 + t.nanos / 1000000000)
  have hfraction := length_fractionText_le (t.nanos % 1000000000)
  refine Nat.lt_of_le_of_lt (utf8ByteSize_ofList_le _) ?_
  show _ < 18446744073709551616
  simp only [List.length_append, List.length_cons, List.length_nil]
  omega

/-! ## Spans between points in time -/

/-- A point in time that has a calendar day, in its second or the leap second behind it. -/
def InCalendar (t : Timestamp) : Prop := inCalendar t.seconds = true ∧ t.nanos < 2000000000

instance (t : Timestamp) : Decidable t.InCalendar := inferInstanceAs (Decidable (_ ∧ _))

/-- No two points in time of the calendar are farther apart than the longest age, in either
direction. -/
theorem natAbs_nanosSince_le {t earlier : Timestamp} (h : t.InCalendar)
    (hearlier : earlier.InCalendar) : (t.nanosSince earlier).natAbs ≤ SnapshotPolicy.longestAge := by
  have hfirst : firstSecond = -8334601228800 := by decide
  have hlast : lastSecond = 8210266876799 := by decide
  obtain ⟨hseconds, hnanos⟩ := h
  obtain ⟨hearlierSeconds, hearlierNanos⟩ := hearlier
  simp only [inCalendar, hfirst, hlast, Bool.and_eq_true, decide_eq_true_eq]
    at hseconds hearlierSeconds
  unfold nanosSince toNanos SnapshotPolicy.longestAge
  dsimp only
  split
  · omega
  · split <;> omega

end Timestamp

/-- Between points in time of the calendar, a snapshot has expired exactly if it is older than the
policy permits: no age is too long to be compared. -/
theorem SnapshotPolicy.isExpired_eq_false_iff {policy : SnapshotPolicy} {takenAt now : Timestamp}
    (htaken : takenAt.InCalendar) (hnow : now.InCalendar) :
    policy.isExpired takenAt now = false ↔
      ∀ limit, policy.expireAfter = some limit → now.nanosSince takenAt ≤ limit.nanos := by
  have hage := Timestamp.natAbs_nanosSince_le hnow htaken
  cases hlimit : policy.expireAfter with
  | none => simp [isExpired, hlimit]
  | some limit =>
    simp only [isExpired, hlimit, Bool.and_eq_false_iff, decide_eq_false_iff_not, Option.some.injEq,
      forall_eq']
    omega

end Chronicle

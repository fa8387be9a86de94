import Chronicle.Proofs.Sample.Sequence
import Chronicle.Proofs.Store.Pages
import Chronicle.Proofs.VersionRange
import Mathlib.Data.List.Pairwise

/-!
# Reading ranges of a stream

The rows of a stream in a dense store are numbered from 1, so those of a range stand in one piece
(`rowsIn_eq`), and two ranges that meet are read as the one that they form.

A client that reads a stream in windows goes on from the version that each read tells. In a dense
store that version is the end of the window or the end of the stream, whichever comes first
(`toNat_version_loadStream`), so a window that does not reach the end moves the client by its
whole width. `ReadsOn` is such a client, up to the read that reaches the end.
-/

namespace Chronicle

/-! ## Windows -/

/-- So many versions behind one, or all versions behind it where there are not so many. -/
def VersionRange.window (after : Version) (width : UInt64) : VersionRange where
  after := after
  upTo := match after.add width with
    | .ok last => .version last
    | .error _ => .unbounded

@[simp] theorem VersionRange.after_window (after : Version) (width : UInt64) :
    (window after width).after = after := rfl

theorem VersionRange.toNat_highest_window (after : Version) (width : UInt64) :
    (window after width).upTo.highest.toNat =
      min (after.toNat + width.toNat) 0xffffffffffffffff := by
  unfold window
  cases hsum : after.add width with
  | ok last =>
    have hlast := Version.add_eq_ok hsum
    have hfits := last.toNat_le
    rw [← hlast]
    exact (Nat.min_eq_left hfits).symm
  | error fault =>
    have hfull : 0x10000000000000000 ≤ after.toNat + width.toNat :=
      (checkedAdd_eq_error_iff.mp (map_eq_error.mp hsum)).1
    have hpast : 0xffffffffffffffff ≤ after.toNat + width.toNat := by omega
    exact (Nat.min_eq_right hpast).symm

/-- A window holds just the versions behind its start, as many as it is wide. -/
theorem VersionRange.contains_window {after v : Version} {width : UInt64} :
    (window after width).contains v = true ↔
      after.toNat < v.toNat ∧ v.toNat ≤ after.toNat + width.toNat := by
  have hle := v.toNat_le
  rw [contains_iff, toNat_highest_window, after_window]
  omega

/-! ## Rows of a range -/

namespace TenantLog

variable {t : TenantLog} {stream : StreamId} {range : VersionRange}

/-- The rows up to a version are numbered as all rows are. -/
theorem Dense.versions_take (h : t.Dense) (stream : StreamId) (count : Nat) :
    ((t.rows stream).take count).map (fun row => row.version.toNat) =
      List.range' 1 ((t.rows stream).take count).length := by
  rw [List.map_take, h.versions stream, List.length_take]
  by_cases hle : (t.rows stream).length ≤ count
  · rw [List.take_range'_of_length_le hle, Nat.min_eq_right hle]
  · have hge := Nat.le_of_not_le hle
    rw [List.take_range'_of_length_ge hge, Nat.min_eq_left hge]

/-- In a dense log the rows of a range stand in one piece. -/
theorem rowsIn_eq (h : t.Dense) (stream : StreamId) (range : VersionRange) :
    (t.loadStream stream range).rows =
      ((t.rows stream).take range.upTo.highest.toNat).drop range.after.toNat := by
  have hcontains : ∀ row : RecordedEvent, range.contains row.version =
      (Decidable.decide (range.after.toNat < row.version.toNat) &&
        Decidable.decide (row.version.toNat ≤ range.upTo.highest.toNat)) := fun row => by
    rw [Bool.eq_iff_iff, VersionRange.contains_iff, Bool.and_eq_true, decide_eq_true_iff,
      decide_eq_true_iff]
  simp only [loadStream, hcontains]
  rw [← List.filter_filter, filter_le_eq_take range.upTo.highest.toNat (h.versions stream)]
  exact filter_lt_eq_drop range.after.toNat (h.versions_take stream _)

/-- Two ranges that meet are read as the one they form. -/
theorem loadStream_append (h : t.Dense) (stream : StreamId) {first middle : Version}
    {last : UpperBound} (hfirst : first ≤ middle) (hlast : last.admits middle = true) :
    (t.loadStream stream ⟨first, .version middle⟩).rows ++
        (t.loadStream stream ⟨middle, last⟩).rows = (t.loadStream stream ⟨first, last⟩).rows := by
  rw [rowsIn_eq h, rowsIn_eq h, rowsIn_eq h]
  exact drop_take_append_drop_take (Version.le_iff_toNat_le.mp hfirst)
    (UpperBound.admits_iff.mp hlast) _

/-! ## Where a read ends -/

theorem version_loadStream (t : TenantLog) (stream : StreamId) (range : VersionRange) :
    (t.loadStream stream range).version =
      ((t.loadStream stream range).rows.getLast?.map RecordedEvent.version).getD range.after := by
  simp only [loadStream]
  split
  · next last hlast => rw [hlast]; rfl
  · next hnone => rw [hnone]; rfl

/-- A read ends at the end of its range or of the stream, whichever comes first, unless that lies
in front of where it starts. -/
theorem toNat_version_loadStream (h : t.Dense) (stream : StreamId) (range : VersionRange) :
    (t.loadStream stream range).version.toNat =
      max range.after.toNat (min range.upTo.highest.toNat (t.rows stream).length) := by
  rw [version_loadStream, rowsIn_eq h, List.getLast?_drop, List.length_take]
  split
  · next hnone => exact (Nat.max_eq_left hnone).symm
  · next hsome =>
    cases hlast : ((t.rows stream).take range.upTo.highest.toNat).getLast? with
    | none =>
      have hlength := congrArg List.length (List.getLast?_eq_none_iff.mp hlast)
      rw [List.length_take, List.length_nil] at hlength
      omega
    | some last =>
      have hnumber := getLast?_of_dense (h.versions_take stream _) hlast
      rw [List.length_take] at hnumber
      show last.version.toNat = _
      omega

theorem reachedEnd_loadStream (h : t.Dense) (stream : StreamId) (range : VersionRange) :
    (t.loadStream stream range).reachedEnd = true ↔
      (t.rows stream).length ≤ (t.loadStream stream range).version.toNat := by
  rw [← h.toNat_version stream, ← Version.le_iff_toNat_le]
  exact decide_eq_true_iff

/-- No row has a version above a bound just if there are no more rows than it. -/
theorem Dense.forall_version_le_iff (h : t.Dense) (stream : StreamId) {bound : Version} :
    (∀ row ∈ t.rows stream, ¬ bound < row.version) ↔
      (t.rows stream).length ≤ bound.toNat := by
  simp only [Version.lt_iff_toNat_lt, Nat.not_lt]
  constructor
  · intro hall
    cases hlast : (t.rows stream).getLast? with
    | none => rw [List.getLast?_eq_none_iff.mp hlast]; exact Nat.zero_le _
    | some last =>
      rw [← getLast?_of_dense (h.versions stream) hlast]
      exact hall last (List.mem_of_getLast? hlast)
  · intro hle row hrow
    have hnumber : row.version.toNat ∈ List.range' 1 (t.rows stream).length := by
      rw [← h.versions stream]
      exact List.mem_map_of_mem hrow
    have := (List.mem_range'_1.mp hnumber).2
    omega

theorem Dense.ascending (h : t.Dense) (stream : StreamId) :
    (t.rows stream).Pairwise fun row later => row.version < later.version := by
  have hnumbers := List.pairwise_lt_range' (s := 1) (n := (t.rows stream).length)
  rw [← h.versions stream, List.pairwise_map] at hnumbers
  exact hnumbers.imp Version.lt_iff_toNat_lt.mpr

/-- One window. Either it reaches the end and has all rows that are left, or it moves on by its
width and leaves out just what lies behind. -/
theorem window_cases (h : t.Dense) {after : Version} {width : UInt64} {recorded : RecordedStream}
    (hrecorded : t.loadStream stream (.window after width) = recorded) :
    (recorded.reachedEnd = true ∧ recorded.rows = (t.rows stream).drop after.toNat) ∨
      (recorded.reachedEnd = false ∧ recorded.version.toNat = after.toNat + width.toNat ∧
        recorded.version.toNat ≤ (t.rows stream).length ∧
        recorded.rows ++ (t.rows stream).drop recorded.version.toNat =
          (t.rows stream).drop after.toNat) := by
  have hversion := toNat_version_loadStream h stream (.window after width)
  have hrows := rowsIn_eq h stream (.window after width)
  have hend := reachedEnd_loadStream h stream (.window after width)
  have hfits : (t.rows stream).length ≤ 0xffffffffffffffff :=
    h.toNat_version stream ▸ Version.toNat_le _
  rw [VersionRange.toNat_highest_window, VersionRange.after_window, hrecorded] at hversion hrows
  rw [hrecorded] at hend
  by_cases hlast : (t.rows stream).length ≤ after.toNat + width.toNat
  · refine .inl ⟨hend.mpr (by omega), hrows.trans ?_⟩
    rw [List.take_of_length_le (by omega)]
  · have hbound : after.toNat + width.toNat ≤ 0xffffffffffffffff := by omega
    have hmoved : recorded.version.toNat = after.toNat + width.toNat := by omega
    have hmore : recorded.reachedEnd = false := Bool.eq_false_iff.mpr fun hreached => by
      have := hend.mp hreached
      omega
    rw [Nat.min_eq_left hbound, ← hmoved] at hrows
    have hafter : after.toNat ≤ recorded.version.toNat := by omega
    have hinside : recorded.version.toNat ≤ (t.rows stream).length := by omega
    have hmeet := drop_take_append_drop_take hafter hinside (t.rows stream)
    rw [List.take_length, ← hrows] at hmeet
    exact .inr ⟨hmore, hmoved, hinside, hmeet⟩

end TenantLog

namespace MemoryStore

variable {s : MemoryStore} {tenant : TenantId} {stream : StreamId}

/-! ## One read -/

/-- What a read of a range gives: just the stored rows of the stream that lie in the range, each
once and in ascending order, with the version to go on from and whether nothing is stored behind
it. -/
structure ReadsRange (s : MemoryStore) (tenant : TenantId) (stream : StreamId)
    (range : VersionRange) (recorded : RecordedStream) : Prop where
  stream_eq : recorded.stream = stream
  mem_iff : ∀ row, row ∈ recorded.rows ↔
    row ∈ s.log tenant ∧ row.stream = stream ∧ range.after < row.version ∧
      ∀ last, range.upTo = .version last → row.version ≤ last
  ascending : recorded.rows.Pairwise fun row later => row.version < later.version
  version_eq : recorded.version =
    (recorded.rows.getLast?.map RecordedEvent.version).getD range.after
  reachedEnd_iff : recorded.reachedEnd = true ↔
    ∀ row ∈ s.log tenant, row.stream = stream → ¬ recorded.version < row.version

theorem Dense.mem_rows_iff (h : s.Dense) {row : RecordedEvent} :
    row ∈ (s.tenant tenant).rows stream ↔ row ∈ s.log tenant ∧ row.stream = stream := by
  rw [(h tenant).parts stream, List.mem_filter, decide_eq_true_iff]
  rfl

theorem readsRange_loadStream (h : s.Dense) (range : VersionRange) :
    s.ReadsRange tenant stream range ((s.tenant tenant).loadStream stream range) where
  stream_eq := rfl
  mem_iff row := by
    have hadmits : range.upTo.admits row.version = true ↔
        ∀ last, range.upTo = .version last → row.version ≤ last := by
      cases range.upTo <;> simp [UpperBound.admits]
    rw [TenantLog.loadStream, List.mem_filter, h.mem_rows_iff, and_assoc, VersionRange.contains,
      Bool.and_eq_true, decide_eq_true_iff, hadmits]
  ascending := ((h tenant).ascending stream).filter _
  version_eq := TenantLog.version_loadStream ..
  reachedEnd_iff := by
    rw [TenantLog.reachedEnd_loadStream (h tenant), ← (h tenant).forall_version_le_iff]
    simp only [h.mem_rows_iff, and_imp]

/-! ## Reading in windows -/

/-- What a client reads that asks for one window after the other, each going on from the version
that the one before told, up to the read that reaches the end. -/
inductive ReadsOn (s : MemoryStore) (tenant : TenantId) (stream : StreamId) (width : UInt64) :
    Version → List RecordedEvent → Prop
  | ends {after : Version} {recorded : RecordedStream}
      (hread : s.loadStream tenant stream (.window after width) = .ok recorded)
      (hend : recorded.reachedEnd = true) : ReadsOn s tenant stream width after recorded.rows
  | goesOn {after : Version} {recorded : RecordedStream} {rest : List RecordedEvent}
      (hread : s.loadStream tenant stream (.window after width) = .ok recorded)
      (hmore : recorded.reachedEnd = false)
      (hrest : ReadsOn s tenant stream width recorded.version rest) :
      ReadsOn s tenant stream width after (recorded.rows ++ rest)

/-- From any version of a stream, windows that are not empty reach its end and visit the rows
behind that version, each once and in order. -/
theorem readsOn_drop (h : s.Dense) (havailable : s.available = true) {width : UInt64}
    (hwidth : 0 < width) (after : Version) :
    s.ReadsOn tenant stream width after (((s.tenant tenant).rows stream).drop after.toNat) := by
  have hpos : 0 < width.toNat := UInt64.lt_iff_toNat_lt.mp hwidth
  -- Each window that does not reach the end leaves fewer rows behind it.
  induction hleft : ((s.tenant tenant).rows stream).length - after.toNat using Nat.strongRecOn
    generalizing after with
  | ind left ih =>
    have hread : s.loadStream tenant stream (.window after width) =
        .ok ((s.tenant tenant).loadStream stream (.window after width)) :=
      loadStream_eq_ok_iff.mpr ⟨havailable, rfl⟩
    rcases TenantLog.window_cases (h tenant) (loadStream_eq_ok_iff.mp hread).2.symm with
      ⟨hend, hrows⟩ | ⟨hmore, hmoved, hinside, hrows⟩
    · exact hrows ▸ .ends hread hend
    · exact hrows ▸ .goesOn hread hmore (ih _ (by omega) _ rfl)

/-! ## All reads of a stream -/

theorem loadStream_of_unavailable (havailable : s.available = false) (range : VersionRange) :
    s.loadStream tenant stream range = .error .unavailable := by
  unfold MemoryStore.loadStream
  rw [ensureAvailable, havailable]
  rfl

/-- **Ranges are read exactly.** Take any store that calls lead to, and any stream in it. If the
store can be reached, a read of any range gives just the stored rows in it, in order, with the
version it ends at and whether that is the end (`ReadsRange`); ranges that meet are read as the one
they form; and windows of any width above zero, each going on from where the one before ended,
reach the end and visit every row of the stream once, in order. If the store cannot be reached,
every read says so. -/
theorem ranges_are_read_exactly (before : List StoreCall) (tenant : TenantId)
    (stream : StreamId) :
    let s := MemoryStore.empty.afterCalls before
    (s.available = true →
      (∀ range, ∃ recorded, s.loadStream tenant stream range = .ok recorded ∧
        s.ReadsRange tenant stream range recorded) ∧
      (∀ first middle last, first ≤ middle → last.admits middle = true →
        ∃ lower upper whole, s.loadStream tenant stream ⟨first, .version middle⟩ = .ok lower ∧
          s.loadStream tenant stream ⟨middle, last⟩ = .ok upper ∧
          s.loadStream tenant stream ⟨first, last⟩ = .ok whole ∧
          lower.rows ++ upper.rows = whole.rows) ∧
      ∀ width, 0 < width → s.ReadsOn tenant stream width .notCreated
        ((s.log tenant).filter fun row => row.stream = stream)) ∧
      (s.available = false →
        ∀ range, s.loadStream tenant stream range = .error .unavailable) := by
  intro s
  have hdense : s.Dense := afterCalls_dense dense_empty before
  refine ⟨fun havailable => ⟨fun range => ?_, fun first middle last hfirst hlast => ?_,
    fun width hwidth => ?_⟩, loadStream_of_unavailable⟩
  · exact ⟨_, loadStream_eq_ok_iff.mpr ⟨havailable, rfl⟩, readsRange_loadStream hdense range⟩
  · exact ⟨_, _, _, loadStream_eq_ok_iff.mpr ⟨havailable, rfl⟩,
      loadStream_eq_ok_iff.mpr ⟨havailable, rfl⟩, loadStream_eq_ok_iff.mpr ⟨havailable, rfl⟩,
      TenantLog.loadStream_append (hdense tenant) stream hfirst hlast⟩
  · have hreads : s.ReadsOn tenant stream width .notCreated ((s.tenant tenant).rows stream) :=
      readsOn_drop hdense havailable hwidth .notCreated
    rwa [(hdense tenant).parts stream] at hreads

open Sample in
/-- Three numbers, read in windows of two: the windows visit all three. A range that is upside
down has no rows and ends where it starts. -/
theorem stocked_ranges_are_read_exactly :
    let s := MemoryStore.empty.afterCalls [stocking .notCreated [1, 2, 3]]
    let stream := sequenceType.stream (7 : UInt64)
    s.available = true ∧ (s.log .default).length = 3 ∧
      s.ReadsOn .default stream 2 .notCreated
        ((s.log .default).filter fun row => row.stream = stream) ∧
      s.loadStream .default stream ⟨⟨2⟩, .version ⟨1⟩⟩ = .ok ⟨stream, [], ⟨2⟩, false⟩ := by
  intro s stream
  have hreads := (ranges_are_read_exactly [stocking .notCreated [1, 2, 3]] .default stream).1 rfl
  exact ⟨rfl, rfl, hreads.2.2 2 (by decide), rfl⟩

open Sample in
/-- A store that cannot be reached has rows and reads none of them. -/
theorem unreachable_ranges_are_not_read :
    let s := MemoryStore.empty.afterCalls [stocking .notCreated [1], .setAvailable false]
    let stream := sequenceType.stream (7 : UInt64)
    (s.log .default).length = 1 ∧
      s.loadStream .default stream .all = .error .unavailable ∧
      ¬ ∃ recorded, s.loadStream .default stream .all = .ok recorded ∧
        s.ReadsRange .default stream .all recorded := by
  refine ⟨rfl, rfl, ?_⟩
  rintro ⟨recorded, hread, -⟩
  cases hread

end MemoryStore

end Chronicle

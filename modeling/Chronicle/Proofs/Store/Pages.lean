import Chronicle.Proofs.Lists
import Chronicle.Proofs.Store.Invariant

/-!
# Reading a log page by page

A page holds the rows behind a position, at most so many. In a dense store the rows behind a
position are all rows but so many at the beginning (`rowsAfter_eq_drop`), so the rows behind the
last position of a page are those that the page left out (`Page.rowsAfter_eq`). That is as true of
a store that has grown since the page was read.
-/

namespace Chronicle

@[simp] theorem GlobalPosition.toNat_start : GlobalPosition.start.toNat = 0 := rfl

namespace MemoryStore

/-- The rows of a tenant's log behind a position. -/
def rowsAfter (s : MemoryStore) (tenant : TenantId) (position : GlobalPosition) :
    List RecordedEvent := (s.log tenant).filter fun row => position < row.position

section

variable {s s' : MemoryStore} {tenant : TenantId} {position : GlobalPosition} {limit : Nat}

theorem rowsAfter_eq_drop (h : s.Dense) :
    s.rowsAfter tenant position = (s.log tenant).drop position.toNat := by
  simp only [rowsAfter, GlobalPosition.lt_iff_toNat_lt]
  exact filter_lt_eq_drop position.toNat (h tenant).positions

theorem rowsAfter_start (h : s.Dense) : s.rowsAfter tenant .start = s.log tenant :=
  rowsAfter_eq_drop h

/-- The rows behind a position are numbered on from it. -/
theorem Dense.positions_rowsAfter (h : s.Dense) (tenant : TenantId) (position : GlobalPosition) :
    (s.rowsAfter tenant position).map (fun row => row.position.toNat) =
      List.range' (position.toNat + 1) (s.rowsAfter tenant position).length := by
  have hpositions := (h tenant).positions
  rw [rowsAfter_eq_drop h, List.map_drop, MemoryStore.log, hpositions, List.drop_range',
    List.length_drop]
  congr 1
  omega

/-- A store numbers its rows in 64 bits, so it never holds more. -/
theorem Dense.length_log_lt (h : s.Dense) (tenant : TenantId) :
    (s.log tenant).length < 0x10000000000000000 :=
  (h tenant).toNat_lastPosition ▸ UInt64.toNat_lt _

theorem Grows.rowsAfter (h : s.Grows s') (tenant : TenantId) (position : GlobalPosition) :
    s.rowsAfter tenant position <+: s'.rowsAfter tenant position := (h.log tenant).filter _

/-! ## One page -/

theorem loadLog_of_available {options : ReadOptions} (havailable : s.available = true)
    (hlimit : options.limit ≠ some 0) :
    s.loadLog tenant options = .ok ((s.tenant tenant).loadLog options) := by
  unfold MemoryStore.loadLog
  rw [if_neg hlimit, ensureAvailable_eq_ok_iff.mpr havailable]
  rfl

theorem loadLog_pageAfter (tenant : TenantId) (position : GlobalPosition)
    (havailable : s.available = true) (hlimit : 0 < limit) :
    ∃ reachedEnd, s.loadLog tenant (.pageAfter position limit) =
      .ok ⟨(s.rowsAfter tenant position).take limit,
        ((s.rowsAfter tenant position).take limit).getLast?.map RecordedEvent.position,
        reachedEnd⟩ := by
  have hlimit' : (ReadOptions.pageAfter position limit).limit ≠ some 0 := fun h =>
    absurd (Option.some.inj h) (by omega)
  have hmatching : (s.tenant tenant).matching (.pageAfter position limit) =
      s.rowsAfter tenant position := by
    simp [TenantLog.matching, ReadOptions.pageAfter, ReadOptions.everything, ReadOptions.admits,
      ReadOptions.admitsPosition, ReadOptions.admitsStream, ReadOptions.atLeast,
      ReadOptions.atMost, MemoryStore.rowsAfter, MemoryStore.log]
  rw [loadLog_of_available havailable hlimit']
  exact ⟨_, congrArg Except.ok (by simp only [TenantLog.loadLog, hmatching]; rfl)⟩

theorem loadLog_of_unavailable {options : ReadOptions} (havailable : s.available = false)
    (hlimit : options.limit ≠ some 0) : s.loadLog tenant options = .error .unavailable := by
  have hensure : s.ensureAvailable = .error .unavailable := by simp [ensureAvailable, havailable]
  unfold MemoryStore.loadLog
  rw [if_neg hlimit, hensure]
  rfl

/-- The next rows behind a position, with the position of the last of them. -/
structure Page (s : MemoryStore) (tenant : TenantId) (position : GlobalPosition) (limit : Nat)
    (rows : List RecordedEvent) (stop : GlobalPosition) : Prop where
  rows_eq : rows = (s.rowsAfter tenant position).take limit
  stop_eq : rows.getLast?.map RecordedEvent.position = some stop

/-- A read of a page finds the store available, and either a page or that nothing is left. -/
theorem loadLog_pageAfter_eq_ok {slice : LogSlice} (hlimit : 0 < limit)
    (h : s.loadLog tenant (.pageAfter position limit) = .ok slice) :
    s.available = true ∧
      ((s.rowsAfter tenant position = [] ∧ slice.lastPosition = none) ∨
        ∃ stop, slice.lastPosition = some stop ∧
          s.Page tenant position limit slice.rows stop) := by
  cases havailable : s.available with
  | false =>
    have hlimit' : (ReadOptions.pageAfter position limit).limit ≠ some 0 := fun h =>
      absurd (Option.some.inj h) (by omega)
    rw [loadLog_of_unavailable havailable hlimit'] at h
    cases h
  | true =>
    obtain ⟨reachedEnd, hpage⟩ := s.loadLog_pageAfter tenant position havailable hlimit
    obtain rfl := Except.ok.inj (hpage.symm.trans h)
    refine ⟨rfl, ?_⟩
    cases hlast : ((s.rowsAfter tenant position).take limit).getLast? with
    | none =>
      have hnil := List.getLast?_eq_none_iff.mp hlast
      rw [List.take_eq_nil_iff] at hnil
      exact Or.inl ⟨hnil.resolve_left (by omega), rfl⟩
    | some last => exact Or.inr ⟨last.position, rfl, rfl, by rw [hlast]; rfl⟩

namespace Page

variable {rows : List RecordedEvent} {stop : GlobalPosition}

theorem ne_nil (h : s.Page tenant position limit rows stop) : rows ≠ [] := by
  rintro rfl
  exact nomatch h.stop_eq

theorem toNat_stop (hs : s.Dense) (h : s.Page tenant position limit rows stop) :
    stop.toNat = position.toNat + rows.length := by
  obtain ⟨last, hlast, rfl⟩ := Option.map_eq_some_iff.mp h.stop_eq
  have hpos := List.length_pos_iff.mpr h.ne_nil
  have hle : rows.length ≤ limit := by rw [h.rows_eq]; exact List.length_take_le _ _
  rw [List.getLast?_eq_getElem?] at hlast
  have hin : (s.rowsAfter tenant position)[rows.length - 1]? = some last := by
    rw [← hlast, h.rows_eq, List.getElem?_take_of_lt]
    rw [← h.rows_eq]
    omega
  have hnumber := congrArg (·[rows.length - 1]?) (hs.positions_rowsAfter tenant position)
  rw [List.getElem?_map, hin,
    List.getElem?_range' (List.getElem?_eq_some_iff.mp hin).1] at hnumber
  have : last.position.toNat = position.toNat + 1 + 1 * (rows.length - 1) := Option.some.inj hnumber
  omega

/-- What lies behind a page's last position is what it left out, even in a store that has grown
since. -/
theorem rowsAfter_eq (hs : s.Dense) (hs' : s'.Dense) (hgrows : s.Grows s')
    (h : s.Page tenant position limit rows stop) :
    s'.rowsAfter tenant position = rows ++ s'.rowsAfter tenant stop := by
  have hprefix : rows <+: s'.rowsAfter tenant position := by
    rw [h.rows_eq]
    exact (List.take_prefix limit _).trans (hgrows.rowsAfter tenant position)
  obtain ⟨rest, hrest⟩ := hprefix
  rw [← hrest, List.append_cancel_left_eq, rowsAfter_eq_drop hs', h.toNat_stop hs,
    ← List.drop_drop, ← rowsAfter_eq_drop hs', ← hrest, List.drop_left]

theorem rowsAfter_eq_drop (hs : s.Dense) (h : s.Page tenant position limit rows stop) :
    s.rowsAfter tenant stop = (s.rowsAfter tenant position).drop limit := by
  have hsplit := h.rowsAfter_eq hs hs (.refl s)
  rw [h.rows_eq] at hsplit
  exact List.append_cancel_left (hsplit.symm.trans (List.take_append_drop limit _).symm)

end Page

theorem exists_page (hlimit : 0 < limit)
    (hne : s.rowsAfter tenant position ≠ []) :
    ∃ stop, s.Page tenant position limit ((s.rowsAfter tenant position).take limit) stop := by
  cases hlast : ((s.rowsAfter tenant position).take limit).getLast? with
  | none =>
    have hnil := List.getLast?_eq_none_iff.mp hlast
    rw [List.take_eq_nil_iff] at hnil
    exact absurd (hnil.resolve_left (by omega)) hne
  | some last => exact ⟨last.position, rfl, by rw [hlast]; rfl⟩

end

end MemoryStore

end Chronicle

import Chronicle.Proofs.Sample.Sequence
import Chronicle.Proofs.Store.Pages

/-!
# Reading a log in slices

Which rows of a log are read is said by `ReadOptions.Wants`, in which order by `Direction.Leads`.
Each row that is read leads those behind it (`Dense.matching_ordered`), so what lies strictly behind
the last row of a slice is just what the slice left out (`matching_behind`).

A client that reads a log in slices goes on behind the last position that each tells. `ReadsSlices`
is such a client, up to the slice that reaches the end.
-/

namespace Chronicle

/-! ## Directions -/

namespace Direction

/-- One position comes before another. -/
def Leads : Direction → GlobalPosition → GlobalPosition → Prop
  | .forward, p, q => p < q
  | .backward, p, q => q < p

/-- The other direction. -/
def turned : Direction → Direction
  | .forward => .backward
  | .backward => .forward

variable {d : Direction} {p q r : GlobalPosition}

theorem leads_turned : d.turned.Leads p q ↔ d.Leads q p := by cases d <;> exact Iff.rfl

theorem Leads.trans (h : d.Leads p q) (h' : d.Leads q r) : d.Leads p r := by
  cases d <;> simp only [Leads, GlobalPosition.lt_iff_toNat_lt] at * <;> omega

theorem Leads.not_self (h : d.Leads p p) : False := by
  cases d <;> simp only [Leads, GlobalPosition.lt_iff_toNat_lt] at h <;> omega

instance (d : Direction) (p q : GlobalPosition) : Decidable (d.Leads p q) := by
  unfold Leads
  cases d <;> infer_instance

end Direction

/-! ## What is read -/

namespace ReadOptions

/-- A row is read: the first bound comes before it and it comes before the last bound, or it is at
one and that one is inclusive; and the name of its stream has the wanted start. -/
structure Wants (options : ReadOptions) (row : RecordedEvent) : Prop where
  first : ∀ bound, options.first = some bound → options.direction.Leads bound row.position ∨
    options.firstInclusive = true ∧ row.position = bound
  last : ∀ bound, options.last = some bound → options.direction.Leads row.position bound ∨
    options.lastInclusive = true ∧ row.position = bound
  streamStart : ∀ start, options.streamStart = some start →
    start.toList <+: row.stream.text.toList

theorem atLeast_iff {bound : Option GlobalPosition} {inclusive : Bool} {p : GlobalPosition} :
    atLeast bound inclusive p = true ↔
      ∀ b, bound = some b → b < p ∨ inclusive = true ∧ p = b := by
  cases bound with
  | none => simp [atLeast]
  | some b =>
    simp only [Option.some.injEq, forall_eq']
    cases inclusive with
    | false => simp [atLeast]
    | true =>
      simp only [atLeast, if_true, decide_eq_true_iff, true_and, GlobalPosition.lt_iff_toNat_lt,
        GlobalPosition.le_iff_toNat_le, ← GlobalPosition.toNat_inj]
      omega

theorem atMost_iff {bound : Option GlobalPosition} {inclusive : Bool} {p : GlobalPosition} :
    atMost bound inclusive p = true ↔
      ∀ b, bound = some b → p < b ∨ inclusive = true ∧ p = b := by
  cases bound with
  | none => simp [atMost]
  | some b =>
    simp only [Option.some.injEq, forall_eq']
    cases inclusive with
    | false => simp [atMost]
    | true =>
      simp only [atMost, if_true, decide_eq_true_iff, true_and, GlobalPosition.lt_iff_toNat_lt,
        GlobalPosition.le_iff_toNat_le, ← GlobalPosition.toNat_inj]
      omega

theorem admitsStream_iff {options : ReadOptions} {stream : StreamId} :
    options.admitsStream stream = true ↔
      ∀ start, options.streamStart = some start → start.toList <+: stream.text.toList := by
  unfold admitsStream
  cases options.streamStart with
  | none => simp
  | some start => simp [StreamId.startsWith, List.isPrefixOf_iff_prefix]

theorem admits_iff {options : ReadOptions} {row : RecordedEvent} :
    options.admits row.position row.stream = true ↔ options.Wants row := by
  have hposition : options.admitsPosition row.position = true ↔
      (∀ bound, options.first = some bound → options.direction.Leads bound row.position ∨
        options.firstInclusive = true ∧ row.position = bound) ∧
      ∀ bound, options.last = some bound → options.direction.Leads row.position bound ∨
        options.lastInclusive = true ∧ row.position = bound := by
    unfold admitsPosition
    cases options.direction <;> simp only [Bool.and_eq_true, atLeast_iff, atMost_iff] <;> rfl
  rw [admits, Bool.and_eq_true, hposition, admitsStream_iff]
  constructor
  · rintro ⟨⟨hfirst, hlast⟩, hstart⟩
    exact ⟨hfirst, hlast, hstart⟩
  · intro h
    exact ⟨⟨h.first, h.last⟩, h.streamStart⟩

/-- The same read, at most so many rows of it. -/
def sized (options : ReadOptions) (limit : Option Nat) : ReadOptions :=
  { options with limit := limit }

/-- The same read, strictly behind a position. -/
def behind (options : ReadOptions) (position : GlobalPosition) : ReadOptions :=
  { options with first := some position, firstInclusive := false }

/-- The read of the same rows in the other direction: the bounds change places, each with its
inclusiveness. -/
def turned (options : ReadOptions) : ReadOptions where
  direction := options.direction.turned
  first := options.last
  firstInclusive := options.lastInclusive
  last := options.first
  lastInclusive := options.firstInclusive
  streamStart := options.streamStart
  limit := options.limit

theorem wants_turned {options : ReadOptions} {row : RecordedEvent} :
    options.turned.Wants row ↔ options.Wants row := by
  constructor
  · rintro ⟨hfirst, hlast, hstart⟩
    exact ⟨fun bound hbound => (hlast bound hbound).imp_left Direction.leads_turned.mp,
      fun bound hbound => (hfirst bound hbound).imp_left Direction.leads_turned.mp, hstart⟩
  · rintro ⟨hfirst, hlast, hstart⟩
    exact ⟨fun bound hbound => (hlast bound hbound).imp_left Direction.leads_turned.mpr,
      fun bound hbound => (hfirst bound hbound).imp_left Direction.leads_turned.mpr, hstart⟩

/-- Behind a row that is read, those rows are read that are read and that it leads. -/
theorem wants_behind {options : ReadOptions} {stop row : RecordedEvent}
    (hstop : options.Wants stop) :
    (options.behind stop.position).Wants row ↔
      options.direction.Leads stop.position row.position ∧ options.Wants row := by
  constructor
  · rintro ⟨hfirst, hlast, hstart⟩
    have hleads : options.direction.Leads stop.position row.position :=
      (hfirst stop.position rfl).resolve_right fun h => Bool.false_ne_true h.1
    refine ⟨hleads, fun bound hbound => .inl ?_, hlast, hstart⟩
    rcases hstop.first bound hbound with hbefore | ⟨-, hat⟩
    · exact hbefore.trans hleads
    · exact hat ▸ hleads
  · rintro ⟨hleads, -, hlast, hstart⟩
    refine ⟨fun bound hbound => ?_, hlast, hstart⟩
    obtain rfl := Option.some.inj hbound
    exact .inl hleads

end ReadOptions

/-! ## The rows that are read -/

namespace TenantLog

variable {t : TenantLog} {options : ReadOptions}

/-- A log in a direction. -/
def ordered (t : TenantLog) : Direction → List RecordedEvent
  | .forward => t.log
  | .backward => t.log.reverse

theorem matching_eq (t : TenantLog) (options : ReadOptions) :
    t.matching options =
      (t.ordered options.direction).filter fun row => options.admits row.position row.stream := by
  unfold matching ordered
  cases options.direction <;> rfl

theorem Dense.ordered_pairwise (h : t.Dense) (d : Direction) :
    (t.ordered d).Pairwise fun row later => d.Leads row.position later.position := by
  have hnumbers := List.pairwise_lt_range' (s := 1) (n := t.log.length)
  rw [← h.positions, List.pairwise_map] at hnumbers
  have hforward := hnumbers.imp GlobalPosition.lt_iff_toNat_lt.mpr
  cases d with
  | forward => exact hforward
  | backward => exact List.pairwise_reverse.mpr hforward

theorem Dense.matching_ordered (h : t.Dense) (options : ReadOptions) :
    (t.matching options).Pairwise fun row later =>
      options.direction.Leads row.position later.position := by
  rw [matching_eq]
  exact (h.ordered_pairwise options.direction).filter _

theorem mem_matching_iff {row : RecordedEvent} :
    row ∈ t.matching options ↔ row ∈ t.log ∧ options.Wants row := by
  have hordered : row ∈ t.ordered options.direction ↔ row ∈ t.log := by
    unfold ordered
    cases options.direction <;> simp
  rw [matching_eq, List.mem_filter, hordered, ReadOptions.admits_iff]

@[simp] theorem matching_sized (limit : Option Nat) :
    t.matching (options.sized limit) = t.matching options := rfl

/-- Without a limit nothing is left out. -/
theorem rows_loadLog_sized_none : (t.loadLog (options.sized none)).rows = t.matching options := rfl

theorem matching_turned : t.matching options.turned = (t.matching options).reverse := by
  have hordered : t.ordered options.turned.direction = (t.ordered options.direction).reverse := by
    unfold ordered ReadOptions.turned Direction.turned
    cases options.direction <;> simp
  have hadmits : ∀ row : RecordedEvent, options.turned.admits row.position row.stream =
      options.admits row.position row.stream := fun row => by
    rw [Bool.eq_iff_iff, ReadOptions.admits_iff, ReadOptions.admits_iff, ReadOptions.wants_turned]
  rw [matching_eq, matching_eq, hordered, List.filter_reverse]
  simp only [hadmits]

/-- Strictly behind the last row of a slice are the rows that the slice left out. -/
theorem matching_behind (h : t.Dense) {slice rest : List RecordedEvent} {stop : RecordedEvent}
    (hsplit : t.matching options = slice ++ rest) (hstop : slice.getLast? = some stop) :
    t.matching (options.behind stop.position) = rest := by
  have hmem : stop ∈ slice := List.mem_of_getLast? hstop
  have hwants : options.Wants stop :=
    (mem_matching_iff.mp (hsplit ▸ List.mem_append_left rest hmem)).2
  obtain ⟨front, rfl⟩ := List.getLast?_eq_some_iff.mp hstop
  have hordered := h.matching_ordered options
  rw [hsplit, List.pairwise_append, List.pairwise_append] at hordered
  obtain ⟨⟨-, -, hfront⟩, -, hacross⟩ := hordered
  have hbehind : t.matching (options.behind stop.position) =
      (t.matching options).filter fun row =>
        options.direction.Leads stop.position row.position := by
    rw [matching_eq, matching_eq, List.filter_filter]
    refine List.filter_congr fun row _ => ?_
    rw [Bool.eq_iff_iff, ReadOptions.admits_iff, ReadOptions.wants_behind hwants,
      Bool.and_eq_true, decide_eq_true_iff, ReadOptions.admits_iff]
  have hnone : (front ++ [stop]).filter
      (fun row => options.direction.Leads stop.position row.position) = [] := by
    refine List.filter_eq_nil_iff.mpr fun row hrow hleads => ?_
    have hleads := of_decide_eq_true hleads
    rcases List.mem_append.mp hrow with hrow | hrow
    · exact (hleads.trans (hfront row hrow stop List.mem_cons_self)).not_self
    · exact (List.mem_singleton.mp hrow ▸ hleads).not_self
  have hall : rest.filter (fun row => options.direction.Leads stop.position row.position) =
      rest :=
    List.filter_eq_self.mpr fun row hrow => decide_eq_true (hacross stop hmem row hrow)
  rw [hbehind, hsplit, List.filter_append, hnone, hall, List.nil_append]

/-- One slice. Either it reaches the end and has all rows that are left, or it tells a position
behind which lies just what it left out. -/
theorem slice_cases (h : t.Dense) {limit : Nat} (hlimit : 0 < limit) {slice : LogSlice}
    (hslice : t.loadLog (options.sized (some limit)) = slice) :
    (slice.reachedEnd = true ∧ slice.rows = t.matching options) ∨
      (slice.reachedEnd = false ∧ slice.rows ≠ [] ∧ ∃ stop, slice.lastPosition = some stop ∧
        slice.rows ++ t.matching (options.behind stop) = t.matching options) := by
  subst hslice
  by_cases hall : (t.matching options).length ≤ limit
  · have hrows := List.take_of_length_le hall
    exact .inl ⟨decide_eq_true (Nat.le_of_eq (congrArg List.length hrows).symm), hrows⟩
  · have hlonger : ¬ (t.matching options).length ≤ ((t.matching options).take limit).length := by
      rw [List.length_take]
      omega
    have hne : (t.matching options).take limit ≠ [] := by
      rw [← List.length_pos_iff, List.length_take]
      omega
    have hstop := List.getLast?_eq_some_getLast hne
    refine .inr ⟨decide_eq_false hlonger, hne, _, congrArg (Option.map _) hstop, ?_⟩
    rw [matching_behind h (List.take_append_drop limit _).symm hstop]
    exact List.take_append_drop limit _

end TenantLog

namespace MemoryStore

variable {s : MemoryStore} {tenant : TenantId}

/-! ## The single read -/

/-- What a read without a limit gives: just the rows of the log that are wanted, each once and in
the order of its direction. -/
structure ReadsLog (s : MemoryStore) (tenant : TenantId) (options : ReadOptions)
    (slice : LogSlice) : Prop where
  mem_iff : ∀ row, row ∈ slice.rows ↔ row ∈ s.log tenant ∧ options.Wants row
  ordered : slice.rows.Pairwise fun row later => options.direction.Leads row.position later.position
  reachedEnd : slice.reachedEnd = true

theorem readsLog_loadLog (h : s.Dense) (options : ReadOptions) :
    s.ReadsLog tenant options ((s.tenant tenant).loadLog (options.sized none)) where
  mem_iff row := by
    rw [TenantLog.rows_loadLog_sized_none]
    exact TenantLog.mem_matching_iff
  ordered := (h tenant).matching_ordered options
  reachedEnd := decide_eq_true (Nat.le_refl _)

theorem rows_loadLog_turned (options : ReadOptions) :
    ((s.tenant tenant).loadLog (options.turned.sized none)).rows =
      ((s.tenant tenant).loadLog (options.sized none)).rows.reverse := TenantLog.matching_turned

/-! ## Reading in slices -/

/-- What a client reads that asks for one slice after the other, each strictly behind the last
position of the one before and otherwise with the same options, up to the slice that reaches the
end. `sizes` says how many rows it asks for each time. -/
inductive ReadsSlices (s : MemoryStore) (tenant : TenantId) (sizes : Nat → Nat) :
    Nat → ReadOptions → List LogSlice → Prop
  | ends {time : Nat} {options : ReadOptions} {slice : LogSlice}
      (hread : s.loadLog tenant (options.sized (some (sizes time))) = .ok slice)
      (hend : slice.reachedEnd = true) : ReadsSlices s tenant sizes time options [slice]
  | goesOn {time : Nat} {options : ReadOptions} {slice : LogSlice} {stop : GlobalPosition}
      {slices : List LogSlice}
      (hread : s.loadLog tenant (options.sized (some (sizes time))) = .ok slice)
      (hmore : slice.reachedEnd = false) (hstop : slice.lastPosition = some stop)
      (hrest : ReadsSlices s tenant sizes (time + 1) (options.behind stop) slices) :
      ReadsSlices s tenant sizes time options (slice :: slices)

/-- Slices that are not empty reach the end, whatever their sizes, and together have the rows of
the single read. -/
theorem exists_readsSlices (h : s.Dense) (havailable : s.available = true) {sizes : Nat → Nat}
    (hsizes : ∀ time, 0 < sizes time) (time : Nat) (options : ReadOptions) :
    ∃ slices, s.ReadsSlices tenant sizes time options slices ∧
      slices.flatMap LogSlice.rows = (s.tenant tenant).matching options := by
  -- Each slice that does not reach the end leaves fewer rows behind it.
  induction hleft : ((s.tenant tenant).matching options).length using Nat.strongRecOn
    generalizing time options with
  | ind left ih =>
    have hlimit : (options.sized (some (sizes time))).limit ≠ some 0 := fun hzero =>
      absurd (Option.some.inj hzero) (Nat.ne_of_gt (hsizes time))
    have hread : s.loadLog tenant (options.sized (some (sizes time))) = _ :=
      loadLog_of_available havailable hlimit
    rcases TenantLog.slice_cases (h tenant) (hsizes time) rfl with
      ⟨hend, hrows⟩ | ⟨hmore, hne, stop, hstop, hrows⟩
    · exact ⟨_, .ends hread hend, by rw [List.flatMap_singleton, hrows]⟩
    · have hpos := List.length_pos_iff.mpr hne
      have hlength := congrArg List.length hrows
      rw [List.length_append] at hlength
      obtain ⟨slices, hslices, hrest⟩ := ih _ (by omega) (time + 1) (options.behind stop) rfl
      exact ⟨_, .goesOn hread hmore hstop hslices, by rw [List.flatMap_cons, hrest, hrows]⟩

/-- **Slices are read exactly.** Take any store that calls lead to, a tenant and options of a read.
If the store can be reached, the read without a limit gives just the rows that are wanted, in the
order of its direction (`ReadsLog`); slices of any sizes above zero, each going on behind the last
position of the one before, reach the end, and only the last of them tells so, and together they
have the rows of the single read; and the read in the other direction, with the bounds changing
places, has the same rows in reverse. If the store cannot be reached, every read says so. -/
theorem slices_are_read_exactly (before : List StoreCall) (tenant : TenantId) :
    let s := MemoryStore.empty.afterCalls before
    (s.available = true → ∀ options : ReadOptions,
      ∃ whole, s.loadLog tenant (options.sized none) = .ok whole ∧
        s.ReadsLog tenant options whole ∧
        (∀ sizes : Nat → Nat, (∀ time, 0 < sizes time) →
          ∃ slices, s.ReadsSlices tenant sizes 0 options slices ∧
            slices.flatMap LogSlice.rows = whole.rows) ∧
        ∃ reverse, s.loadLog tenant (options.turned.sized none) = .ok reverse ∧
          reverse.rows = whole.rows.reverse) ∧
      (s.available = false → ∀ options : ReadOptions, options.limit ≠ some 0 →
        s.loadLog tenant options = .error .unavailable) := by
  intro s
  have hdense : s.Dense := afterCalls_dense dense_empty before
  refine ⟨fun havailable options => ?_, fun hgone options => loadLog_of_unavailable hgone⟩
  refine ⟨_, loadLog_of_available havailable nofun, readsLog_loadLog hdense options, ?_, _,
    loadLog_of_available havailable nofun, rows_loadLog_turned options⟩
  exact fun sizes hsizes => exists_readsSlices hdense havailable hsizes 0 options

open Sample in
/-- Three numbers and an account, of which the numbers above the first position are read backward,
in slices of one row. -/
theorem stocked_slices_are_read_exactly :
    let s := MemoryStore.empty.afterCalls [stocking .notCreated [1, 2], closing, stocking ⟨2⟩ [3]]
    let options : ReadOptions := ⟨.backward, some ⟨4⟩, true, some ⟨1⟩, false, some "seq-", none⟩
    s.available = true ∧ (s.log .default).length = 4 ∧
      ∃ slices, s.ReadsSlices .default (fun _ => 1) 0 options slices ∧
        (slices.flatMap LogSlice.rows).map (fun row => row.position.toNat) = [4, 2] := by
  intro s options
  obtain ⟨whole, hwhole, -, hslices, -⟩ :=
    (slices_are_read_exactly [stocking .notCreated [1, 2], closing, stocking ⟨2⟩ [3]]
      .default).1 rfl options
  obtain ⟨slices, hreads, hrows⟩ := hslices (fun _ => 1) fun _ => Nat.one_pos
  obtain rfl := Except.ok.inj hwhole
  exact ⟨rfl, rfl, slices, hreads, by rw [hrows]; rfl⟩

open Sample in
/-- A store that cannot be reached has rows, and no slices of it are read. -/
theorem unreachable_slices_are_not_read :
    let s := MemoryStore.empty.afterCalls [stocking .notCreated [1], .setAvailable false]
    (s.log .default).length = 1 ∧
      s.loadLog .default (.sized .everything (some 1)) = .error .unavailable ∧
      ¬ ∃ slices, s.ReadsSlices .default (fun _ => 1) 0 .everything slices := by
  refine ⟨rfl, rfl, ?_⟩
  rintro ⟨slices, hreads⟩
  cases hreads with
  | ends hread => cases hread
  | goesOn hread => cases hread

end MemoryStore

end Chronicle

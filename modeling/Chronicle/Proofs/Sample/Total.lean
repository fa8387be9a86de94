import Chronicle.Proofs.Sample.Branches
import Mathlib.Data.List.Nodup
import Mathlib.Data.Set.List

/-!
# The total of all balances

The view adds its balances up in 64 bits. The sum is exact where it fits and stops where it does not
(`Balances.sum_eq_ok_iff`, `Balances.sum_eq_error_iff`). Each row of a view that has followed events
belongs to one account (`Balances.Keyed`), so the sum is that of all accounts with a row. Every single
balance fits, since the account itself has seen to that; but nobody has seen to the sum.
-/

namespace Chronicle.Sample

namespace Balances

/-! ## Sums -/

/-- What is on some rows together, as a number without bounds. -/
def amount (rows : List BalanceRow) : Nat := (rows.map fun row => row.balance.toNat).sum

/-- A sum that comes out is exact, and comes out wherever it fits. -/
theorem sum_eq_ok_iff {rows : List BalanceRow} : ∀ {acc total : UInt64},
    sum acc rows = .ok total ↔ total.toNat = acc.toNat + amount rows := by
  induction rows with
  | nil =>
    intro acc total
    simp [sum, amount, ← UInt64.toNat_inj, eq_comm]
  | cons row rows ih =>
    intro acc total
    have hamount : amount (row :: rows) = row.balance.toNat + amount rows := rfl
    rw [sum, bind_eq_ok, hamount, ← Nat.add_assoc]
    constructor
    · rintro ⟨next, hnext, hrest⟩
      rw [ih.mp hrest, checkedAdd_eq_ok_iff_toNat.mp hnext]
    · intro htotal
      -- what all rows come to fits, so the first of them does
      have hfits : acc.toNat + row.balance.toNat < 2 ^ 64 := by
        have hlt := total.toNat_lt
        omega
      refine ⟨_, checkedAdd_eq_ok_iff.mpr ⟨hfits, rfl⟩, ih.mpr ?_⟩
      rw [htotal, UInt64.toNat_add, Nat.mod_eq_of_lt hfits]

/-- A sum that does not fit stops. -/
theorem sum_eq_error_iff {rows : List BalanceRow} {fault : Fault} : ∀ {acc : UInt64},
    sum acc rows = .error fault ↔ fault = .addition ∧ 2 ^ 64 ≤ acc.toNat + amount rows := by
  induction rows with
  | nil =>
    intro acc
    have hlt := acc.toNat_lt
    simp only [sum, reduceCtorEq, amount, List.map_nil, List.sum_nil, false_iff]
    omega
  | cons row rows ih =>
    intro acc
    have hamount : amount (row :: rows) = row.balance.toNat + amount rows := rfl
    rw [sum, bind_eq_error, hamount, ← Nat.add_assoc]
    constructor
    · rintro (hfirst | ⟨next, hnext, hrest⟩)
      · obtain ⟨hover, rfl⟩ := checkedAdd_eq_error_iff.mp hfirst
        exact ⟨rfl, by omega⟩
      · rw [ih, checkedAdd_eq_ok_iff_toNat.mp hnext] at hrest
        exact hrest
    · rintro ⟨rfl, hover⟩
      -- the bound is passed at the first row or behind it
      rcases Nat.lt_or_ge (acc.toNat + row.balance.toNat) (2 ^ 64) with hfits | hfirst
      · refine .inr ⟨_, checkedAdd_eq_ok_iff.mpr ⟨hfits, rfl⟩, ih.mpr ⟨rfl, ?_⟩⟩
        rwa [UInt64.toNat_add, Nat.mod_eq_of_lt hfits]
      · exact .inl (checkedAdd_eq_error_iff.mpr ⟨hfirst, rfl⟩)

/-! ## Rows and accounts -/

/-- Each row of a view belongs to one account, and each account has one row at most. -/
structure Keyed (view : Balances) : Prop where
  nodup : view.rows.keys.Nodup
  named : ∀ key ∈ view.rows.keys, key ∈ Set.range (InstanceId.toText : AccountId → String)

theorem keyed_empty : empty.Keyed := ⟨List.nodup_nil, fun _ => nofun⟩

theorem Keyed.set {view : Balances} (h : view.Keyed) (id : AccountId) (row : BalanceRow) :
    Keyed ⟨view.rows.set (InstanceId.toText id) row⟩ where
  nodup := Table.nodup_keys_set h.nodup _ row
  named key hin := by
    rw [Table.keys_set] at hin
    split at hin
    · exact h.named key hin
    · rcases List.mem_append.mp hin with hin | hin
      · exact h.named key hin
      · exact ⟨id, (List.mem_singleton.mp hin).symm⟩

theorem Keyed.erase {view : Balances} (h : view.Keyed) (id : AccountId) :
    Keyed ⟨view.rows.erase (InstanceId.toText id)⟩ where
  nodup := Table.nodup_keys_erase h.nodup _
  named key hin := by
    rw [Table.keys_erase] at hin
    exact h.named key (List.mem_of_mem_filter hin)

theorem Keyed.apply {view view' : Balances} (h : view.Keyed) {id : AccountId}
    {event : AccountEvent} (happly : view.apply id event = .ok view') : view'.Keyed := by
  cases event with
  | opened owner =>
    obtain rfl := Except.ok.inj happly
    exact h.set id _
  | deposited amount =>
    simp only [Balances.apply] at happly
    split at happly
    · obtain rfl := Except.ok.inj happly
      exact h
    · obtain ⟨balance, -, happly⟩ := bind_eq_ok.mp happly
      obtain rfl := Except.ok.inj happly
      exact h.set id _
  | withdrawn amount =>
    simp only [Balances.apply] at happly
    split at happly
    · obtain rfl := Except.ok.inj happly
      exact h
    · obtain rfl := Except.ok.inj happly
      exact h.set id _
  | closed =>
    obtain rfl := Except.ok.inj happly
    exact h.erase id

/-- What the view shows for an account, as a number without bounds. -/
def held (view : Balances) (id : AccountId) : Nat :=
  (view.get? id).elim 0 fun row => row.balance.toNat

/-- The rows of a view are those of the accounts that have one. -/
theorem Keyed.exists_accounts {view : Balances} (h : view.Keyed) :
    ∃ accounts : List AccountId, accounts.Nodup ∧
      (∀ id, id ∈ accounts ↔ ∃ row, view.get? id = some row) ∧
      amount view.rows.values = (accounts.map view.held).sum := by
  -- the keys are texts of accounts, and no two accounts have one text
  obtain ⟨accounts, haccounts⟩ : view.rows.keys ∈
      Set.range (List.map (InstanceId.toText : AccountId → String)) := by
    rw [Set.range_list_map]
    exact h.named
  refine ⟨accounts, List.Nodup.of_map _ (haccounts ▸ h.nodup), fun id => ?_, ?_⟩
  · rw [← Option.isSome_iff_exists, ← Option.ne_none_iff_isSome]
    refine Iff.trans ?_ Table.mem_keys_iff
    rw [← haccounts]
    exact (List.mem_map_of_injective fun _ _ => toText_account_inj).symm
  · have hheld : accounts.map view.held = (view.rows.keys.map view.rows.get?).map fun row =>
        row.elim 0 fun row => row.balance.toNat := by
      rw [← haccounts, List.map_map, List.map_map]
      rfl
    rw [hheld, Table.map_get?_keys h.nodup, List.map_map]
    rfl

/-- Some accounts are those with a row in a view, each named once, and the total of the view is what
they hold together if this fits into 64 bits. If it does not, there is no total. -/
structure AddsUp (view : Balances) (accounts : List AccountId) : Prop where
  nodup : accounts.Nodup
  named : ∀ id, id ∈ accounts ↔ ∃ row, view.get? id = some row
  total_eq : ∀ total, view.total = .ok total ↔ total.toNat = (accounts.map view.held).sum
  stops : ∀ fault, view.total = .error fault ↔
    fault = .addition ∧ 2 ^ 64 ≤ (accounts.map view.held).sum

theorem Keyed.addsUp {view : Balances} (h : view.Keyed) : ∃ accounts, view.AddsUp accounts := by
  obtain ⟨accounts, hnodup, hmem, hamount⟩ := h.exists_accounts
  refine ⟨accounts, hnodup, hmem, fun total => ?_, fun fault => ?_⟩
  · rw [Balances.total, sum_eq_ok_iff, hamount, UInt64.toNat_zero, Nat.zero_add]
  · rw [Balances.total, sum_eq_error_iff, hamount, UInt64.toNat_zero, Nat.zero_add]

end Balances

/-! ## In every history -/

section

variable {ρ : Type} [Projection Carrier ρ]

/-- Views stay keyed whatever they take. -/
theorem kept_keyed : Bus.Kept (κ := Carrier) fun view : Balances ⊕ ρ =>
    ∀ balances, view = .inl balances → balances.Keyed := by
  rintro (view | view) envelope changed hview hhandle balances rfl
  · obtain ⟨view', heq, hhandle⟩ := Bus.handle_inl hhandle
    obtain rfl := Sum.inl.inj heq
    rcases Balances.handle_cases hhandle with ⟨-, rfl⟩ | ⟨typed, -, happly⟩
    · exact hview _ rfl
    · exact (hview view rfl).apply happly
  · -- a view of another kind stays one
    obtain ⟨answer, -, heq⟩ := map_eq_ok.mp hhandle
    cases answer <;> cases heq

/-- **The total is exact where it fits.** Take any history in which the bus is not replaced, and that
begins with views without rows. Each view of balances that is on the bus then has rows for so many
accounts, and its total is what these hold together if this fits into 64 bits, and stops if not.

If the history is of accounts each of which is used in one tenant, if it begins without events and
announces all that it stores, and if the view was registered once from the beginning, then its rows
are those of the open accounts, with what their streams say that they hold. -/
theorem total_is_exact_where_it_fits (codec : Codec) (home : AccountId → TenantId)
    {w : World MemoryStore Carrier (Balances ⊕ ρ)}
    (hempty : ∀ view, .inl view ∈ w.bus.projections → view = .empty)
    (history : List (Happening Carrier (Balances ⊕ ρ)))
    (hwired : ∀ bus tracker, .rewired bus tracker ∉ history) :
    (∀ view, .inl view ∈ (w.afterAll history).bus.projections →
      ∃ accounts, view.AddsUp accounts) ∧
    ∀ {place : Nat} {old : Balances}, w.Fresh → w.bus.published = [] →
      (∀ h ∈ history, Branching codec home h) → w.Announced history →
      w.bus.registered.count place = 1 → w.bus.projections[place]? = some (.inl old) →
      ∃ view, (w.afterAll history).bus.projections[place]? = some (.inl view) ∧
        ∀ id, ∃ state, accountType.stateOf? codec
            (((w.afterAll history).store.tenant (home id)).rows (accountType.stream id)) =
          some state ∧ ∀ row, view.get? id = some row ↔
            state.closed = false ∧ state.owner = some row.owner ∧ state.balance = row.balance := by
  refine ⟨fun view hview => ?_, fun {place old} hfresh hsilent hbranching hannounced honce hold => ?_⟩
  · have hkeyed := World.afterAll_induction (Q := fun h => ∀ bus tracker, h ≠ .rewired bus tracker)
      (fun w h hunwired hviews => World.after_keeps kept_keyed w h hunwired hviews)
      (w := w) (fun view hin balances heq => hempty balances (heq ▸ hin) ▸ Balances.keyed_empty)
      history fun h hin bus tracker heq => hwired bus tracker (heq ▸ hin)
    exact (hkeyed _ hview view rfl).addsUp
  · obtain rfl := hempty old (List.mem_of_getElem? hold)
    obtain ⟨view, hlast, hrows⟩ :=
      rows_of_branching hfresh hsilent honce hold history hbranching hannounced
    refine ⟨view, hlast, fun id => ?_⟩
    obtain ⟨state, hstate, hrow⟩ := hrows id
    exact ⟨state, hstate, fun row => hrow ▸ AccountState.row?_eq_some⟩

end

/-! ## Two accounts -/

/-- Five in one branch and seven in the other are twelve. -/
theorem two_branches_hold_twelve : ∃ (view : Balances) (accounts : List AccountId),
    (branchOffice.afterAll (twoBranches 5 7)).bus.projections[0]? = some (.inl view) ∧
      view.AddsUp accounts ∧ view.total = .ok 12 ∧ (accounts.map view.held).sum = 12 ∧
      ∃ state, accountType.stateOf? .binary
          (((branchOffice.afterAll (twoBranches 5 7)).store.tenant ⟨"north"⟩).rows
            (accountType.stream ⟨.ofNat 8⟩)) = some state ∧
        state.closed = false ∧ state.owner = some "bob" ∧ state.balance = 7 := by
  have hannounced : branchOffice.Announced (twoBranches 5 7) :=
    announced_of_answered [_, _, _, _] (by decide +kernel)
  have honce : branchOffice.bus.registered.count 0 = 1 := rfl
  obtain ⟨hexact, hrows⟩ := total_is_exact_where_it_fits .binary branchOf (w := branchOffice)
    (fun view hin => Sum.inl.inj (List.mem_singleton.mp hin)) (twoBranches 5 7)
    (by simp [twoBranches])
  obtain ⟨view, hview, htold⟩ :=
    hrows ⟨rfl, rfl⟩ rfl (branching_twoBranches 5 7) hannounced honce rfl
  obtain ⟨accounts, haddsUp⟩ := hexact view (List.mem_of_getElem? hview)
  have hshown : viewShown (branchOffice.afterAll (twoBranches 5 7)) = some view :=
    viewShown_eq_some.mpr hview
  have hbob : view.get? ⟨.ofNat 8⟩ = some ⟨"bob", 7⟩ := by
    simpa [rowShown, hshown] using bob_is_shown
  have htwelve : view.total = .ok 12 := by
    have hsum : (viewShown (branchOffice.afterAll (twoBranches 5 7))).map Balances.total =
        some (.ok 12) := by decide +kernel
    simpa [hshown] using hsum
  obtain ⟨state, hstate, hiff⟩ := htold ⟨.ofNat 8⟩
  exact ⟨view, accounts, hview, haddsUp, htwelve, ((haddsUp.total_eq _).mp htwelve).symm, state,
    hstate, (hiff _).mp hbob⟩

/-- Half of what an account can hold in one branch and half of it in the other: all commands are
answered, and the balances have no total. -/
theorem two_halves_have_no_total :
    branchOffice.Announced (twoBranches 0x8000000000000000 0x8000000000000000) ∧
      (viewShown (branchOffice.afterAll (twoBranches 0x8000000000000000 0x8000000000000000))).map
        Balances.total = some (.error .addition) :=
  ⟨announced_of_answered [_, _, _, _] (by decide +kernel), by decide +kernel⟩

end Chronicle.Sample

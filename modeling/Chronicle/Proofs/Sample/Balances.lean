import Chronicle.Proofs.Bus.Publication
import Chronicle.Proofs.Sample.Ledger
import Chronicle.Sample.Balances

/-!
# What the view of balances shows

The view follows the events of all accounts at once, and by rules of its own: it drops the row of an
account that closes, passes over accounts that it does not know, and takes no balance below zero.
Where the events of each account are in good order (`InOrder`), the difference never shows: each
event finds the row that the state before it calls for, and leaves the one that the state behind it
calls for (`Balances.apply_of_admits`). So the rows are those of the states (`get?_of_follows`), and
no withdrawal ever finds less than it takes (`covers_of_follows`).
-/

namespace Chronicle.Sample

/-- The row that an account should have: who owns it and what is on it, while it is open and not
closed. -/
def AccountState.row? (state : AccountState) : Option BalanceRow :=
  if state.closed then none else state.owner.map fun owner => ⟨owner, state.balance⟩

theorem AccountState.row?_eq_some {state : AccountState} {row : BalanceRow} :
    state.row? = some row ↔
      state.closed = false ∧ state.owner = some row.owner ∧ state.balance = row.balance := by
  obtain ⟨owner, balance, closed⟩ := state
  obtain ⟨owner', balance'⟩ := row
  cases closed <;> cases owner <;> simp [row?]

theorem AccountState.row?_of_isActive {state : AccountState} (h : state.isActive = true) :
    ∃ owner, state.owner = some owner ∧ state.closed = false ∧
      state.row? = some ⟨owner, state.balance⟩ := by
  simp only [isActive, Bool.and_eq_true, Bool.not_eq_true'] at h
  obtain ⟨owner, howner⟩ := Option.isSome_iff_exists.mp h.1
  exact ⟨owner, howner, h.2, row?_eq_some.mpr ⟨h.2, howner, rfl⟩⟩

theorem toText_account_inj {id other : AccountId}
    (h : InstanceId.toText id = InstanceId.toText other) : id = other := by
  have hid := InstanceId.ofText_toText_account id
  rw [h, InstanceId.ofText_toText_account other] at hid
  exact (Except.ok.inj hid).symm

/-! ## One event -/

namespace Balances

variable {view view' : Balances} {id other : AccountId} {event : AccountEvent}
  {state moved : AccountState}

theorem get?_set (view : Balances) (id other : AccountId) (row : BalanceRow) :
    (⟨view.rows.set (InstanceId.toText id) row⟩ : Balances).get? other =
      if other = id then some row else view.get? other := by
  rw [get?, Table.get?_set]
  by_cases h : other = id
  · rw [if_pos h, if_pos (by rw [h])]
  · rw [if_neg h, if_neg (mt toText_account_inj h)]
    rfl

theorem get?_erase (view : Balances) (id other : AccountId) :
    (⟨view.rows.erase (InstanceId.toText id)⟩ : Balances).get? other =
      if other = id then none else view.get? other := by
  rw [get?, Table.get?_erase]
  by_cases h : other = id
  · rw [if_pos h, if_pos (by rw [h])]
  · rw [if_neg h, if_neg (mt toText_account_inj h)]
    rfl

/-- An event of one account changes no row of another. -/
theorem get?_apply_of_ne (h : view.apply id event = .ok view') (hne : other ≠ id) :
    view'.get? other = view.get? other := by
  cases event with
  | opened owner =>
    obtain rfl := Except.ok.inj h
    rw [get?_set, if_neg hne]
  | deposited amount =>
    cases hrow : view.get? id with
    | none =>
      simp only [apply, hrow] at h
      rw [Except.ok.inj h]
    | some row =>
      simp only [apply, hrow] at h
      obtain ⟨balance, -, h⟩ := bind_eq_ok.mp h
      obtain rfl := Except.ok.inj h
      rw [get?_set, if_neg hne]
  | withdrawn amount =>
    cases hrow : view.get? id with
    | none =>
      simp only [apply, hrow] at h
      rw [Except.ok.inj h]
    | some row =>
      simp only [apply, hrow] at h
      obtain rfl := Except.ok.inj h
      rw [get?_set, if_neg hne]
  | closed =>
    obtain rfl := Except.ok.inj h
    rw [get?_erase, if_neg hne]

/-- An event that its state admits turns the row of the state into that of the next. -/
theorem apply_of_admits (hrow : view.get? id = state.row?) (hadmits : state.Admits event)
    (hfirst : state.owner = none → state = .unopened)
    (hnext : AccountState.mutator.next? state event = some moved) :
    ∃ view', view.apply id event = .ok view' ∧ view'.get? id = moved.row? := by
  cases event with
  | opened owner =>
    obtain rfl := hfirst hadmits
    obtain rfl := Option.some.inj hnext
    exact ⟨_, rfl, by rw [get?_set, if_pos rfl]; rfl⟩
  | deposited amount =>
    obtain ⟨owner, howner, hopen, hactive⟩ := AccountState.row?_of_isActive hadmits.1
    obtain ⟨hfits, rfl⟩ := AccountState.next?_deposited_eq_some.mp hnext
    have hadd : checkedAdd state.balance amount = .ok (state.balance + amount) := if_pos hfits
    rw [hactive] at hrow
    refine ⟨_, by simp only [apply, hrow, hadd]; rfl, ?_⟩
    rw [get?_set, if_pos rfl]
    exact Eq.symm (AccountState.row?_eq_some.mpr ⟨hopen, howner, rfl⟩)
  | withdrawn amount =>
    obtain ⟨owner, howner, hopen, hactive⟩ := AccountState.row?_of_isActive hadmits.1
    obtain ⟨hle, rfl⟩ := AccountState.next?_withdrawn_eq_some.mp hnext
    rw [hactive] at hrow
    refine ⟨_, by simp only [apply, hrow, if_pos hle]; rfl, ?_⟩
    rw [get?_set, if_pos rfl]
    exact Eq.symm (AccountState.row?_eq_some.mpr ⟨hopen, howner, rfl⟩)
  | closed =>
    obtain rfl := Option.some.inj hnext
    exact ⟨_, rfl, by rw [get?_erase, if_pos rfl]; rfl⟩

end Balances

/-! ## The events of an account -/

section

variable {κ : Type} [Carries κ AccountId AccountEvent]

/-- The events of an account among some envelopes. -/
def accountEvents (id : AccountId) (envelopes : List (AnyEnvelope κ)) : List AccountEvent :=
  envelopes.filterMap fun envelope => (envelope.typed? AccountId AccountEvent).bind fun typed =>
    if typed.aggregateId = id then some typed.payload else none

theorem accountEvents_append (id : AccountId) (before since : List (AnyEnvelope κ)) :
    accountEvents id (before ++ since) = accountEvents id before ++ accountEvents id since :=
  List.filterMap_append

theorem accountEvents_of_none {envelope : AnyEnvelope κ}
    (h : envelope.typed? AccountId AccountEvent = none) (id : AccountId) :
    accountEvents id [envelope] = [] := by
  simp [accountEvents, h]

theorem accountEvents_of_some {envelope : AnyEnvelope κ}
    {typed : EventEnvelope AccountId AccountEvent}
    (h : envelope.typed? AccountId AccountEvent = some typed) (id : AccountId) :
    accountEvents id [envelope] = if typed.aggregateId = id then [typed.payload] else [] := by
  by_cases heq : typed.aggregateId = id <;> simp [accountEvents, h, heq]

/-- The events of each account among some envelopes have a state and are in good order. -/
def InOrder (envelopes : List (AnyEnvelope κ)) : Prop :=
  ∀ id, ∃ state, accountType.fold? (accountEvents id envelopes) = some state ∧
    WellFormed (accountEvents id envelopes)

theorem InOrder.initial {before since : List (AnyEnvelope κ)} (h : InOrder (before ++ since)) :
    InOrder before := fun id => by
  obtain ⟨state, hstate, hwell⟩ := h id
  rw [accountEvents_append] at hstate hwell
  obtain ⟨passing, hpassing, -⟩ := Option.bind_eq_some_iff.mp
    ((AggregateType.fold?_append ..).symm.trans hstate)
  exact ⟨passing, hpassing, hwell.initial⟩

/-- What the state of an account is before an event of it, and that it admits this event. -/
theorem InOrder.admits {envelopes : List (AnyEnvelope κ)} {envelope : AnyEnvelope κ}
    {typed : EventEnvelope AccountId AccountEvent} (h : InOrder (envelopes ++ [envelope]))
    (htyped : envelope.typed? AccountId AccountEvent = some typed) :
    ∃ state moved, accountType.fold? (accountEvents typed.aggregateId envelopes) = some state ∧
      accountType.fold? (accountEvents typed.aggregateId (envelopes ++ [envelope])) = some moved ∧
      AccountState.mutator.next? state typed.payload = some moved ∧
      state.Admits typed.payload ∧ (state.owner = none → state = .unopened) := by
  obtain ⟨moved, hmoved, hwell⟩ := h typed.aggregateId
  rw [accountEvents_append, accountEvents_of_some htyped, if_pos rfl] at hmoved hwell ⊢
  obtain ⟨state, hstate, hnext⟩ := AggregateType.fold?_concat_eq_some.mp hmoved
  refine ⟨state, moved, hstate, hmoved, hnext, hwell.admits hstate hnext, fun hnone => ?_⟩
  rw [(hwell.initial.eq_nil_iff hstate).mpr hnone] at hstate
  exact (Option.some.inj hstate).symm

/-! ## All events -/

/-- A withdrawal finds a row with as much as it takes. -/
def Balances.Covers (view : Balances) (envelope : AnyEnvelope κ) : Prop :=
  ∀ typed amount, envelope.typed? AccountId AccountEvent = some typed →
    typed.payload = .withdrawn amount →
      ∃ row, view.get? typed.aggregateId = some row ∧ amount ≤ row.balance

/-- The view handles an event of an account, or passes the envelope over. -/
theorem Balances.handle_cases {envelope : AnyEnvelope κ} {view view' : Balances}
    (h : Projection.handle view envelope = .ok (.ok view')) :
    envelope.typed? AccountId AccountEvent = none ∧ view' = view ∨
      ∃ typed, envelope.typed? AccountId AccountEvent = some typed ∧
        view.apply typed.aggregateId typed.payload = .ok view' := by
  cases htyped : envelope.typed? AccountId AccountEvent with
  | none =>
    simp only [Projection.handle, htyped] at h
    exact .inl ⟨rfl, (Except.ok.inj (Except.ok.inj h)).symm⟩
  | some typed =>
    simp only [Projection.handle, htyped] at h
    obtain ⟨_, happly, heq⟩ := map_eq_ok.mp h
    exact .inr ⟨typed, rfl, by rw [happly, Except.ok.inj heq]⟩

/-- A view keeps the row of an account that the envelopes it follows tell nothing of. -/
theorem get?_of_follows_nil {envelopes : List (AnyEnvelope κ)} {view view' : Balances}
    {id : AccountId} (h : Bus.Follows view envelopes view')
    (hnone : accountEvents id envelopes = []) : view'.get? id = view.get? id := by
  induction h with
  | nil => rfl
  | @cons _ _ _ envelope envelopes hfirst _ ih =>
    obtain ⟨hone, hrest⟩ := List.append_eq_nil_iff.mp
      ((accountEvents_append id [envelope] envelopes).symm.trans hnone)
    rw [ih hrest]
    rcases Balances.handle_cases hfirst with ⟨-, rfl⟩ | ⟨typed, htyped, happly⟩
    · rfl
    refine Balances.get?_apply_of_ne happly fun hown => ?_
    rw [accountEvents_of_some htyped, if_pos hown.symm] at hone
    cases hone

/-- Behind events in good order, the rows of the view are those of the states. -/
theorem get?_of_follows (envelopes : List (AnyEnvelope κ)) :
    ∀ {view : Balances}, Bus.Follows .empty envelopes view → InOrder envelopes →
      ∀ {id : AccountId} {state : AccountState},
        accountType.fold? (accountEvents id envelopes) = some state →
          view.get? id = state.row? := by
  induction envelopes using List.reverseRecOn with
  | nil =>
    intro view h _ id state hstate
    cases h
    obtain rfl := Option.some.inj hstate
    rfl
  | append_singleton envelopes envelope ih =>
    intro view h horder id state hstate
    obtain ⟨passing, hpassing, hlast⟩ := h.split
    obtain - | ⟨hhandle, ⟨⟩⟩ := hlast
    have hbefore := @ih passing hpassing horder.initial
    rcases Balances.handle_cases hhandle with ⟨htyped, rfl⟩ | ⟨typed, htyped, happly⟩
    · rw [accountEvents_append, accountEvents_of_none htyped, List.append_nil] at hstate
      exact hbefore hstate
    by_cases hown : typed.aggregateId = id
    · subst hown
      obtain ⟨before, moved, hfold, hmoved, hnext, hadmits, hfirst⟩ := horder.admits htyped
      obtain rfl := Option.some.inj (hmoved.symm.trans hstate)
      obtain ⟨view', happly', hrow⟩ :=
        Balances.apply_of_admits (hbefore hfold) hadmits hfirst hnext
      obtain rfl := Except.ok.inj (happly.symm.trans happly')
      exact hrow
    · rw [accountEvents_append, accountEvents_of_some htyped, if_neg hown,
        List.append_nil] at hstate
      rw [Balances.get?_apply_of_ne happly (Ne.symm hown)]
      exact hbefore hstate

/-- Among events in good order, every withdrawal finds as much as it takes. -/
theorem covers_of_follows {before since : List (AnyEnvelope κ)} {envelope : AnyEnvelope κ}
    {view : Balances} (h : Bus.Follows .empty (before ++ envelope :: since) view)
    (horder : InOrder (before ++ envelope :: since)) :
    ∃ passing, Bus.Follows Balances.empty before passing ∧ passing.Covers envelope := by
  obtain ⟨passing, hpassing, -⟩ := h.split
  have hsplit : before ++ envelope :: since = (before ++ [envelope]) ++ since := by simp
  have horder' := (hsplit ▸ horder).initial
  refine ⟨passing, hpassing, fun typed amount htyped hpayload => ?_⟩
  obtain ⟨state, moved, hstate, -, -, hadmits, -⟩ := horder'.admits htyped
  rw [hpayload] at hadmits
  obtain ⟨owner, -, -, hrow⟩ := AccountState.row?_of_isActive hadmits.1
  rw [← get?_of_follows before hpassing horder'.initial hstate] at hrow
  exact ⟨_, hrow, hadmits.2.2⟩

end

end Chronicle.Sample

import Chronicle.Proofs.Engine.Faithful
import Chronicle.Proofs.Sample.Account
import Chronicle.Sample.Carrier
import Mathlib.Algebra.GroupWithZero.Nat

/-!
# Accounts in good order

The transitions of an account check next to nothing: that its log is in good order (`WellFormed`)
is due to the handler, which looks at the state before it lets an event through. So the law of
accounts connects the two. What a state says of the events that led to it is proved of all events
that have a state (`balance_of_fold?`, `opened_iff`, `closed_iff`); what the handler lets through is
an event that the state admits (`AccountCommand.admits_of_play`); and a log in good order stays so
with such an event behind it (`WellFormed.concat`).
-/

namespace Chronicle.Sample

/-! ## Logs in good order -/

/-- What an event puts into its account. -/
def AccountEvent.deposit : AccountEvent → Nat
  | .deposited amount => amount.toNat
  | _ => 0

/-- What an event takes out of its account. -/
def AccountEvent.withdrawal : AccountEvent → Nat
  | .withdrawn amount => amount.toNat
  | _ => 0

def deposits (events : List AccountEvent) : Nat := (events.map AccountEvent.deposit).sum

def withdrawals (events : List AccountEvent) : Nat := (events.map AccountEvent.withdrawal).sum

/-- The first event of an account opens it, and no other does; if one closes it, that is the last;
amounts are positive, and never was more taken out than had been put in. -/
structure WellFormed (events : List AccountEvent) : Prop where
  opened : ∀ place event, events[place]? = some event →
    ((∃ owner, event = .opened owner) ↔ place = 0)
  closed : ∀ place, events[place]? = some .closed → place + 1 = events.length
  positive : ∀ amount, .deposited amount ∈ events ∨ .withdrawn amount ∈ events → 0 < amount
  covered : ∀ count, withdrawals (events.take count) ≤ deposits (events.take count)

theorem deposits_concat (events : List AccountEvent) (event : AccountEvent) :
    deposits (events ++ [event]) = deposits events + event.deposit := by
  simp [deposits]

theorem withdrawals_concat (events : List AccountEvent) (event : AccountEvent) :
    withdrawals (events ++ [event]) = withdrawals events + event.withdrawal := by
  simp [withdrawals]

theorem wellFormed_nil : WellFormed [] where
  opened _ _ h := by simp at h
  closed _ h := by simp at h
  positive _ h := by simp at h
  covered count := by simp [withdrawals]

theorem WellFormed.initial {before since : List AccountEvent} (h : WellFormed (before ++ since)) :
    WellFormed before where
  opened place event hevent := by
    obtain ⟨hlt, -⟩ := List.getElem?_eq_some_iff.mp hevent
    exact h.opened place event (by rwa [List.getElem?_append_left hlt])
  closed place hevent := by
    obtain ⟨hlt, -⟩ := List.getElem?_eq_some_iff.mp hevent
    have hlast := h.closed place (by rwa [List.getElem?_append_left hlt])
    rw [List.length_append] at hlast
    omega
  positive amount hmem :=
    h.positive amount (hmem.imp (List.mem_append_left since) (List.mem_append_left since))
  covered count := by
    have htake : before.take (min count before.length) = before.take count := by
      rw [List.take_eq_take_iff]
      omega
    have hcovered := h.covered (min count before.length)
    rwa [List.take_append_of_le_length (Nat.min_le_right ..), htake] at hcovered

/-! ## The transitions -/

namespace AccountState

variable {state moved : AccountState} {amount : UInt64}

/-- The transition of an event. -/
def transition : AccountEvent → Transition AccountState AccountEvent
  | .opened _ => onOpened
  | .deposited _ => onDeposited
  | .withdrawn _ => onWithdrawn
  | .closed => onClosed

theorem find?_kind (event : AccountEvent) :
    mutator.find? (EventKind.kind event) = some (transition event) := by
  cases event <;> rfl

theorem next?_deposited_eq_some :
    mutator.next? state (.deposited amount) = some moved ↔
      state.balance.toNat + amount.toNat < 0x10000000000000000 ∧
        moved = { state with balance := state.balance + amount } := by
  show ((checkedAdd state.balance amount).map fun balance => { state with balance }).toOption =
    some moved ↔ _
  unfold checkedAdd
  split
  · next hfits => simp [Except.map, Except.toOption, hfits, eq_comm]
  · next hfits => simp [Except.map, Except.toOption, hfits]

theorem next?_withdrawn_eq_some :
    mutator.next? state (.withdrawn amount) = some moved ↔
      amount ≤ state.balance ∧ moved = { state with balance := state.balance - amount } := by
  show ((checkedSub state.balance amount).map fun balance => { state with balance }).toOption =
    some moved ↔ _
  unfold checkedSub
  split
  · next hle => simp [Except.map, Except.toOption, hle, eq_comm]
  · next hle => simp [Except.map, Except.toOption, hle]

end AccountState

/-! ## What a state says of its events -/

section

variable {events : List AccountEvent} {state : AccountState}

/-- The balance is what was put in less what was taken out, as numbers without bounds. -/
theorem balance_of_fold? (h : accountType.fold? events = some state) :
    state.balance.toNat + withdrawals events = deposits events := by
  refine AggregateType.fold?_induction (A := accountType)
    (P := fun events state => state.balance.toNat + withdrawals events = deposits events) rfl
    (fun events event state moved _ ih hnext => ?_) events h
  rw [deposits_concat, withdrawals_concat]
  cases event with
  | opened owner =>
    obtain rfl := Option.some.inj hnext
    exact ih
  | deposited amount =>
    obtain ⟨hfits, rfl⟩ := AccountState.next?_deposited_eq_some.mp hnext
    have hsum : (state.balance + amount).toNat = state.balance.toNat + amount.toNat := by
      rw [UInt64.toNat_add, Nat.mod_eq_of_lt hfits]
    simp only [AccountEvent.deposit, AccountEvent.withdrawal, hsum]
    omega
  | withdrawn amount =>
    obtain ⟨hle, rfl⟩ := AccountState.next?_withdrawn_eq_some.mp hnext
    have hdifference := UInt64.toNat_sub_of_le _ _ hle
    have hle' := UInt64.le_iff_toNat_le.mp hle
    simp only [AccountEvent.deposit, AccountEvent.withdrawal, hdifference]
    omega
  | closed =>
    obtain rfl := Option.some.inj hnext
    exact ih

/-- An event changes the owner of an account only if it opens it. -/
theorem owner_of_next? {event : AccountEvent} {moved : AccountState}
    (h : AccountState.mutator.next? state event = some moved) :
    (∃ owner, event = .opened owner ∧ moved.owner = some owner) ∨
      (∀ owner, event ≠ .opened owner) ∧ moved.owner = state.owner := by
  cases event with
  | opened owner =>
    obtain rfl := Option.some.inj h
    exact Or.inl ⟨owner, rfl, rfl⟩
  | deposited amount =>
    obtain ⟨-, rfl⟩ := AccountState.next?_deposited_eq_some.mp h
    exact Or.inr ⟨fun _ => nofun, rfl⟩
  | withdrawn amount =>
    obtain ⟨-, rfl⟩ := AccountState.next?_withdrawn_eq_some.mp h
    exact Or.inr ⟨fun _ => nofun, rfl⟩
  | closed =>
    obtain rfl := Option.some.inj h
    exact Or.inr ⟨fun _ => nofun, rfl⟩

/-- An account has an owner where an event opened it, and that event names the owner. -/
theorem owner_of_fold? (h : accountType.fold? events = some state) :
    (state.owner = none ↔ ∀ owner, .opened owner ∉ events) ∧
      ∀ owner ∈ state.owner, .opened owner ∈ events := by
  refine AggregateType.fold?_induction (A := accountType)
    (P := fun events state => (state.owner = none ↔ ∀ owner, .opened owner ∉ events) ∧
      ∀ owner ∈ state.owner, .opened owner ∈ events) ?_
    (fun events event state moved _ ih hnext => ?_) events h
  · exact ⟨⟨fun _ owner => List.not_mem_nil, fun _ => rfl⟩, fun owner hin => by cases hin⟩
  · rcases owner_of_next? hnext with ⟨owner, rfl, howner⟩ | ⟨hother, howner⟩
    · rw [howner]
      refine ⟨⟨nofun, fun hnone => absurd ?_ (hnone owner)⟩, ?_⟩
      · simp
      · rintro _ ⟨⟩
        simp
    · have hmem : ∀ owner, .opened owner ∈ events ++ [event] ↔ .opened owner ∈ events := by
        intro owner
        simp [(hother owner).symm]
      simp only [howner, hmem]
      exact ih

theorem closed_of_fold? (h : accountType.fold? events = some state) :
    state.closed = true ↔ .closed ∈ events := by
  refine AggregateType.fold?_induction (A := accountType)
    (P := fun events state => state.closed = true ↔ .closed ∈ events) ?_
    (fun events event state moved _ ih hnext => ?_) events h
  · exact ⟨nofun, nofun⟩
  · cases event with
    | opened owner =>
      obtain rfl := Option.some.inj hnext
      simpa using ih
    | deposited amount =>
      obtain ⟨-, rfl⟩ := AccountState.next?_deposited_eq_some.mp hnext
      simpa using ih
    | withdrawn amount =>
      obtain ⟨-, rfl⟩ := AccountState.next?_withdrawn_eq_some.mp hnext
      simpa using ih
    | closed =>
      obtain rfl := Option.some.inj hnext
      simp

end

/-! ## What the handler lets through -/

/-- What a state lets happen next. -/
def AccountState.Admits (state : AccountState) : AccountEvent → Prop
  | .opened _ => state.owner = none
  | .deposited amount => state.isActive = true ∧ 0 < amount
  | .withdrawn amount => state.isActive = true ∧ 0 < amount ∧ amount ≤ state.balance
  | .closed => state.isActive = true

/-- The event that a command asks for. -/
def AccountCommand.event : AccountCommand → AccountEvent
  | .openFor owner => .opened owner
  | .deposit amount => .deposited amount
  | .withdraw amount => .withdrawn amount
  | .close => .closed

/-- A command does nothing but accept or refuse, or the state admits the event it asks for, and
this is let through. -/
theorem AccountCommand.handle_cases (command : CommandEnvelope AccountId AccountCommand)
    (state : AccountState) :
    AccountCommand.handle command state = .accept ∨
      (∃ reason, AccountCommand.handle command state = .reject reason) ∨
      AccountCommand.handle command state = .emitOnly command.payload.event ∧
        state.Admits command.payload.event := by
  unfold AccountCommand.handle
  cases command.payload with
  | openFor owner =>
    dsimp only
    split
    · next hnone => exact .inr (.inr ⟨rfl, Option.isNone_iff_eq_none.mp hnone⟩)
    · exact .inl rfl
  | deposit amount =>
    dsimp only
    split
    · exact .inr (.inl ⟨_, rfl⟩)
    next hzero =>
    split
    · next hactive => exact .inr (.inr ⟨rfl, hactive, UInt64.pos_iff_ne_zero.mpr hzero⟩)
    · exact .inr (.inl ⟨_, rfl⟩)
  | withdraw amount =>
    dsimp only
    split
    · next hactive =>
      split
      · next hcovered => exact .inr (.inr ⟨rfl, hactive, hcovered⟩)
      · exact .inl rfl
    · exact .inr (.inl ⟨_, rfl⟩)
  | close =>
    dsimp only
    split
    · next hactive => exact .inr (.inr ⟨rfl, hactive⟩)
    · exact .inl rfl

/-- What a command applies is nothing, or one event that the state admits. -/
theorem AccountCommand.admits_of_play {command : CommandEnvelope AccountId AccountCommand}
    {state : AccountState} {version : Version} {play : Play AccountState AccountEvent}
    (h : (AccountCommand.handle command state).play AccountState.mutator state version = .ok play) :
    play.events = [] ∨ ∃ event, play.events = [event] ∧ state.Admits event := by
  rcases handle_cases command state with haccept | ⟨reason, hreject⟩ | ⟨hemit, hadmits⟩
  · rw [haccept] at h
    obtain rfl := Except.ok.inj h
    exact .inl rfl
  · rw [hreject] at h
    obtain rfl := Except.ok.inj h
    exact .inl rfl
  · rw [hemit] at h
    obtain ⟨_, _, -, -, rfl⟩ := Decision.play_emitOnly_eq_ok (AccountState.find?_kind _) h
    exact .inr ⟨_, rfl, hadmits⟩

theorem AccountCommand.not_abandoned {command : CommandEnvelope AccountId AccountCommand}
    {state : AccountState} {version : Version} {play : Play AccountState AccountEvent}
    (h : (AccountCommand.handle command state).play AccountState.mutator state version = .ok play)
    (error : AggregateError) : play.verdict ≠ .abandoned error := by
  rcases handle_cases command state with haccept | ⟨reason, hreject⟩ | ⟨hemit, -⟩
  · rw [haccept] at h
    obtain rfl := Except.ok.inj h
    nofun
  · rw [hreject] at h
    obtain rfl := Except.ok.inj h
    nofun
  · rw [hemit] at h
    obtain ⟨_, _, -, -, rfl⟩ := Decision.play_emitOnly_eq_ok (AccountState.find?_kind _) h
    nofun

/-! ## The law of accounts -/

section

variable {events : List AccountEvent} {state : AccountState} {event : AccountEvent}

theorem WellFormed.eq_nil_iff (h : WellFormed events)
    (hstate : accountType.fold? events = some state) : events = [] ↔ state.owner = none := by
  rw [(owner_of_fold? hstate).1]
  constructor
  · rintro rfl owner
    exact List.not_mem_nil
  · intro hnone
    cases events with
    | nil => rfl
    | cons first events =>
      obtain ⟨owner, rfl⟩ := (h.opened 0 first rfl).mpr rfl
      exact absurd (List.mem_cons_self ..) (hnone owner)

/-- An event that only an active account admits comes behind the one that opened it, and behind
none that closed it. -/
theorem WellFormed.of_isActive (h : WellFormed events)
    (hstate : accountType.fold? events = some state) (hactive : state.isActive = true) :
    events ≠ [] ∧ .closed ∉ events := by
  simp only [AccountState.isActive, Bool.and_eq_true, Bool.not_eq_true'] at hactive
  refine ⟨fun hnil => ?_, fun hclosed => ?_⟩
  · rw [(h.eq_nil_iff hstate).mp hnil] at hactive
    cases hactive.1
  · rw [(closed_of_fold? hstate).mpr hclosed] at hactive
    cases hactive.2

/-- A log in good order stays so when an event is put behind it that its state admits. -/
theorem WellFormed.concat (h : WellFormed events) (hstate : accountType.fold? events = some state)
    (hadmits : state.Admits event) : WellFormed (events ++ [event]) where
  opened place found hfound := by
    rcases Nat.lt_or_ge place events.length with hlt | hge
    · rw [List.getElem?_append_left hlt] at hfound
      exact h.opened place found hfound
    have hlast := (List.getElem?_eq_some_iff.mp hfound).1
    rw [List.length_append, List.length_singleton] at hlast
    obtain rfl : place = events.length := by omega
    rw [List.getElem?_concat_length] at hfound
    obtain rfl := Option.some.inj hfound
    rw [List.length_eq_zero_iff]
    cases event with
    | opened owner => exact ⟨fun _ => (h.eq_nil_iff hstate).mpr hadmits, fun _ => ⟨owner, rfl⟩⟩
    | deposited | withdrawn =>
      exact ⟨nofun, fun hnil => absurd hnil (h.of_isActive hstate hadmits.1).1⟩
    | closed => exact ⟨nofun, fun hnil => absurd hnil (h.of_isActive hstate hadmits).1⟩
  closed place hclosed := by
    rcases Nat.lt_or_ge place events.length with hlt | hge
    · rw [List.getElem?_append_left hlt] at hclosed
      have hmem := List.mem_of_getElem? hclosed
      cases event with
      | opened owner =>
        rw [(h.eq_nil_iff hstate).mpr hadmits] at hmem
        cases hmem
      | deposited | withdrawn => exact absurd hmem (h.of_isActive hstate hadmits.1).2
      | closed => exact absurd hmem (h.of_isActive hstate hadmits).2
    · have hlt := (List.getElem?_eq_some_iff.mp hclosed).1
      rw [List.length_append, List.length_singleton] at hlt ⊢
      omega
  positive amount hmem := by
    simp only [List.mem_append, List.mem_singleton] at hmem
    rcases hmem with (hold | rfl) | (hold | rfl)
    · exact h.positive amount (.inl hold)
    · exact hadmits.2
    · exact h.positive amount (.inr hold)
    · exact hadmits.2.1
  covered count := by
    rcases Nat.lt_or_ge events.length count with hall | hle
    · rw [List.take_of_length_le (by simp; omega), deposits_concat, withdrawals_concat]
      have hbalance := balance_of_fold? hstate
      cases event with
      | withdrawn amount =>
        have hle := UInt64.le_iff_toNat_le.mp hadmits.2.2
        simp only [AccountEvent.deposit, AccountEvent.withdrawal]
        omega
      | _ =>
        simp only [AccountEvent.deposit, AccountEvent.withdrawal]
        omega
    · rw [List.take_append_of_le_length hle]
      exact h.covered count

/-- Behind the event that opens an account, and before one closes it, the account is active. -/
theorem WellFormed.isActive_of_concat (h : WellFormed (events ++ [event]))
    (hstate : accountType.fold? events = some state) (hother : ∀ owner, event ≠ .opened owner) :
    state.isActive = true := by
  have hne : events ≠ [] := by
    rintro rfl
    obtain ⟨owner, heq⟩ := (h.opened 0 event rfl).mpr rfl
    exact hother owner heq
  have howner : state.owner ≠ none := mt (h.initial.eq_nil_iff hstate).mpr hne
  have hopen : state.closed ≠ true := fun hclosed => by
    obtain ⟨place, hlt, hplace⟩ := List.mem_iff_getElem.mp ((closed_of_fold? hstate).mp hclosed)
    have hlast := h.closed place (by
      rw [List.getElem?_append_left hlt, List.getElem?_eq_getElem hlt, hplace])
    rw [List.length_append, List.length_singleton] at hlast
    omega
  simp only [AccountState.isActive, Bool.and_eq_true, Bool.not_eq_true']
  exact ⟨Option.isSome_iff_ne_none.mpr howner, Bool.eq_false_iff.mpr hopen⟩

/-- The last event of a log in good order is one that the state before it admits. -/
theorem WellFormed.admits (h : WellFormed (events ++ [event]))
    (hstate : accountType.fold? events = some state) {moved : AccountState}
    (hnext : AccountState.mutator.next? state event = some moved) : state.Admits event := by
  cases event with
  | opened owner =>
    have hfirst := (h.opened events.length _ List.getElem?_concat_length).mp ⟨owner, rfl⟩
    exact (h.initial.eq_nil_iff hstate).mp (List.length_eq_zero_iff.mp hfirst)
  | deposited amount =>
    exact ⟨h.isActive_of_concat hstate nofun, h.positive amount (.inl (by simp))⟩
  | withdrawn amount =>
    exact ⟨h.isActive_of_concat hstate nofun, h.positive amount (.inr (by simp)),
      (AccountState.next?_withdrawn_eq_some.mp hnext).1⟩
  | closed => exact h.isActive_of_concat hstate nofun

end

/-- The names in a log in good order can be counted. -/
structure Ledger (events : List AccountEvent) : Prop extends WellFormed events where
  fits : ∀ event ∈ events, event.Fits

/-- Commands with names that can be counted keep the logs of accounts in good order, in either
codec. -/
theorem accountType_upholds (codec : Codec) :
    accountType.Upholds codec (fun command => command.payload.Fits) Ledger where
  id := accountType_ofText_toText
  nil := ⟨wellFormed_nil, fun _ hin => by cases hin⟩
  initial before since h :=
    ⟨h.toWellFormed.initial, fun event hin => h.fits event (List.mem_append_left _ hin)⟩
  event events h event hin data hdata := AccountEvent.decode_encode (h.fits event hin) hdata
  state events state _ h _ hfold := by
    refine AccountState.decode_encode fun owner howner => ?_
    exact h.fits _ ((owner_of_fold? hfold).2 owner howner)
  step command events state version play hfits h hfold hplay _ := by
    have hfits' := (AccountCommand.onlyApplies_handle hfits state).mem_events hplay
    refine ⟨?_, fun event hin => ?_⟩
    · rcases AccountCommand.admits_of_play hplay with hnone | ⟨event, hone, hadmits⟩
      · rw [hnone, List.append_nil]
        exact h.toWellFormed
      · rw [hone]
        exact h.toWellFormed.concat hfold hadmits
    · exact (List.mem_append.mp hin).elim (h.fits event) (hfits' event)

/-! ## A command -/

/-- A command to one account, sent by an engine with the standard settings. -/
def teller (command : AccountCommand) : Task Carrier where
  settings := .standard
  A := accountType
  command := .new ⟨.ofNat 5⟩ command ⟨.ofNat 6⟩ ⟨.ofNat 7⟩ ⟨0, 0⟩

end Chronicle.Sample

import Chronicle.Proofs.Engine.Outcome
import Chronicle.Proofs.Sample.Ledger
import Chronicle.Proofs.Store.Pages

/-!
# Where a command to an account stops

The handler of accounts sees to it that no more is taken out than there is, but it does not look
how much more an account can hold. So a deposit that the balance has no room for is let through,
and its transition stops with a fault instead of an answer. This is the only way in which a command
to an account stops by itself (`account_sends_stop_on_overflow_only`).
-/

namespace Chronicle

namespace Sample

/-- The account takes deposits, and the balance has no room for this one. -/
def AccountState.Overflows (state : AccountState) : AccountCommand → Prop
  | .deposit amount =>
    state.isActive = true ∧ 0x10000000000000000 ≤ state.balance.toNat + amount.toNat
  | _ => False

/-- Of the events that a state admits, only a deposit can have a transition that stops. -/
theorem AccountState.transition_eq_error {state : AccountState} {event : AccountEvent}
    {fault : Fault} (hadmits : state.Admits event)
    (h : transition event event state = .error fault) :
    (∃ amount, event = .deposited amount ∧ state.isActive = true ∧
      0x10000000000000000 ≤ state.balance.toNat + amount.toNat) ∧ fault = .addition := by
  cases event with
  | opened | closed => cases h
  | deposited amount =>
    rcases bind_eq_error.mp h with hsum | ⟨sum, -, h⟩
    · obtain ⟨hfull, rfl⟩ := checkedAdd_eq_error_iff.mp hsum
      exact ⟨⟨amount, rfl, hadmits.1, hfull⟩, rfl⟩
    · cases h
  | withdrawn amount =>
    have hdifference : checkedSub state.balance amount = .ok (state.balance - amount) :=
      checkedSub_eq_ok_iff.mpr ⟨hadmits.2.2, rfl⟩
    rcases bind_eq_error.mp h with hless | ⟨difference, -, h⟩
    · rw [hdifference] at hless
      cases hless
    · cases h

/-- A command stops while it is decided only where the balance or the version has no room. -/
theorem AccountCommand.play_eq_error {command : CommandEnvelope AccountId AccountCommand}
    {state : AccountState} {version : Version} {fault : Fault}
    (h : (AccountCommand.handle command state).play AccountState.mutator state version =
      .error fault) :
    (state.Overflows command.payload ∨ version.toNat + 1 = 0x10000000000000000) ∧
      fault = .addition := by
  rcases handle_cases command state with haccept | ⟨reason, hreject⟩ | ⟨hemit, hadmits⟩
  · rw [haccept] at h
    cases h
  · rw [hreject] at h
    cases h
  rw [hemit, Decision.play_emitOnly (AccountState.find?_kind _)] at h
  rcases bind_eq_error.mp h with hnext | ⟨following, -, h⟩
  · obtain ⟨hfull, rfl⟩ := Version.next_eq_error hnext
    exact ⟨.inr hfull, rfl⟩
  rcases bind_eq_error.mp h with hmoved | ⟨moved, -, h⟩
  · obtain ⟨⟨amount, hevent, hfull⟩, rfl⟩ := AccountState.transition_eq_error hadmits hmoved
    refine ⟨.inl ?_, rfl⟩
    cases hpayload : command.payload with
    | deposit other =>
      rw [hpayload] at hevent
      obtain rfl := AccountEvent.deposited.inj hevent
      exact hfull
    | openFor | withdraw | close =>
      rw [hpayload] at hevent
      cases hevent
  · cases h

theorem AccountState.Overflows.play_eq {command : CommandEnvelope AccountId AccountCommand}
    {state : AccountState} (h : state.Overflows command.payload) (version : Version) :
    (AccountCommand.handle command state).play AccountState.mutator state version =
      .error .addition := by
  cases hpayload : command.payload with
  | deposit amount =>
    rw [hpayload] at h
    obtain ⟨hactive, hfull⟩ := h
    have hpositive : amount ≠ 0 := by
      rintro rfl
      have hlt := state.balance.toNat_lt
      have h0 : (0 : UInt64).toNat = 0 := rfl
      omega
    have hhandle : AccountCommand.handle command state = .emitOnly (.deposited amount) := by
      simp only [AccountCommand.handle, hpayload, if_neg hpositive, if_pos hactive]
    have hsum := checkedAdd_eq_error_iff.mpr ⟨hfull, rfl⟩
    have hmoved : AccountState.transition (.deposited amount) (.deposited amount) state =
        .error .addition := by
      show (checkedAdd state.balance amount >>= _) = _
      rw [hsum]
      rfl
    rw [hhandle, Decision.play_emitOnly (AccountState.find?_kind _), hmoved]
    cases hnext : version.next with
    | ok following => rfl
    | error found => rw [(Version.next_eq_error hnext).2]; rfl
  | openFor | withdraw | close =>
    rw [hpayload] at h
    cases h

end Sample

namespace Engine

open Sample

section

variable {κ π : Type} [Projection κ π] [Carries κ AccountId AccountEvent]

/-- **Only a full account stops a command.** In the world behind any history in which an account is
written by commands to accounts only, a deposit that its balance has no room for stops with a fault.
No command to the account stops otherwise, unless the log of the tenant is full, which has then
2⁶⁴ − 1 events, or the publication of its events stops, which are stored by then. -/
theorem account_sends_stop_on_overflow_only (settings : Settings)
    (command : CommandEnvelope AccountId AccountCommand) {first : World MemoryStore κ π}
    (hfresh : first.Fresh) {history : List (Happening κ π)}
    (hheeds : ∀ h ∈ history, h.Heeds accountType settings.codec
      (fun command => command.payload.Fits) command.tenant
      (accountType.stream command.aggregateId)) :
    let w := first.afterAll history
    ∃ state : AccountState,
      accountType.stateOf? settings.codec ((w.store.tenant command.tenant).rows
        (accountType.stream command.aggregateId)) = some state ∧
      (w.started = true → w.store.available = true → state.Overflows command.payload →
        send settings accountType command w = .error .addition) ∧
      ∀ fault, send settings accountType command w = .error fault →
        (state.Overflows command.payload ∨
          (w.store.log command.tenant).length + 1 = 0x10000000000000000) ∧ fault = .addition ∨
        ∃ p version w', (⟨settings, accountType, command⟩ : Task κ).run 4 .waiting w =
            (.saved p version, w') ∧ publish accountType p.envelopes w' = .error fault := by
  intro w
  let t : Task κ := ⟨settings, accountType, command⟩
  have hlawful : w.Lawful accountType settings.codec Ledger command.tenant
      (accountType.stream command.aggregateId) :=
    World.afterAll_lawful (accountType_upholds settings.codec)
      (hfresh.lawful (accountType_upholds settings.codec).nil) history hheeds
  obtain ⟨state, hstate⟩ := hlawful.means
  refine ⟨state, hstate, fun hstarted havailable hoverflows => ?_, fun fault hfault => ?_⟩
  · obtain ⟨stage, w', hrun, -, hstage⟩ :=
      Task.run_decides (t := t) hstarted havailable rfl hlawful.toSound hstate
    have hstopped := hstage.eq_stopped (hoverflows.play_eq _)
    rw [Task.send_eq_error_iff (t := t), hrun 3, hstopped, Task.run_of_isOver rfl]
  have hroom := hlawful.dense.length_log_lt command.tenant
  cases Task.stops_of_fault (t := t) rfl hlawful.toSound hstate hfault with
  | decision hplay =>
    obtain ⟨hcause, rfl⟩ := AccountCommand.play_eq_error hplay
    refine .inl ⟨hcause.imp_right fun hfull => ?_, rfl⟩
    have hlast : (w.store.version command.tenant (accountType.stream command.aggregateId)).toNat +
      1 = 0x10000000000000000 := hfull
    have hle := hlawful.dense.toNat_version_le command.tenant
      (accountType.stream command.aggregateId)
    omega
  | full hplay hfull hfault =>
    refine .inl ⟨.inr ?_, hfault⟩
    change _ ≤ (w.store.log command.tenant).length + _ at hfull
    rcases AccountCommand.admits_of_play hplay with hnone | ⟨event, hone, -⟩
    · rw [hnone, List.length_nil] at hfull
      omega
    · rw [hone, List.length_singleton] at hfull
      omega
  | publication hrun hpublish => exact .inr ⟨_, _, _, hrun, hpublish⟩

end

/-! ## Full accounts -/

/-- The world in which an account was opened and some amounts were put in. -/
def savings (amounts : List UInt64) : World MemoryStore Carrier Inert :=
  World.blank.afterAll (.sent (teller (.openFor "ada")) ::
    amounts.map fun amount => .sent (teller (.deposit amount)))

/-- The account holds as much as it can, and one more stops the engine. -/
theorem deposit_to_full_account_stops :
    accountType.stateOf? .binary (((savings [0xffffffffffffffff]).store.tenant .default).rows
        (accountType.stream ⟨.ofNat 5⟩)) = some ⟨some "ada", 0xffffffffffffffff, false⟩ ∧
      send .standard accountType (teller (.deposit 1)).command (savings [0xffffffffffffffff]) =
        .error .addition :=
  ⟨by decide +kernel, by decide +kernel⟩

/-- Half of what an account can hold can be put in once. -/
theorem second_half_stops :
    send .standard accountType (teller (.deposit 0x8000000000000000)).command
      (savings [0x8000000000000000]) = .error .addition := by
  have hname : ("ada" : String).utf8ByteSize < UInt64.size := by decide
  have hheeds : ∀ h ∈ [Happening.sent (π := Inert) (teller (.openFor "ada")),
      .sent (teller (.deposit 0x8000000000000000))],
      h.Heeds accountType .binary (fun command => command.payload.Fits) .default
        (accountType.stream ⟨.ofNat 5⟩) := by
    intro h hin
    rcases List.mem_pair.mp hin with rfl | rfl
    · exact fun _ => .of rfl hname
    · exact fun _ => .of rfl trivial
  obtain ⟨state, hstate, hstops, -⟩ := account_sends_stop_on_overflow_only .standard
    (teller (.deposit 0x8000000000000000)).command World.fresh_blank hheeds
  have hfound : accountType.stateOf? .binary (((savings [0x8000000000000000]).store.tenant
      .default).rows (accountType.stream ⟨.ofNat 5⟩)) =
        some ⟨some "ada", 0x8000000000000000, false⟩ := by decide +kernel
  obtain rfl := Option.some.inj (hfound.symm.trans hstate)
  exact hstops (by decide +kernel) (by decide +kernel) ⟨rfl, by decide⟩

end Engine

end Chronicle

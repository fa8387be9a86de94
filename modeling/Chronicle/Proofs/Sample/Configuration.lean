import Chronicle.Proofs.Engine.Twins
import Chronicle.Proofs.Sample.Overflow
import Chronicle.Proofs.Sample.SequenceModel

/-!
# The configuration does not matter

Two engines are given the same commands to sequences and accounts. They may be set up differently,
write with different codecs, read the clock at different times and lose different snapshots. They
are `InStep` if they are twins and every stream holds the same events in both; a command keeps them
so (`InStep.serve`), and comes to the same on both, since neither type writes anything that one of
the codecs cannot read back. What the events of a sequence are is what the model says.
-/

namespace Chronicle.Sample

/-- A command to a sequence or to an account. -/
inductive Order where
  | sequence (command : CommandEnvelope UInt64 SequenceCommand)
  | account (command : CommandEnvelope AccountId AccountCommand)

namespace Order

/-- The names in an order can be counted. -/
def Fits : Order → Prop
  | .sequence _ => True
  | .account command => command.payload.Fits

/-- What an order tells one sequence to do. -/
def toSequence? (tenant : TenantId) (id : UInt64) : Order → Option SequenceCommand
  | .sequence command =>
    if command.tenant = tenant ∧ command.aggregateId = id then some command.payload else none
  | .account _ => none

variable {κ : Type} [Carries κ UInt64 SequenceEvent] [Carries κ AccountId AccountEvent]

/-- An order that is sent by an engine with some settings. -/
def task (settings : Settings) : Order → Task κ
  | .sequence command => ⟨settings, sequenceType, command⟩
  | .account command => ⟨settings, accountType, command⟩

end Order

/-- What the model says of a sequence behind some orders. -/
def SequenceModel.behind (orders : List Order) (tenant : TenantId) (id : UInt64) : SequenceModel :=
  (orders.filterMap (Order.toSequence? tenant id)).foldl step empty

theorem SequenceModel.behind_concat (orders : List Order) (order : Order) (tenant : TenantId)
    (id : UInt64) :
    behind (orders ++ [order]) tenant id = (order.toSequence? tenant id).elim
      (behind orders tenant id) (behind orders tenant id).step := by
  rw [behind, List.filterMap_append, List.foldl_append]
  cases h : order.toSequence? tenant id <;> simp [behind, h]

/-! ## In step -/

section

variable {κ π π' : Type} [Projection κ π] [Projection κ π'] {settings settings' : Settings}
  {w : World MemoryStore κ π} {v : World MemoryStore κ π'} {orders : List Order}

/-- In both engines the stream of a sequence holds the same events, those that the model says. -/
def SharesSequence (codec codec' : Codec) (w : World MemoryStore κ π) (v : World MemoryStore κ π')
    (m : SequenceModel) (tenant : TenantId) (id : UInt64) : Prop :=
  ∃ events, w.Records sequenceType codec (fun _ => True) tenant (sequenceType.stream id) events ∧
    v.Records sequenceType codec' (fun _ => True) tenant (sequenceType.stream id) events ∧
    m.Models events

/-- In both engines the stream of an account holds the same events. -/
def SharesAccount (codec codec' : Codec) (w : World MemoryStore κ π) (v : World MemoryStore κ π')
    (tenant : TenantId) (id : AccountId) : Prop :=
  ∃ events, w.Records accountType codec Ledger tenant (accountType.stream id) events ∧
    v.Records accountType codec' Ledger tenant (accountType.stream id) events

/-- Two engines are twins behind some orders, and share all sequences and accounts. -/
structure InStep (codec codec' : Codec) (orders : List Order) (w : World MemoryStore κ π)
    (v : World MemoryStore κ π') : Prop extends w.Twins v where
  sequences : ∀ tenant id,
    SharesSequence codec codec' w v (SequenceModel.behind orders tenant id) tenant id
  accounts : ∀ tenant id, SharesAccount codec codec' w v tenant id

theorem inStep_first (codec codec' : Codec) (hw : w.Fresh) (hv : v.Fresh) (hready : w.Ready)
    (hready' : v.Ready) : InStep codec codec' [] w v where
  ready := hready
  ready' := hready'
  dense := hw.dense
  dense' := hv.dense
  agrees tenant := by rw [MemoryStore.log, MemoryStore.log, hw.tenant, hv.tenant]
  sequences _ _ := ⟨[], hw.records trivial, hv.records trivial, SequenceModel.models_empty⟩
  accounts tenant id :=
    have hnil := (accountType_upholds codec).nil
    ⟨[], hw.records hnil, hv.records hnil⟩

/-- Twins are in step again behind an order if they are so at the stream that it writes: of all
other streams both hold what they held, and the model says nothing new of them. -/
theorem InStep.behind {codec codec' : Codec} (h : InStep codec codec' orders w v) (t : Task κ)
    (order : Order) (schedule schedule' : Nat → Conditions) :
    let w' := (t.runUnder schedule 5 .waiting w).2
    let v' := ((t.configured settings').runUnder schedule' 5 .waiting v).2
    w'.Twins v' →
    (∀ tenant id, (t.tenant, t.stream) ≠ (tenant, sequenceType.stream id) →
      order.toSequence? tenant id = none) →
    (∀ tenant id, (t.tenant, t.stream) = (tenant, sequenceType.stream id) →
      SharesSequence codec codec' w' v' (SequenceModel.behind (orders ++ [order]) tenant id) tenant
        id) →
    (∀ tenant id, (t.tenant, t.stream) = (tenant, accountType.stream id) →
      SharesAccount codec codec' w' v' tenant id) →
    InStep codec codec' (orders ++ [order]) w' v' := by
  intro w' v' htwins hsilent hsequence haccount
  refine ⟨htwins, fun tenant id => ?_, fun tenant id => ?_⟩
  · by_cases hown : (t.tenant, t.stream) = (tenant, sequenceType.stream id)
    · exact hsequence tenant id hown
    · obtain ⟨events, hw, hv, hmodels⟩ := h.sequences tenant id
      rw [SequenceModel.behind_concat, hsilent tenant id hown]
      exact ⟨events, t.runUnder_records hown hw schedule,
        (t.configured settings').runUnder_records hown hv schedule', hmodels⟩
  · by_cases hown : (t.tenant, t.stream) = (tenant, accountType.stream id)
    · exact haccount tenant id hown
    · obtain ⟨events, hw, hv⟩ := h.accounts tenant id
      exact ⟨events, t.runUnder_records hown hw schedule,
        (t.configured settings').runUnder_records hown hv schedule'⟩

theorem InStep.sequence [Carries κ UInt64 SequenceEvent]
    (h : InStep settings.codec settings'.codec orders w v)
    (command : CommandEnvelope UInt64 SequenceCommand) (schedule schedule' : Nat → Conditions) :
    let t : Task κ := ⟨settings, sequenceType, command⟩
    let run := t.runUnder schedule 5 .waiting w
    let run' := (t.configured settings').runUnder schedule' 5 .waiting v
    run.1 = run'.1 ∧ (run.1.answer? ≠ some (.error .addition) →
      (∃ result, run.1.answer? = some (.ok (.ok result))) ∧
        InStep settings.codec settings'.codec (orders ++ [.sequence command]) run.2 run'.2) := by
  intro t run run'
  obtain ⟨events, hw, hv, hmodels⟩ := h.sequences command.tenant command.aggregateId
  obtain ⟨hstage, htwins, state, more, hstate, hyields, hw', hv'⟩ :=
    Task.runUnder_twins (t := t) rfl SequenceEvent.hasForm
      (fun _ => sequenceType_lossless.upholds) trivial h.toTwins hw hv schedule schedule'
  refine ⟨hstage, fun hroom => ?_⟩
  change t.Yields state _ run.1 more at hyields
  generalize run.1 = stage at hyields hroom
  cases hyields with
  | @stops fault hstops =>
    refine absurd ?_ hroom
    rw [hstops.elim SequenceCommand.play_eq_error id]
    rfl
  | @answers play outcome hplay hanswer =>
    obtain ⟨haccepted, hmodels'⟩ := hmodels.step hstate hplay
    obtain ⟨result, rfl⟩ := hanswer fun error habandoned => by
      cases haccepted.symm.trans habandoned
    have hkept : play.kept = play.events := by rw [Play.kept, haccepted]
    rw [hkept] at hw' hv'
    refine ⟨⟨result, rfl⟩, h.behind t _ schedule schedule' htwins ?_ ?_ ?_⟩
    · intro tenant id hother
      refine if_neg fun hown => hother ?_
      obtain ⟨rfl, rfl⟩ := hown
      rfl
    · intro tenant id hown
      obtain ⟨rfl, hstream⟩ := Prod.mk.inj hown
      obtain rfl := sequence_stream_inj.mp hstream
      rw [SequenceModel.behind_concat, Order.toSequence?, if_pos ⟨rfl, rfl⟩]
      exact ⟨_, hw', hv', hmodels'⟩
    · intro tenant id hown
      exact absurd (Prod.mk.inj hown).2 (sequence_stream_ne _ id)

theorem InStep.account [Carries κ AccountId AccountEvent]
    (h : InStep settings.codec settings'.codec orders w v)
    (command : CommandEnvelope AccountId AccountCommand) (hfits : command.payload.Fits)
    (schedule schedule' : Nat → Conditions) :
    let t : Task κ := ⟨settings, accountType, command⟩
    let run := t.runUnder schedule 5 .waiting w
    let run' := (t.configured settings').runUnder schedule' 5 .waiting v
    run.1 = run'.1 ∧ (run.1.answer? ≠ some (.error .addition) →
      (∃ result, run.1.answer? = some (.ok (.ok result))) ∧
        InStep settings.codec settings'.codec (orders ++ [.account command]) run.2 run'.2) := by
  intro t run run'
  obtain ⟨events, hw, hv⟩ := h.accounts command.tenant command.aggregateId
  obtain ⟨hstage, htwins, state, more, hstate, hyields, hw', hv'⟩ :=
    Task.runUnder_twins (t := t) rfl AccountEvent.hasForm accountType_upholds hfits h.toTwins hw hv
      schedule schedule'
  refine ⟨hstage, fun hroom => ?_⟩
  change t.Yields state _ run.1 more at hyields
  generalize run.1 = stage at hyields hroom
  cases hyields with
  | @stops fault hstops =>
    refine absurd ?_ hroom
    rw [hstops.elim (fun hplay => (AccountCommand.play_eq_error hplay).2) id]
    rfl
  | @answers play outcome hplay hanswer =>
    obtain ⟨result, rfl⟩ := hanswer (AccountCommand.not_abandoned hplay)
    refine ⟨⟨result, rfl⟩, h.behind t _ schedule schedule' htwins (fun _ _ _ => rfl) ?_ ?_⟩
    · intro tenant id hown
      exact absurd (Prod.mk.inj hown).2.symm (sequence_stream_ne id _)
    · intro tenant id hown
      obtain ⟨rfl, hstream⟩ := Prod.mk.inj hown
      rw [SharesAccount, ← hstream]
      exact ⟨_, hw', hv'⟩

variable [Carries κ UInt64 SequenceEvent] [Carries κ AccountId AccountEvent]

/-- What is answered to an order, and that it leaves two engines in step, does not depend on how
they are set up. -/
theorem InStep.order (h : InStep settings.codec settings'.codec orders w v) {order : Order}
    (hfits : order.Fits) (schedule schedule' : Nat → Conditions) :
    let run := (order.task settings : Task κ).runUnder schedule 5 .waiting w
    let run' := (order.task settings' : Task κ).runUnder schedule' 5 .waiting v
    run.1.answer? ≠ some (.error .addition) →
      (∃ result, run.1.answer? = some (.ok (.ok result)) ∧
        run'.1.answer? = some (.ok (.ok result))) ∧
      InStep settings.codec settings'.codec (orders ++ [order]) run.2 run'.2 := by
  intro run run' hroom
  cases order with
  | sequence command =>
    obtain ⟨hstage, hstep⟩ := h.sequence command schedule schedule'
    obtain ⟨⟨result, hanswer⟩, hstep'⟩ := hstep hroom
    exact ⟨⟨result, hanswer, hstage ▸ hanswer⟩, hstep'⟩
  | account command =>
    obtain ⟨hstage, hstep⟩ := h.account command hfits schedule schedule'
    obtain ⟨⟨result, hanswer⟩, hstep'⟩ := hstep hroom
    exact ⟨⟨result, hanswer, hstage ▸ hanswer⟩, hstep'⟩

/-- Behind each of some orders the engines have answered the same, and are in step. -/
theorem InStep.serve (more : List Order) : ∀ {orders : List Order} {w : World MemoryStore κ π}
    {v : World MemoryStore κ π'} (schedule schedule' : Nat → Nat → Conditions),
    InStep settings.codec settings'.codec orders w v → (∀ order ∈ more, order.Fits) →
    (∀ moment ∈ World.serve schedule (more.map (Order.task settings : Order → Task κ)) w,
      moment.answer? ≠ some (.error .addition)) →
    ∀ place < more.length, ∃ result w' v',
      (World.serve schedule (more.map (Order.task settings : Order → Task κ)) w)[place]? =
        some ⟨some (.ok (.ok result)), w'⟩ ∧
      (World.serve schedule' (more.map (Order.task settings' : Order → Task κ)) v)[place]? =
        some ⟨some (.ok (.ok result)), v'⟩ ∧
      InStep settings.codec settings'.codec (orders ++ more.take (place + 1)) w' v' := by
  induction more with
  | nil => exact fun _ _ _ _ _ _ hlt => absurd hlt (Nat.not_lt_zero _)
  | cons order more ih =>
    intro orders w v schedule schedule' h hfits hroom place hlt
    obtain ⟨⟨result, hanswer, hanswer'⟩, hstep⟩ := h.order (hfits order (List.mem_cons_self ..))
      (schedule 0) (schedule' 0) (hroom _ (List.mem_cons_self ..))
    cases place with
    | zero =>
      refine ⟨result, _, _, ?_, ?_, hstep⟩
      · rw [List.map_cons, World.serve, List.getElem?_cons_zero, hanswer]
      · rw [List.map_cons, World.serve, List.getElem?_cons_zero, hanswer']
    | succ place =>
      obtain ⟨result', w', v', hw', hv', hlast⟩ := ih (fun place => schedule (place + 1))
        (fun place => schedule' (place + 1)) hstep
        (fun other hin => hfits other (List.mem_cons_of_mem _ hin))
        (fun moment hin => hroom moment (List.mem_cons_of_mem _ hin)) place
        (Nat.lt_of_succ_lt_succ hlt)
      refine ⟨result', w', v', hw', hv', ?_⟩
      rw [List.append_assoc, List.singleton_append] at hlast
      exact hlast

/-- **The configuration does not matter.** Take any commands to sequences and accounts, and two
engines that are ready, over worlds without events and snapshots, with any settings, and with any
schedules of the time and of what the vault refuses. Unless an addition passes 64 bits, both answer
each command with the same result. Behind each command their logs are row for row the same but for
names and bytes; they read the same state of every sequence and every account; and each sequence is
what the model says, at the version that the model says. -/
theorem configuration_does_not_matter (hw : w.Fresh) (hv : v.Fresh) (hready : w.Ready)
    (hready' : v.Ready) (schedule schedule' : Nat → Nat → Conditions)
    (hfits : ∀ order ∈ orders, order.Fits)
    (hroom : ∀ moment ∈ World.serve schedule (orders.map (Order.task settings : Order → Task κ)) w,
      moment.answer? ≠ some (.error .addition)) :
    ∀ place < orders.length, ∃ result w' v',
      (World.serve schedule (orders.map (Order.task settings : Order → Task κ)) w)[place]? =
        some ⟨some (.ok (.ok result)), w'⟩ ∧
      (World.serve schedule' (orders.map (Order.task settings' : Order → Task κ)) v)[place]? =
        some ⟨some (.ok (.ok result)), v'⟩ ∧
      (∀ tenant, (w'.store.log tenant).map (RecordedEvent.onEvent SerializedEvent.bare) =
        (v'.store.log tenant).map (RecordedEvent.onEvent SerializedEvent.bare)) ∧
      (∀ tenant id, ∃ state : SequenceState,
        (∀ c, (Engine.getState settings sequenceType tenant id (w'.under c)).map Prod.fst =
          .ok (.ok state)) ∧
        (∀ c, (Engine.getState settings' sequenceType tenant id (v'.under c)).map Prod.fst =
          .ok (.ok state)) ∧
        let m := SequenceModel.behind (orders.take (place + 1)) tenant id
        state.items = m.items ∧ state.lifetimeTotal.toNat = m.lifetimeTotal ∧
          (w'.store.version tenant (sequenceType.stream id)).toNat = m.emitted ∧
          (v'.store.version tenant (sequenceType.stream id)).toNat = m.emitted) ∧
      ∀ tenant id, ∃ state : AccountState,
        (∀ c, (Engine.getState settings accountType tenant id (w'.under c)).map Prod.fst =
          .ok (.ok state)) ∧
        ∀ c, (Engine.getState settings' accountType tenant id (v'.under c)).map Prod.fst =
          .ok (.ok state) := by
  intro place hlt
  obtain ⟨result, w', v', hanswer, hanswer', hstep⟩ := InStep.serve orders schedule schedule'
    (inStep_first settings.codec settings'.codec hw hv hready hready') hfits hroom place hlt
  rw [List.nil_append] at hstep
  refine ⟨result, w', v', hanswer, hanswer', hstep.agrees, fun tenant id => ?_, fun tenant id => ?_⟩
  · obtain ⟨events, hevents, hevents', ⟨state, hstate, htells⟩, hemitted⟩ :=
      hstep.sequences tenant id
    exact ⟨state, hevents.getState_under hstep.ready rfl hstate,
      hevents'.getState_under hstep.ready' rfl hstate, htells.items, htells.total,
      hevents.version_eq.trans hemitted, hevents'.version_eq.trans hemitted⟩
  · obtain ⟨events, hevents, hevents'⟩ := hstep.accounts tenant id
    obtain ⟨state, hstate⟩ := hevents.exists_state
    exact ⟨state, hevents.getState_under hstep.ready rfl hstate,
      hevents'.getState_under hstep.ready' rfl hstate⟩

end

/-! ## Two engines -/

/-- Settings that differ from the standard ones in all that is written and kept. -/
def thrifty : Settings :=
  { Settings.standard with
    codec := .json
    snapshotPolicy := { SnapshotPolicy.atMultiplesOf 2 with expireAfter := some (.ofSeconds 1) } }

/-- The clock goes on with each phase; at every second command the vault cannot be read, and at
every third it cannot be written. -/
def faltering (place phase : Nat) : Conditions :=
  ⟨⟨5 * place + phase, 0⟩, place % 2 = 1, place % 3 = 2⟩

/-- A sequence is filled, cleared twice and filled again, and an account is opened. -/
def errands : List Order :=
  [.sequence (.new 7 (.add [3, 4]) ⟨.ofNat 1⟩ ⟨.ofNat 2⟩ ⟨0, 0⟩),
    .account (.new ⟨.ofNat 5⟩ (.openFor "ada") ⟨.ofNat 6⟩ ⟨.ofNat 7⟩ ⟨0, 0⟩),
    .sequence (.new 7 .clear ⟨.ofNat 1⟩ ⟨.ofNat 2⟩ ⟨0, 0⟩),
    .sequence (.new 7 .clear ⟨.ofNat 1⟩ ⟨.ofNat 2⟩ ⟨0, 0⟩),
    .sequence (.new 7 (.add [5]) ⟨.ofNat 1⟩ ⟨.ofNat 2⟩ ⟨0, 0⟩)]

/-- An engine with the standard settings and one that keeps little come to the same. -/
theorem thrifty_engine_does_the_same :
    let w : World MemoryStore Carrier Inert := World.blank
    (w.Fresh ∧ w.Ready ∧ (∀ order ∈ errands, order.Fits) ∧
      ∀ moment ∈ World.serve (fun _ _ => w.conditions) (errands.map (Order.task .standard)) w,
        moment.answer? ≠ some (.error .addition)) ∧
      ∃ result w' v',
        (World.serve (fun _ _ => w.conditions) (errands.map (Order.task .standard)) w)[4]? =
          some ⟨some (.ok (.ok result)), w'⟩ ∧
        (World.serve faltering (errands.map (Order.task thrifty)) w)[4]? =
          some ⟨some (.ok (.ok result)), v'⟩ ∧
        (v'.store.version .default (sequenceType.stream (7 : UInt64))).toNat = 4 ∧
        (Engine.getState thrifty sequenceType .default (7 : UInt64)
          (v'.under w.conditions)).map Prod.fst = .ok (.ok ⟨[5], 12⟩) := by
  intro w
  have hfresh : w.Fresh := World.fresh_blank
  have hready : w.Ready :=
    ⟨rfl, rfl, Bus.obliging_of_willing Bus.willing_inert rfl fun _ _ => trivial⟩
  have hfits : ∀ order ∈ errands, order.Fits := by
    intro order hin
    simp only [errands, List.mem_cons, List.not_mem_nil, or_false] at hin
    rcases hin with rfl | rfl | rfl | rfl | rfl
    · trivial
    · show ("ada" : String).utf8ByteSize < UInt64.size
      decide
    all_goals trivial
  have hroom : ∀ moment ∈ World.serve (fun _ _ => w.conditions)
      (errands.map (Order.task .standard)) w, moment.answer? ≠ some (.error .addition) := by
    decide +kernel
  obtain ⟨result, w', v', hanswer, hanswer', -, hsequences, -⟩ :=
    configuration_does_not_matter hfresh hfresh hready hready (fun _ _ => w.conditions) faltering
      hfits hroom 4 (by decide)
  refine ⟨⟨hfresh, hready, hfits, hroom⟩, result, w', v', hanswer, hanswer', ?_⟩
  obtain ⟨⟨items, total⟩, -, hstate, hitems, htotal, -, hversion⟩ :=
    hsequences .default (7 : UInt64)
  have hmodel : SequenceModel.behind (errands.take 5) .default 7 = ⟨[5], 12, 4⟩ := by
    decide +kernel
  rw [hmodel] at hitems htotal hversion
  obtain rfl : items = [5] := hitems
  obtain rfl : total = 12 := UInt64.toNat_inj.mp htotal
  exact ⟨hversion, hstate w.conditions⟩

end Chronicle.Sample

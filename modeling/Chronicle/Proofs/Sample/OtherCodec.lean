import Chronicle.Proofs.Codec.Apart
import Chronicle.Proofs.Engine.Encoded
import Chronicle.Proofs.Sample.Ledger
import Chronicle.Proofs.Sample.Truncated

/-!
# The wrong codec is noticed

Which codec wrote a stream is not stored with it, so an engine can be set up with the other one. Of
the sample types it then reads nothing at all. The bytes of no event and of no state are read by
the other codec as an event or a state of the same type (`Codec.Unreadable`), so a stream that was
written with one codec is not loaded with the other, be there a snapshot of it or not, and no
snapshot of it is found (`AggregateType.NeverMisread`). This follows for any type from what is so
of its events and states (`AggregateType.neverMisread`).

A list needs a bound, for its length stands at the beginning of the binary form: of 2⁵⁶ items or
more the length has no byte that gives it away.
-/

namespace Chronicle

/-! ## Values -/

/-- A value can be written with a codec, and the other codec refuses the bytes. -/
def Codec.Unreadable {α : Type} [Wire α] (codec other : Codec) (value : α) : Prop :=
  ∃ data, codec.encode value = .ok data ∧ other.decode (α := α) data = .error (Wire.unread α)

namespace Codec

variable {α : Type} [Wire α] {codec other : Codec} {value : α}

theorem Unreadable.decode (h : codec.Unreadable other value) {data : Bytes}
    (hencode : codec.encode value = .ok data) :
    other.decode (α := α) data = .error (Wire.unread α) := by
  obtain ⟨written, hwritten, hrefused⟩ := h
  obtain rfl := Except.ok.inj (hwritten.symm.trans hencode)
  exact hrefused

theorem unreadable_of_apart (hother : other ≠ codec)
    (hapart : (Wire.format (α := α)).Apart value)
    (hform : (Wire.format (α := α)).HasForm value) : codec.Unreadable other value := by
  obtain ⟨data, hencode⟩ := Codec.exists_encode hform codec
  refine ⟨data, hencode, ?_⟩
  rw [decode, decode?_of_other hother hapart hform hencode]
  rfl

end Codec

/-! ## Streams and their snapshots -/

/-- A snapshot that an engine kept, at any time, of a stream that is written with one codec, where
the state that it holds is not too large. -/
inductive StoredSnapshot.KeptOf (A : AggregateType) (codec : Codec) (small : A.State → Prop)
    (tenant : TenantId) (stream : StreamId) (stored : StoredSnapshot) : Prop
  | intro {κ π : Type} [Projection κ π] (w : World MemoryStore κ π)
      (hwritten : w.Written A codec tenant stream)
      (hget : w.vault.get? tenant stream = some stored)
      (hsmall : ∀ state : A.State, codec.encode state = .ok stored.data → small state)

/-- What one codec wrote of a type is never misread with the other, if its states are not too
large. -/
structure AggregateType.NeverMisread (A : AggregateType) (codec other : Codec)
    (small : A.State → Prop) : Prop where
  event : ∀ event : A.Event, codec.Unreadable other event
  state : ∀ state : A.State, small state → codec.Unreadable other state
  /-- A snapshot is not found. -/
  snapshot : ∀ (v : SnapshotVault) (policy : SnapshotPolicy) (now : Timestamp) (tenant : TenantId)
    (stream : StreamId) (stored : StoredSnapshot), v.get? tenant stream = some stored →
    stored.KeptOf A codec small tenant stream →
      ∀ state version, v.read A policy other now tenant stream ≠ .found state version
  /-- A stream is not loaded, and if the store can be reached, it is for the payload of an event. -/
  load : ∀ {κ κ' π π' : Type} [Projection κ π] (settings : Settings) (tenant : TenantId) (id : A.Id)
    (useSnapshot : Bool) (before : World MemoryStore κ π) (w : World MemoryStore κ' π'),
    settings.codec = other → before.Written A codec tenant (A.stream id) →
    w.store.tenant tenant = before.store.tenant tenant →
    (w.store.tenant tenant).rows (A.stream id) ≠ [] →
    (∀ stored, w.vault.get? tenant (A.stream id) = some stored →
      stored.KeptOf A codec small tenant (A.stream id)) →
      ∃ w', Engine.load settings A tenant id useSnapshot w = .ok (.error (.store
        (if w.store.available then .translation (.payload (Wire.unread A.Event))
        else .unavailable)), w')

namespace AggregateType

variable {A : AggregateType} {codec other : Codec} {small : A.State → Prop}

theorem decode_of_keptOf (hid : ∀ id : A.Id, InstanceId.ofText (InstanceId.toText id) = .ok id)
    (hstate : ∀ state : A.State, small state → codec.Unreadable other state) {tenant : TenantId}
    {stream : StreamId} {stored : StoredSnapshot} (h : stored.KeptOf A codec small tenant stream) :
    other.decode (α := A.State) stored.data = .error (Wire.unread A.State) := by
  obtain ⟨w, hwritten, hget, hsmall⟩ := h
  obtain ⟨state, hencode⟩ := (hwritten.encoded hid).kept stored hget
  exact (hstate state (hsmall state hencode)).decode hencode

/-- A type whose events and states the other codec refuses is never misread. -/
theorem neverMisread (hbound : A.boundMutator = .ok A.mutator)
    (hid : ∀ id : A.Id, InstanceId.ofText (InstanceId.toText id) = .ok id)
    (hevent : ∀ event : A.Event, codec.Unreadable other event)
    (hstate : ∀ state : A.State, small state → codec.Unreadable other state) :
    A.NeverMisread codec other small where
  event := hevent
  state := hstate
  snapshot v policy now tenant stream stored hget hkept state version hfound := by
    obtain ⟨found, hfoundGet, -, hdecode, -⟩ := SnapshotVault.read_eq_found hfound
    obtain rfl := Option.some.inj (hget.symm.trans hfoundGet)
    cases (decode_of_keptOf hid hstate hkept).symm.trans hdecode
  load settings tenant id useSnapshot before w hcodec hwritten hsame hsome hkept := by
    subst hcodec
    have hencoded := hwritten.encoded hid
    refine Engine.load_of_unreadable hbound (hsame ▸ hencoded.dense tenant) (fun row hrow => ?_)
      hsome (fun stored hget state hdecode => ?_) useSnapshot
    · rw [hsame] at hrow
      obtain ⟨hrowId, event, hencode⟩ := hencoded.rows row hrow
      exact ⟨hrowId, (hevent event).decode hencode⟩
    · cases (decode_of_keptOf hid hstate (hkept stored hget)).symm.trans hdecode

end AggregateType

namespace Sample

/-! ## Events and states of the sample types -/

theorem SequenceEvent.apart (event : SequenceEvent) :
    (Wire.format (α := SequenceEvent)).Apart event := by
  have hcounts := (Variants.counts_none.plain "Cleared").holding "ItemAdded" Format.uint32
  exact ⟨Format.hasControl_union hcounts (by decide) _ _ event,
    fun _ _ hprinted => Format.refuses_union hcounts (by decide) _ _ hprinted⟩

theorem AccountEvent.apart (event : AccountEvent) :
    (Wire.format (α := AccountEvent)).Apart event := by
  have hcounts := (((Variants.counts_none.plain "Closed").holding "Withdrawn" amountRecord).holding
    "Deposited" amountRecord).holding "Opened" ownerRecord
  exact ⟨Format.hasControl_union hcounts (by decide) _ _ event,
    fun _ _ hprinted => Format.refuses_union hcounts (by decide) _ _ hprinted⟩

theorem AccountState.apart (state : AccountState) :
    (Wire.format (α := AccountState)).Apart state where
  control := (Format.hasControl_option Format.string state.owner).record
  refuses _ _ hprinted := (Format.refuses_option Format.string hprinted).record

/-- A number takes eleven bytes at most, its comma among them. -/
theorem SequenceState.length_render_le {state : SequenceState} {json : Json}
    (h : (Wire.format (α := SequenceState)).toJson state = some json) :
    json.render.length ≤ 11 * state.items.length + 50 := by
  obtain ⟨members, hmembers, rfl⟩ := Option.map_eq_some_iff.mp h
  obtain ⟨items, hitems, hrest⟩ := Option.bind_eq_some_iff.mp hmembers
  obtain rfl := Option.some.inj hrest
  have hlist : items.render.length ≤ 11 * state.items.length + 2 :=
    Format.length_render_list_le Format.within_uint32 hitems
  have htotal : (Json.int state.lifetimeTotal.toNat).render.length ≤ 20 := Format.within_uint64 rfl
  have hfirst : (Json.renderText "items").length = 7 := by decide +kernel
  have hsecond : (Json.renderText "lifetime_total").length = 16 := by decide +kernel
  simp only [Json.record, List.map_cons, List.map_nil, Json.render, Json.renderMembers,
    Option.getD_some, List.length_append, List.length_cons, List.length_nil]
  omega

theorem SequenceState.apart {state : SequenceState} (h : state.items.length < 0x100000000000000) :
    (Wire.format (α := SequenceState)).Apart state where
  control := (Format.hasControl_list Format.uint32 h).record
  refuses json hshown hprinted := by
    have hlength := SequenceState.length_render_le hshown
    have hshort : json.render.length < 4 * (9 * 0x100000000000000) := by omega
    exact (Format.refuses_list Format.takes_uint32 hprinted hshort).record

/-- **The wrong codec is never misread.** Nothing that one codec wrote of sequences and accounts is
read with the other: no event, no state, no snapshot and no stream. A sequence has to have fewer
than 2⁵⁶ numbers where its state is concerned. -/
theorem sample_types_are_never_misread {codec other : Codec} (hother : other ≠ codec) :
    sequenceType.NeverMisread codec other (fun state => state.items.length < 0x100000000000000) ∧
      accountType.NeverMisread codec other fun _ => True := by
  refine ⟨AggregateType.neverMisread rfl InstanceId.ofText_toText_uint64 ?_ ?_,
    AggregateType.neverMisread rfl accountType_ofText_toText ?_ ?_⟩
  · exact fun event => Codec.unreadable_of_apart hother event.apart event.hasForm
  · exact fun state hsmall =>
      Codec.unreadable_of_apart hother (SequenceState.apart hsmall) state.hasForm
  · exact fun event => Codec.unreadable_of_apart hother event.apart event.hasForm
  · exact fun state _ => Codec.unreadable_of_apart hother state.apart state.hasForm

/-- An account is opened by an engine that writes in the binary form. -/
def binaryOpening : Happening Carrier Inert := .sent (teller (.openFor "ada"))

theorem spares_binaryOpening :
    binaryOpening.Spares accountType .binary .default (accountType.stream ⟨.ofNat 5⟩) :=
  fun _ => ⟨rfl, rfl⟩

/-- The world with this account, of which a snapshot was kept. -/
def openedWorld : World MemoryStore Carrier Inert := World.blank.afterAll [binaryOpening]

set_option maxRecDepth 10000 in
/-- An engine that is set up with JSON does not load the account, with its snapshot or without. -/
theorem opened_account_is_never_misread :
    (openedWorld.vault.get? .default (accountType.stream ⟨.ofNat 5⟩)).isSome = true ∧
      ∀ useSnapshot, ∃ w', Engine.load { Settings.standard with codec := .json } accountType
        .default ⟨.ofNat 5⟩ useSnapshot openedWorld =
          .ok (.error (.store (.translation (.payload (Wire.unread AccountEvent)))), w') := by
  refine ⟨rfl, fun useSnapshot => ?_⟩
  have hwritten : openedWorld.Written accountType .binary .default
      (accountType.stream ⟨.ofNat 5⟩) :=
    .history World.fresh_blank (List.forall_mem_singleton.mpr spares_binaryOpening)
  have hsome : (openedWorld.store.tenant .default).rows (accountType.stream ⟨.ofNat 5⟩) ≠ [] :=
    nofun
  have hother : Codec.json ≠ Codec.binary := nofun
  obtain ⟨-, haccounts⟩ := sample_types_are_never_misread hother
  exact haccounts.load _ .default ⟨.ofNat 5⟩ useSnapshot openedWorld openedWorld rfl hwritten rfl
    hsome fun _ hget => .intro openedWorld hwritten hget fun _ _ => trivial

set_option maxRecDepth 10000 in
/-- While the store cannot be reached the account is not loaded either, but for that reason. -/
theorem unreachable_account_is_not_translated :
    let w := openedWorld.after (.called (.setAvailable false))
    let loaded := Engine.load { Settings.standard with codec := .json } accountType .default
      ⟨.ofNat 5⟩ false w
    w.Written accountType .binary .default (accountType.stream ⟨.ofNat 5⟩) ∧
      ((w.store.tenant .default).rows (accountType.stream ⟨.ofNat 5⟩)).length = 1 ∧
      loaded = .ok (.error (.store .unavailable), w) ∧
      ¬ ∃ failure w', loaded = .ok (.error (.store (.translation failure)), w') := by
  intro w loaded
  have hloaded : loaded = .ok (.error (.store .unavailable), w) := rfl
  have hspares : ∀ h ∈ [binaryOpening, .called (.setAvailable false)],
      h.Spares accountType .binary .default (accountType.stream ⟨.ofNat 5⟩) :=
    List.forall_mem_cons.mpr ⟨spares_binaryOpening, List.forall_mem_singleton.mpr trivial⟩
  refine ⟨.history World.fresh_blank hspares, rfl, hloaded, ?_⟩
  rintro ⟨failure, w', htranslated⟩
  cases hloaded.symm.trans htranslated

end Sample

end Chronicle

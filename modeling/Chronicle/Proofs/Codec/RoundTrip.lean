import Chronicle.Command
import Chronicle.Proofs.Codec.JsonForm
import Chronicle.Proofs.Timestamp

/-!
# Values that come back

A value comes back of a codec when it can be written and what is written is read as the value
(`Codec.RoundTrips`). It is enough that its format reads the binary form back and has a JSON form,
and both are shown along the format: here for texts, numbers and identifiers (`Wire.Scalar`), for lists
of these (`Wire.Plain`), and for commands with such ids and payloads (`CommandEnvelope.roundTrips`).

Lengths are written in 64 bits, so the binary form asks that texts and lists can be counted in
these. Longer ones fit into no memory.
-/

namespace Chronicle

/-- A value can be written with a codec, and comes back of its bytes. -/
def Codec.RoundTrips {α : Type} [Wire α] (codec : Codec) (value : α) : Prop :=
  ∃ data, codec.encode value = .ok data ∧ codec.decode data = .ok value

theorem Codec.roundTrips {α : Type} [Wire α] {codec : Codec} {value : α}
    (hback : codec = .binary → (Wire.format (α := α)).ReadsBack value)
    (hform : (Wire.format (α := α)).HasForm value) : codec.RoundTrips value := by
  obtain ⟨data, hdata⟩ := Codec.exists_encode hform codec
  exact ⟨data, hdata, Codec.decode_encode hback hform hdata⟩

/-! ## Plain types -/

/-- Texts, numbers and signed numbers of no more than 64 bits, and identifiers of whatever name,
with what has to be countable of a value in the binary form. -/
inductive Wire.Scalar : (α : Type) → [Wire α] → (α → Prop) → Prop
  | text : Scalar String fun text => text.utf8ByteSize < UInt64.size
  | number {α : Type} [Wire α] {width : Nat} (into : α → Nat) (of : Nat → α)
      (hwidth : Bytes.capacity width ≤ 0x10000000000000000)
      (hformat : Wire.format = (Format.natural width).rename into of)
      (hlt : ∀ n, into n < Bytes.capacity width) (hof : ∀ n, of (into n) = n) :
    Scalar α fun _ => True
  | signed {α : Type} [Wire α] {width : Nat} (into : α → Int) (of : Int → α)
      (hwidth : Bytes.capacity width / 2 ≤ 0x8000000000000000)
      (hformat : Wire.format = (Format.integer width).rename into of)
      (hlow : ∀ i, -(Bytes.capacity width / 2 : Nat) ≤ into i)
      (hhigh : ∀ i, into i < (Bytes.capacity width / 2 : Nat)) (hof : ∀ i, of (into i) = i) :
    Scalar α fun _ => True
  | identifier {α : Type} [Wire α] (into : α → Uuid) (of : Uuid → α)
      (hformat : Wire.format = Format.uuid.rename into of) (hof : ∀ value, of (into value) = value) :
    Scalar α fun _ => True

namespace Wire.Scalar

theorem readsBack {α : Type} [inst : Wire α] {fits : α → Prop} (h : Scalar α fits) :
    ∀ value, fits value → (Wire.format (α := α)).ReadsBack value := by
  induction h with
  | text => exact fun _ hfits => Format.string_readsBack hfits
  | number into of hwidth hformat hlt hof =>
    intro n _
    rw [hformat]
    exact (Format.natural_readsBack (hlt n)).rename (hof n)
  | signed into of hwidth hformat hlow hhigh hof =>
    intro i _
    rw [hformat]
    exact (Format.integer_readsBack (hlow i) (hhigh i)).rename (hof i)
  | identifier into of hformat hof =>
    intro value _
    rw [hformat]
    exact (Format.uuid_readsBack _).rename (hof value)

theorem hasForm {α : Type} [inst : Wire α] {fits : α → Prop} (h : Scalar α fits) :
    ∀ value, (Wire.format (α := α)).HasForm value := by
  induction h with
  | text => exact Format.string_hasForm
  | number into of hwidth hformat hlt hof =>
    intro n
    rw [hformat]
    exact (Format.natural_hasForm hwidth (hlt n)).rename (hof n)
  | signed into of hwidth hformat hlow hhigh hof =>
    intro i
    rw [hformat]
    exact (Format.integer_hasForm hwidth (hlow i) (hhigh i)).rename (hof i)
  | identifier into of hformat hof =>
    intro value
    rw [hformat]
    exact ⟨_, (Format.uuid_formIs (into value)).refine (congrArg some (hof value))⟩

theorem uint8 : Scalar UInt8 fun _ => True :=
  .number UInt8.toNat UInt8.ofNat (by decide) rfl UInt8.toNat_lt fun _ => UInt8.ofNat_toNat

theorem uint32 : Scalar UInt32 fun _ => True :=
  .number UInt32.toNat UInt32.ofNat (by decide) rfl UInt32.toNat_lt fun _ => UInt32.ofNat_toNat

theorem uint64 : Scalar UInt64 fun _ => True :=
  .number UInt64.toNat UInt64.ofNat (by decide) rfl UInt64.toNat_lt fun _ => UInt64.ofNat_toNat

theorem int32 : Scalar Int32 fun _ => True :=
  .signed Int32.toInt Int32.ofInt (by decide) rfl Int32.le_toInt Int32.toInt_lt Int32.ofInt_toInt

theorem int64 : Scalar Int64 fun _ => True :=
  .signed Int64.toInt Int64.ofInt (by decide) rfl Int64.le_toInt Int64.toInt_lt Int64.ofInt_toInt

end Wire.Scalar

/-- Scalars and lists of these, with what has to be countable of a value in the binary form. -/
inductive Wire.Plain : (α : Type) → [Wire α] → (α → Prop) → Prop
  | scalar {α : Type} [Wire α] {fits : α → Prop} (h : Scalar α fits) : Plain α fits
  | list {α : Type} [Wire α] {fits : α → Prop} (h : Scalar α fits) :
    Plain (List α) fun values => values.length < UInt64.size ∧ ∀ value ∈ values, fits value

namespace Wire.Plain

theorem readsBack {α : Type} [inst : Wire α] {fits : α → Prop} (h : Plain α fits) {value : α}
    (hfits : fits value) : (Wire.format (α := α)).ReadsBack value := by
  cases h with
  | scalar h => exact h.readsBack value hfits
  | list h => exact Format.list_readsBack hfits.1 fun value hin => h.readsBack value (hfits.2 value hin)

theorem hasForm {α : Type} [inst : Wire α] {fits : α → Prop} (h : Plain α fits) (value : α) :
    (Wire.format (α := α)).HasForm value := by
  cases h with
  | scalar h => exact h.hasForm value
  | list h => exact Format.list_hasForm fun value _ => h.hasForm value

end Wire.Plain

/-! ## Points in time -/

/-- A point in time that is read back of its text comes back of both forms. -/
theorem Format.timestamp_readsBack {t : Timestamp} (h : Timestamp.ofText? t.toText = some t) :
    timestamp.ReadsBack t := by
  obtain ⟨hcalendar, hnanos⟩ := Timestamp.bounds_of_ofText? h
  exact (string_readsBack (Timestamp.utf8ByteSize_toText_lt hcalendar hnanos)).refine h

theorem Format.timestamp_hasForm {t : Timestamp} (h : Timestamp.ofText? t.toText = some t) :
    timestamp.HasForm t := (string_hasForm t.toText).refine h

/-! ## Commands -/

namespace CommandEnvelope

variable {ι κ : Type} [Wire ι] [Wire κ] {fitsId : ι → Prop} {fitsPayload : κ → Prop}
  {command : CommandEnvelope ι κ}

/-- All that a command carries can be counted. -/
structure Fits (fitsId : ι → Prop) (fitsPayload : κ → Prop) (command : CommandEnvelope ι κ) :
    Prop where
  aggregateId : fitsId command.aggregateId
  tenant : command.tenant.text.utf8ByteSize < UInt64.size
  principal : command.principal.text.utf8ByteSize < UInt64.size
  source : command.source.utf8ByteSize < UInt64.size
  payload : fitsPayload command.payload

theorem readsBack (hid : Wire.Scalar ι fitsId) (hpayload : Wire.Plain κ fitsPayload)
    (htime : Timestamp.ofText? command.timestamp.toText = some command.timestamp)
    (h : command.Fits fitsId fitsPayload) :
    (Wire.format (α := CommandEnvelope ι κ)).ReadsBack command := by
  have hcommand : (Wire.format (α := CommandId)).ReadsBack command.commandId :=
    (Format.uuid_readsBack _).rename rfl
  have hparent : (Wire.format (α := Option CommandId)).ReadsBack command.parent :=
    Format.option_readsBack fun _ _ => (Format.uuid_readsBack _).rename rfl
  have hsequence : (Wire.format (α := SequenceId)).ReadsBack command.sequenceId :=
    (Format.uuid_readsBack _).rename rfl
  have htenant : (Wire.format (α := TenantId)).ReadsBack command.tenant :=
    (Format.string_readsBack h.tenant).rename rfl
  have hprincipal : (Wire.format (α := PrincipalId)).ReadsBack command.principal :=
    (Format.string_readsBack h.principal).rename rfl
  exact Format.record_readsBack (.required (hid.readsBack _ h.aggregateId) (.required htenant
    (.required hcommand (.required hparent (.required hsequence (.required hprincipal
    (.required (Format.string_readsBack h.source) (.required (hpayload.readsBack h.payload)
    (.required (Format.timestamp_readsBack htime) Fields.none_readsBack))))))))) rfl

theorem hasForm (hid : Wire.Scalar ι fitsId) (hpayload : Wire.Plain κ fitsPayload)
    (htime : Timestamp.ofText? command.timestamp.toText = some command.timestamp) :
    (Wire.format (α := CommandEnvelope ι κ)).HasForm command := by
  have hidentifier : ∀ id : CommandId, (Wire.format (α := CommandId)).FormIs id
      (Json.str id.uuid.toText) := fun id => (Format.uuid_formIs id.uuid).refine rfl
  have hparent : (Wire.format (α := Option CommandId)).HasForm command.parent :=
    Format.option_hasForm fun parent _ => ⟨_, hidentifier parent, nofun⟩
  have hsequence : (Wire.format (α := SequenceId)).HasForm command.sequenceId :=
    ⟨_, (Format.uuid_formIs _).refine rfl⟩
  have htenant : (Wire.format (α := TenantId)).HasForm command.tenant :=
    (Format.string_hasForm _).rename rfl
  have hprincipal : (Wire.format (α := PrincipalId)).HasForm command.principal :=
    (Format.string_hasForm _).rename rfl
  have hnames : ["aggregate_id", "tenant_id", "command_id", "parent_command_id", "sequence_id",
      "principal_id", "source", "payload", "timestamp"].Nodup := by decide
  exact Format.record_hasForm hnames (.required (hid.hasForm _) (.required htenant
    (.required ⟨_, hidentifier _⟩ (.required hparent (.required hsequence (.required hprincipal
    (.required (Format.string_hasForm _) (.required (hpayload.hasForm _)
    (.required (Format.timestamp_hasForm htime) Fields.none_hasForm))))))))) rfl

/-- A command with a scalar id and a plain payload comes back, where its time is read back of its
text. -/
theorem roundTrips {codec : Codec} (hid : Wire.Scalar ι fitsId) (hpayload : Wire.Plain κ fitsPayload)
    (htime : Timestamp.ofText? command.timestamp.toText = some command.timestamp)
    (h : codec = .binary → command.Fits fitsId fitsPayload) : codec.RoundTrips command :=
  Codec.roundTrips (fun hbinary => readsBack hid hpayload htime (h hbinary))
    (hasForm hid hpayload htime)

end CommandEnvelope

end Chronicle

import Chronicle.Proofs.Aggregate.Play
import Chronicle.Proofs.Codec.JsonForm
import Chronicle.Proofs.Text.Hexadecimal
import Chronicle.Sample.Account

/-!
# Events of accounts come back of their bytes

Both codecs lose nothing of an event, as long as the bytes of the owner's name can be counted in
64 bits; a longer text fits into no memory. What a command brings about carries no name but the
one that the command itself carries.
-/

namespace Chronicle.Sample

/-- The id of an account comes back of its text. -/
theorem accountType_ofText_toText (id : accountType.Id) :
    accountType.instanceId.ofText (accountType.instanceId.toText id) = .ok id := by
  simp only [accountType, InstanceId.ofText, InstanceId.toText, Uuid.ofText?_toText]

/-- The names that an event carries can be counted. -/
def AccountEvent.Fits : AccountEvent → Prop
  | .opened owner => owner.utf8ByteSize < UInt64.size
  | _ => True

def AccountCommand.Fits : AccountCommand → Prop
  | .openFor owner => owner.utf8ByteSize < UInt64.size
  | _ => True

theorem ownerRecord_readsBack {owner : String} (h : owner.utf8ByteSize < UInt64.size) :
    ownerRecord.ReadsBack owner :=
  Format.record_readsBack (.required (Format.string_readsBack h) Fields.none_readsBack) rfl

theorem amountRecord_readsBack (amount : UInt64) : amountRecord.ReadsBack amount :=
  Format.record_readsBack (.required (Format.uint64_readsBack amount) Fields.none_readsBack) rfl

theorem ownerRecord_hasForm (owner : String) : ownerRecord.HasForm owner :=
  Format.record_hasForm (by decide) (.required (Format.string_hasForm owner) Fields.none_hasForm)
    rfl

theorem amountRecord_hasForm (amount : UInt64) : amountRecord.HasForm amount :=
  Format.record_hasForm (by decide) (.required (Format.uint64_hasForm amount) Fields.none_hasForm)
    rfl

namespace AccountEvent

theorem readsBack {event : AccountEvent} (h : event.Fits) :
    (Wire.format (α := AccountEvent)).ReadsBack event := by
  cases event with
  | opened owner =>
    exact Format.union_readsBack (by decide)
      (Variants.holding_readsBack (ownerRecord_readsBack h)) rfl
  | deposited amount =>
    exact Format.union_readsBack (by decide)
      (.behind_holding (Variants.holding_readsBack (amountRecord_readsBack amount))) rfl
  | withdrawn amount =>
    exact Format.union_readsBack (by decide) (.behind_holding
      (.behind_holding (Variants.holding_readsBack (amountRecord_readsBack amount)))) rfl
  | closed =>
    exact Format.union_readsBack (by decide)
      (.behind_holding (.behind_holding (.behind_holding Variants.plain_readsBack))) rfl

theorem hasForm (event : AccountEvent) : (Wire.format (α := AccountEvent)).HasForm event := by
  cases event with
  | opened owner =>
    exact Format.union_hasForm (Variants.holding_shows (ownerRecord_hasForm owner)) rfl
  | deposited amount =>
    exact Format.union_hasForm
      (.behind_holding (Variants.holding_shows (amountRecord_hasForm amount)) (by decide)) rfl
  | withdrawn amount =>
    exact Format.union_hasForm (.behind_holding (.behind_holding
      (Variants.holding_shows (amountRecord_hasForm amount)) (by decide)) (by decide)) rfl
  | closed =>
    exact Format.union_hasForm (.behind_holding (.behind_holding (.behind_holding
      Variants.plain_shows (by decide)) (by decide)) (by decide)) rfl

/-- An event comes back of the bytes that either codec writes. -/
theorem decode_encode {event : AccountEvent} (hfits : event.Fits) {codec : Codec} {data : Bytes}
    (h : codec.encode event = .ok data) : codec.decode data = .ok event :=
  Codec.decode_encode (fun _ => readsBack hfits) event.hasForm h

end AccountEvent

namespace AccountState

/-- The name that a state carries can be counted. -/
def Fits (state : AccountState) : Prop := ∀ owner ∈ state.owner, owner.utf8ByteSize < UInt64.size

theorem readsBack {state : AccountState} (h : state.Fits) :
    (Wire.format (α := AccountState)).ReadsBack state := by
  have howner : Format.string.option.ReadsBack state.owner :=
    Format.option_readsBack fun owner hin => Format.string_readsBack (h owner hin)
  exact Format.record_readsBack (.required howner (.required (Format.uint64_readsBack _)
    (.required (Format.bool_readsBack _) Fields.none_readsBack))) rfl

theorem hasForm (state : AccountState) : (Wire.format (α := AccountState)).HasForm state := by
  have howner : Format.string.option.HasForm state.owner :=
    Format.option_hasForm fun owner _ =>
      ⟨Json.str owner, ⟨rfl, Json.written_str owner, rfl⟩, nofun⟩
  exact Format.record_hasForm (by decide) (.required howner (.required (Format.uint64_hasForm _)
    (.required (Format.bool_hasForm _) Fields.none_hasForm))) rfl

/-- A state comes back of the bytes that either codec writes, if the name that it carries can be
counted. -/
theorem decode_encode {state : AccountState} (hfits : state.Fits) {codec : Codec} {data : Bytes}
    (h : codec.encode state = .ok data) : codec.decode data = .ok state :=
  Codec.decode_encode (fun _ => readsBack hfits) state.hasForm h

end AccountState

/-- A command applies no event with a name that the command itself does not carry. -/
theorem AccountCommand.onlyApplies_handle {command : CommandEnvelope AccountId AccountCommand}
    (h : command.payload.Fits) (state : AccountState) :
    (AccountCommand.handle command state).OnlyApplies AccountEvent.Fits := by
  unfold AccountCommand.handle
  cases hpayload : command.payload with
  | openFor owner =>
    rw [hpayload] at h
    dsimp only
    split
    · exact Decision.onlyApplies_emitOnly h
    · trivial
  | deposit amount =>
    dsimp only
    split
    · trivial
    split
    · exact Decision.onlyApplies_emitOnly trivial
    · trivial
  | withdraw amount =>
    dsimp only
    split
    · split
      · exact Decision.onlyApplies_emitOnly trivial
      · trivial
    · trivial
  | close =>
    dsimp only
    split
    · exact Decision.onlyApplies_emitOnly trivial
    · trivial

end Chronicle.Sample

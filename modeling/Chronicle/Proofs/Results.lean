import Chronicle.Proofs.Aggregate.Calls
import Chronicle.Proofs.Codec.Reading
import Chronicle.Proofs.Codec.RoundTrip
import Chronicle.Proofs.Engine.Atomicity

/-!
# The law of results

A result has changes only if its command was accepted, and a reason exactly if it was not
(`CommandResult.Lawful`). The results that are made keep this law, and commands are answered with no
others. A codec, however, puts a result together of whatever fields it finds. So a result that is
read keeps the law exactly if the bytes tell fields that agree with each other
(`CommandResult.Agrees`), and where they do not it is read all the same.
-/

namespace Chronicle

namespace CommandResult

/-! ## The law -/

/-- The law of results. -/
structure Lawful (r : CommandResult) : Prop where
  changes : r.hasChanges = true → r.accepted = true
  reason : r.reason.isSome = true ↔ r.accepted = false

instance (r : CommandResult) : Decidable r.Lawful :=
  decidable_of_iff
    ((r.hasChanges = true → r.accepted = true) ∧ (r.reason.isSome = true ↔ r.accepted = false))
    ⟨fun ⟨changes, reason⟩ => ⟨changes, reason⟩, fun ⟨changes, reason⟩ => ⟨changes, reason⟩⟩

/-- The results that are made, and put at other versions. -/
inductive Made : CommandResult → Prop
  | accept (hasChanges : Bool) (version : Version) : Made (.accept hasChanges version)
  | reject (reason : String) (version : Version) : Made (.reject reason version)
  | atVersion {r : CommandResult} (h : Made r) (version : Version) : Made (r.atVersion version)

variable {r : CommandResult}

/-- The law allows accepted results without a reason, and rejected ones without changes but with a
reason. -/
theorem lawful_iff : r.Lawful ↔ r.accepted = true ∧ r.reason = none ∨
    r.accepted = false ∧ r.hasChanges = false ∧ ∃ reason, r.reason = some reason := by
  rw [← Option.isSome_iff_exists, ← Option.not_isSome_iff_eq_none]
  constructor
  · rintro ⟨hchanges, hreason⟩
    cases haccepted : r.accepted with
    | true => exact .inl ⟨rfl, fun hsome => by simp [hreason.mp hsome] at haccepted⟩
    | false =>
      refine .inr ⟨rfl, Bool.eq_false_iff.mpr fun hsome => ?_, hreason.mpr haccepted⟩
      simp [hchanges hsome] at haccepted
  · rintro (⟨haccepted, hnone⟩ | ⟨haccepted, hsame, hsome⟩)
    · exact ⟨fun _ => haccepted, fun hsome => absurd hsome hnone, by simp [haccepted]⟩
    · exact ⟨by simp [hsame], fun _ => haccepted, fun _ => hsome⟩

/-- The results that are made are those that the law allows. -/
theorem made_iff_lawful : r.Made ↔ r.Lawful := by
  constructor
  · intro h
    induction h with
    | accept hasChanges version => exact ⟨fun _ => rfl, nofun, nofun⟩
    | reject reason version => exact ⟨nofun, fun _ => rfl, fun _ => rfl⟩
    | atVersion _ version ih => exact ⟨ih.changes, ih.reason⟩
  · intro h
    obtain ⟨accepted, hasChanges, reason, version⟩ := r
    rcases lawful_iff.mp h with ⟨haccepted, hnone⟩ | ⟨haccepted, hsame, reason, hsome⟩
    · obtain rfl : accepted = true := haccepted
      obtain rfl := hnone
      exact .accept hasChanges version
    · obtain rfl : accepted = false := haccepted
      obtain rfl : hasChanges = false := hsame
      obtain rfl := hsome
      exact .reject reason version

/-! ## What is read -/

/-- What bytes that are read as a result tell of it agrees: it was accepted and there is no reason,
or it was not and there are no changes, but a reason. -/
def Agrees : Codec → Bytes → Prop
  | .binary, data =>
    (∃ changes rest, data = 1 :: changes :: 0 :: rest) ∨ ∃ rest, data = 0 :: 0 :: 1 :: rest
  | .json, data => ∃ document, Json.parse? data = some document ∧
    (document.field? "accepted" 0 = some (.bool true) ∧
        (document.field? "error" 2 = none ∨ document.field? "error" 2 = some .null) ∨
      document.field? "accepted" 0 = some (.bool false) ∧
        document.field? "has_changes" 1 = some (.bool false) ∧
        ∃ reason, document.field? "error" 2 = some (.text reason))

/-- The first three bytes of the binary form tell the flags of a result and whether it has a
reason. -/
theorem ofBinary_eq_some {data rest : Bytes}
    (h : (Wire.format (α := CommandResult)).ofBinary data = some (r, rest)) :
    ∃ tail, data = (if r.accepted then 1 else 0) :: (if r.hasChanges then 1 else 0) ::
      (if r.reason.isSome then 1 else 0) :: tail := by
  obtain ⟨⟨accepted, changes, reason, fields⟩, hfields, rfl⟩ := Format.record_ofBinary_eq_some h
  obtain ⟨tail, haccepted, hfields⟩ := Fields.required_ofBinary_eq_some hfields
  obtain ⟨tail, hchanges, hfields⟩ := Fields.required_ofBinary_eq_some hfields
  obtain ⟨_, hreason, -⟩ := Fields.required_ofBinary_eq_some hfields
  obtain ⟨tail, rfl⟩ := Format.option_ofBinary_eq_some hreason
  obtain rfl := Format.bool_ofBinary_eq_some hchanges
  exact ⟨tail, Format.bool_ofBinary_eq_some haccepted⟩

/-- A document tells the flags of a result, and its reason unless it has none. -/
structure Told (r : CommandResult) (document : Json) : Prop where
  accepted : document.field? "accepted" 0 = some (.bool r.accepted)
  changes : document.field? "has_changes" 1 = some (.bool r.hasChanges)
  reason : r.reason = none ∧
      (document.field? "error" 2 = none ∨ document.field? "error" 2 = some .null) ∨
    ∃ reason, r.reason = some reason ∧ document.field? "error" 2 = some (.text (some reason))

theorem ofJson_eq_some {document : Json}
    (h : (Wire.format (α := CommandResult)).ofJson document = some r) : r.Told document := by
  obtain ⟨⟨accepted, changes, reason, fields⟩, rfl, hdocument⟩ := Format.record_ofJson_eq_some h
  rcases hdocument with ⟨members, rfl, hfields⟩ | ⟨items, rfl, hfields⟩
  · obtain ⟨haccepted, hfields⟩ := Fields.required_ofMembers_eq_some hfields
    obtain ⟨hchanges, hfields⟩ := Fields.required_ofMembers_eq_some hfields
    obtain ⟨hreason, -⟩ := Fields.required_ofMembers_eq_some hfields
    -- only the reason may be left out
    have hflag : ∀ {name : String} {b : Bool},
        (Fields.find members name = none ∧ Format.bool.missing = some b ∨
          ∃ json, Fields.find members name = some json ∧ Format.bool.ofJson json = some b) →
        Fields.find members name = some (.bool b) := by
      rintro name b (⟨-, hmissing⟩ | ⟨json, hfind, hread⟩)
      · cases hmissing
      · rw [hfind, Format.bool_ofJson_eq_some hread]
    refine ⟨hflag haccepted, hflag hchanges, ?_⟩
    rcases hreason with ⟨hfind, hmissing⟩ | ⟨json, hfind, hread⟩
    · exact .inl ⟨(Option.some.inj hmissing).symm, .inl hfind⟩
    · rcases Format.string_option_ofJson_eq_some hread with ⟨hnone, rfl⟩ | ⟨text, hsome, rfl⟩
      · exact .inl ⟨hnone, .inr hfind⟩
      · exact .inr ⟨text, hsome, hfind⟩
  · obtain ⟨first, items, rfl, haccepted, hfields⟩ := Fields.required_ofItems_eq_some hfields
    obtain ⟨second, items, rfl, hchanges, hfields⟩ := Fields.required_ofItems_eq_some hfields
    obtain ⟨third, items, rfl, hreason, -⟩ := Fields.required_ofItems_eq_some hfields
    obtain rfl := Format.bool_ofJson_eq_some haccepted
    obtain rfl := Format.bool_ofJson_eq_some hchanges
    refine ⟨rfl, rfl, ?_⟩
    rcases Format.string_option_ofJson_eq_some hreason with ⟨hnone, rfl⟩ | ⟨text, hsome, rfl⟩
    · exact .inl ⟨hnone, .inr rfl⟩
    · exact .inr ⟨text, hsome, rfl⟩

/-- A result that is read keeps the law exactly if what the bytes tell agrees. -/
theorem lawful_iff_agrees {codec : Codec} {data : Bytes} (h : codec.decode data = .ok r) :
    r.Lawful ↔ Agrees codec data := by
  rw [lawful_iff]
  cases codec with
  | binary =>
    obtain ⟨⟨found, rest⟩, hread, rfl⟩ := Option.map_eq_some_iff.mp (Codec.decode_eq_ok h)
    obtain ⟨tail, rfl⟩ := ofBinary_eq_some hread
    obtain ⟨accepted, changes, reason, version⟩ := found
    -- three bytes are looked at, and each of the eight cases is plain
    cases accepted <;> cases changes <;> cases reason <;> simp [Agrees]
  | json =>
    obtain ⟨document, hparse, hread⟩ := Option.bind_eq_some_iff.mp (Codec.decode_eq_ok h)
    obtain ⟨haccepted, hchanges, hreason⟩ := ofJson_eq_some hread
    rcases hreason with ⟨hnone, hnot | hnull⟩ | ⟨reason, hsome, htext⟩
    · simp [Agrees, hparse, haccepted, hnone, hnot]
    · simp [Agrees, hparse, haccepted, hnone, hnull]
    · simp [Agrees, hparse, haccepted, hchanges, hsome, htext]

/-- Every result comes back of the bytes it is written as, whether it keeps the law or not. -/
theorem roundTrips {codec : Codec}
    (h : codec = .binary → ∀ reason ∈ r.reason, reason.utf8ByteSize < UInt64.size) :
    codec.RoundTrips r := by
  refine Codec.roundTrips (fun hbinary => ?_) ?_
  · exact Format.record_readsBack (.required (Format.bool_readsBack _) (.required
      (Format.bool_readsBack _) (.required (Format.option_readsBack fun reason hreason =>
        Format.string_readsBack (h hbinary reason hreason)) (.required
      ((Format.uint64_readsBack _).rename rfl) Fields.none_readsBack)))) rfl
  · have hnames : ["accepted", "has_changes", "error", "resulting_version"].Nodup := by decide
    have hreason : Format.string.option.HasForm r.reason :=
      Format.option_hasForm fun reason _ =>
        ⟨.str reason, ⟨rfl, Json.written_str reason, rfl⟩, nofun⟩
    exact Format.record_hasForm hnames (.required (Format.bool_hasForm _) (.required
      (Format.bool_hasForm _) (.required hreason (.required
      ((Format.uint64_hasForm _).rename rfl) Fields.none_hasForm)))) rfl

end CommandResult

/-! ## What commands are answered with -/

variable {A : AggregateType}

theorem Aggregate.conclude_made {a : Aggregate A} {p : Play A.State A.Event}
    {envelopes : List (EventEnvelope A.Id A.Event)} {r : CommandResult}
    (h : (a.conclude p envelopes).1 = .ok r) : r.Made := by
  unfold conclude at h
  cases hverdict : p.verdict with
  | accepted =>
    rw [hverdict] at h
    obtain rfl := Except.ok.inj h
    exact .accept _ _
  | rejected reason =>
    rw [hverdict] at h
    obtain rfl := Except.ok.inj h
    exact .reject _ _
  | abandoned error =>
    rw [hverdict] at h
    cases h

/-- An instance answers a command with a result that is made. -/
theorem Aggregate.execute_made {a b : Aggregate A} {command : CommandEnvelope A.Id A.Command}
    {ids ids' : IdSupply} {r : CommandResult}
    (h : a.execute command ids = .ok (.ok r, b, ids')) : r.Made := by
  rcases execute_eq_ok h with ⟨-, herror, -⟩ | ⟨-, p, envelopes, -, -, hconclude⟩
  · cases herror
  · exact conclude_made (congrArg Prod.fst hconclude).symm

namespace Engine

variable {κ π : Type} {settings : Settings} {command : CommandEnvelope A.Id A.Command}
  {w w' : World MemoryStore κ π}

/-- What is handed on of a command answers it, now or later, with a result that is made. -/
theorem handed_made {a : Aggregate A} {p : Play A.State A.Event}
    {envelopes : List (EventEnvelope A.Id A.Event)} {handled : Handled A}
    (h : handed a p envelopes = .ok handled) :
    (∀ r, handled = .idle r → r.Made) ∧ ∀ q, handled = .proposed q → q.result.Made := by
  unfold handed at h
  cases hconclude : (a.conclude p envelopes).1 with
  | error error =>
    rw [hconclude] at h
    cases h
  | ok r =>
    have hmade := Aggregate.conclude_made hconclude
    simp only [hconclude] at h
    split at h
    · obtain rfl := Except.ok.inj h
      exact ⟨nofun, fun q hq => by obtain rfl := Handled.proposed.inj hq; exact hmade⟩
    · obtain rfl := Except.ok.inj h
      exact ⟨fun r hr => by obtain rfl := Handled.idle.inj hr; exact hmade, nofun⟩

theorem decide_made {a : Aggregate A} {handled : Handled A}
    (h : decide settings command a w = .ok (.ok handled, w')) :
    (∀ r, handled = .idle r → r.Made) ∧ ∀ q, handled = .proposed q → q.result.Made := by
  obtain ⟨-, ⟨error, -, herror⟩ | ⟨b, p, envelopes, -, -, -, hhanded⟩⟩ := decide_eq_ok h
  · cases herror
  · exact handed_made hhanded.symm

/-- An engine answers a command with a result that is made. -/
theorem send_made [Carries κ A.Id A.Event] [Projection κ π] {r : CommandResult}
    (h : send settings A command w = .ok (.ok r, w')) : r.Made := by
  generalize houtcome : (.ok r : Except EngineError CommandResult) = outcome at h
  cases send_eq_ok h with
  | notStarted | unbound | undecided | refused => cases houtcome
  | idle _ _ hdecide =>
    obtain rfl := Except.ok.inj houtcome
    exact (decide_made hdecide).1 _ rfl
  | stored _ _ hdecide =>
    obtain ⟨_, -, rfl⟩ := map_eq_ok.mp houtcome.symm
    exact .atVersion ((decide_made hdecide).2 _ rfl) _

end Engine

/-- **Results keep the law unless they are read.** The results that are made are those that the law
allows, and no instance and no engine answers a command with another. A result that is read, with
either codec and of any bytes, keeps the law exactly if what the bytes tell of it agrees; and every
result is read of some bytes, whether it keeps the law or not: in the binary form where its reason
can be counted, in the JSON form always. -/
theorem results_keep_the_law_unless_read {κ π : Type} [Carries κ A.Id A.Event] [Projection κ π] :
    (∀ r : CommandResult, r.Made ↔ r.Lawful) ∧
    (∀ (a b : Aggregate A) (command : CommandEnvelope A.Id A.Command) (ids ids' : IdSupply)
      (r : CommandResult), a.execute command ids = .ok (.ok r, b, ids') → r.Lawful) ∧
    (∀ (settings : Settings) (command : CommandEnvelope A.Id A.Command)
      (w w' : World MemoryStore κ π) (r : CommandResult),
      Engine.send settings A command w = .ok (.ok r, w') → r.Lawful) ∧
    (∀ (codec : Codec) (data : Bytes) (r : CommandResult), codec.decode data = .ok r →
      (r.Lawful ↔ CommandResult.Agrees codec data)) ∧
    ∀ (codec : Codec) (r : CommandResult),
      (codec = .binary → ∀ reason ∈ r.reason, reason.utf8ByteSize < UInt64.size) →
      codec.RoundTrips r :=
  ⟨fun _ => CommandResult.made_iff_lawful,
    fun _ _ _ _ _ _ h => CommandResult.made_iff_lawful.mp (Aggregate.execute_made h),
    fun _ _ _ _ _ h => CommandResult.made_iff_lawful.mp (Engine.send_made h),
    fun _ _ _ => CommandResult.lawful_iff_agrees,
    fun _ _ => CommandResult.roundTrips⟩

open Sample in
/-- A number is added to a sequence, by its instance and through an engine, and a refusal is written
and read: all of these keep the law. -/
theorem addition_keeps_the_law :
    (∃ r b ids, (Aggregate.hydrating (A := sequenceType) .default (7 : UInt64)
        sequenceType.mutator).markReady.execute (addition [3]).command ⟨0⟩ = .ok (.ok r, b, ids) ∧
      r.Lawful) ∧
    (∃ r w', Engine.send (addition [3]).settings sequenceType (addition [3]).command
        (.blank : World MemoryStore Carrier Inert) = .ok (.ok r, w') ∧ r.Lawful) ∧
    ∃ data, Codec.json.encode (CommandResult.reject "no" ⟨3⟩) = .ok data ∧
      CommandResult.Agrees .json data := by
  obtain ⟨hmade, hexecute, hsend, hread, hback⟩ := results_keep_the_law_unless_read
    (A := sequenceType) (κ := Carrier) (π := Inert)
  have hexecuted : ∃ b ids, (Aggregate.hydrating (A := sequenceType) .default (7 : UInt64)
      sequenceType.mutator).markReady.execute (addition [3]).command ⟨0⟩ =
        .ok (.ok ⟨true, true, none, ⟨1⟩⟩, b, ids) := ⟨_, _, rfl⟩
  have hsent : ∃ w', Engine.send (addition [3]).settings sequenceType (addition [3]).command
      (.blank : World MemoryStore Carrier Inert) = .ok (.ok ⟨true, true, none, ⟨1⟩⟩, w') :=
    ⟨_, rfl⟩
  obtain ⟨b, ids, hexecuted⟩ := hexecuted
  obtain ⟨w', hsent⟩ := hsent
  obtain ⟨data, hdata, hresult⟩ := hback .json (.reject "no" ⟨3⟩) nofun
  exact ⟨⟨_, b, ids, hexecuted, hexecute _ _ _ _ _ _ hexecuted⟩, ⟨_, w', hsent, hsend _ _ _ _ _ hsent⟩,
    data, hdata, (hread _ _ _ hresult).mp ((hmade _).mp (.reject "no" ⟨3⟩))⟩

/-- Of fields that do not agree a result is read as well: rejected, with changes and no reason. -/
theorem unlawful_result_is_read :
    Codec.binary.decode [0, 1, 0, 0, 0, 0, 0, 0, 0, 0, 0] =
        .ok (⟨false, true, none, ⟨0⟩⟩ : CommandResult) ∧
      Codec.json.decode (Json.ascii "[false,true,null,0]") =
        .ok (⟨false, true, none, ⟨0⟩⟩ : CommandResult) ∧
      ¬ (⟨false, true, none, ⟨0⟩⟩ : CommandResult).Lawful := by
  decide +kernel

end Chronicle

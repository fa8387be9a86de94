import Chronicle.Proofs.Sample.Sequence

/-!
# Registering one type after another

A registry keeps two tables, which are changed one after the other. `Coherent` says that they bind
the same names and tags to each other, that each tag is read by a type that was registered under it,
and that there are as many as were registered. It holds of the empty registry and is kept by every
registration, whether it succeeds or not (`coherent_registerEach`); what a registry answers follows
from it.
-/

namespace Chronicle

variable {κ : Type}

/-! ## What an erased envelope hides -/

/-- An erased envelope hides a typed one and shows its header. -/
structure AnyEnvelope.Hides {ι ε : Type} [Carries κ ι ε] [EventKind ε] (envelope : AnyEnvelope κ)
    (typed : EventEnvelope ι ε) : Prop where
  content : envelope.typed? ι ε = some typed
  stream : envelope.stream = typed.stream
  tenant : envelope.tenant = typed.tenant
  version : envelope.version = typed.version
  kind : envelope.kind = typed.kind
  eventId : envelope.eventId = typed.eventId
  commandId : envelope.commandId = typed.commandId
  sequenceId : envelope.sequenceId = typed.sequenceId

theorem AnyEnvelope.hides_erase (A : AggregateType) [Carries κ A.Id A.Event]
    (typed : EventEnvelope A.Id A.Event) (position : Option GlobalPosition) :
    (AnyEnvelope.erase A typed position : AnyEnvelope κ).Hides typed :=
  ⟨Carries.unwrap?_wrap typed, rfl, rfl, rfl, rfl, rfl, rfl, rfl⟩

/-! ## Registrations -/

/-- An aggregate type to be registered. -/
structure Registration (κ : Type) where
  A : AggregateType
  [carries : Carries κ A.Id A.Event]

attribute [instance] Registration.carries

namespace Registry

/-- Registers types one after the other. -/
def registerEach (r : Registry κ) :
    List (Registration κ) → Checked (List (Except RegistryError Unit) × Registry κ)
  | [] => .ok ([], r)
  | x :: xs => do
    let (answer, r) ← (registerInPlace x.A).perform r
    let (answers, r) ← r.registerEach xs
    return (answer :: answers, r)

/-- The registrations that were answered with success. -/
def succeeded (xs : List (Registration κ)) (answers : List (Except RegistryError Unit)) :
    List (Registration κ) :=
  ((xs.zip answers).filter fun asked => asked.2.isOk).map Prod.fst

/-- Both tables are changed or neither is. -/
theorem registerInPlace_does (A : AggregateType) [Carries κ A.Id A.Event] :
    (registerInPlace A).Does fun r : Registry κ => .ok (r.register A) := by
  intro r
  simp only [registerInPlace, register, InPlace.perform_bind, InPlace.perform_get]
  split <;> rfl

/-! ## Names and tags -/

theorem tagOfName_eq_ok_iff {r : Registry κ} {name : String} {tag : TypeTag} :
    r.tagOfName name = .ok tag ↔ r.byName? name = some tag := by
  unfold tagOfName
  cases r.byName? name <;> simp

theorem nameOfTag_eq_ok_iff {r : Registry κ} {tag : TypeTag} {name : String} :
    r.nameOfTag tag = .ok name ↔
      ∃ binding, r.byTag? tag = some binding ∧ binding.name = name := by
  unfold nameOfTag
  cases r.byTag? tag <;> simp

/-- Neither the name nor the tag of a type is bound. -/
def Free (r : Registry κ) (A : AggregateType) : Prop :=
  r.byName? A.name = none ∧ r.byTag? A.tag = none

theorem free_iff {r : Registry κ} {A : AggregateType} :
    r.Free A ↔
      (∀ tag, r.tagOfName A.name ≠ .ok tag) ∧ ∀ name, r.nameOfTag A.tag ≠ .ok name := by
  simp [Free, tagOfName_eq_ok_iff, nameOfTag_eq_ok_iff, Option.eq_none_iff_forall_ne_some]

/-- A type that is bound under a free tag is one more. -/
theorem size_bound {r : Registry κ} {A : AggregateType} [Carries κ A.Id A.Event]
    (htag : r.byTag? A.tag = none) : (r.bound A).size = r.size + 1 := by
  have hsize : ∀ r : Registry κ, r.size = r.byTag.keys.length := fun r => by
    simp [size, bindings, Table.values, Table.keys]
  have hnew : A.tag ∉ r.byTag.keys := fun hin => Table.mem_keys_iff.mp hin htag
  rw [hsize, hsize, bound, Table.keys_set, if_neg hnew, List.length_append]
  rfl

/-! ## Coherence -/

/-- The tables of a registry go together, and hold the registrations that were made. -/
structure Coherent (r : Registry κ) (made : List (Registration κ)) : Prop where
  inverse : ∀ name tag, r.byName? name = some tag ↔
    ∃ binding, r.byTag? tag = some binding ∧ binding.name = name
  origin : ∀ tag binding, r.byTag? tag = some binding →
    ∃ x ∈ made, x.A.tag = tag ∧ binding = .of x.A
  size : r.size = made.length

theorem coherent_empty : (Registry.empty : Registry κ).Coherent [] where
  inverse _ _ := ⟨nofun, fun ⟨_, h, _⟩ => nomatch h⟩
  origin _ _ h := nomatch h
  size := rfl

/-- A type whose name and tag are free is bound coherently. -/
theorem Coherent.bound {r : Registry κ} {made : List (Registration κ)} (h : r.Coherent made)
    (x : Registration κ) (hfree : r.Free x.A) :
    (r.bound x.A).Coherent (made ++ [x]) where
  inverse name tag := by
    rw [byName?_bound, byTag?_bound]
    -- a name and a tag of which only one is new are not bound to each other, before or after
    by_cases hn : name = x.A.name <;> by_cases ht : tag = x.A.tag
    · subst hn ht
      simp [Binding.of]
    · rw [if_pos hn, if_neg ht, hn, ← h.inverse, hfree.1]
      simp [Ne.symm ht]
    · have hold : r.byName? name ≠ some tag := fun hold => by
        obtain ⟨binding, hbinding, -⟩ := (h.inverse name tag).mp hold
        rw [ht, hfree.2] at hbinding
        cases hbinding
      simp [hn, ht ▸ hold, ht, Binding.of, Ne.symm hn]
    · rw [if_neg hn, if_neg ht]
      exact h.inverse name tag
  origin tag binding hbinding := by
    rw [byTag?_bound] at hbinding
    split at hbinding
    · next ht => exact ⟨x, by simp, ht.symm, (Option.some.inj hbinding).symm⟩
    · obtain ⟨y, hy, htag, rfl⟩ := h.origin tag binding hbinding
      exact ⟨y, List.mem_append_left _ hy, htag, rfl⟩
  size := by rw [size_bound hfree.2, h.size, List.length_append]; rfl

theorem perform_of_free {r : Registry κ} {A : AggregateType} [Carries κ A.Id A.Event]
    (h : r.Free A) : (registerInPlace A).perform r = .ok (.ok (), r.bound A) := by
  have hregister : r.register A = .ok (r.bound A) := register_eq_ok_iff.mpr ⟨h.1, h.2, rfl⟩
  simp only [registerInPlace_does A r, hregister]
  rfl

theorem perform_of_not_free {r : Registry κ} {A : AggregateType} [Carries κ A.Id A.Event]
    (h : ¬ r.Free A) :
    (registerInPlace A).perform r = .ok (.error (.duplicate A.name A.tag), r) := by
  have hregister : r.register A = .error (.duplicate A.name A.tag) := by
    refine if_pos ?_
    rw [Free, not_and_or] at h
    rw [Bool.or_eq_true]
    exact h.imp Option.ne_none_iff_isSome.mp Option.ne_none_iff_isSome.mp
  simp only [registerInPlace_does A r, hregister]
  rfl

theorem registerEach_cons {r r' r'' : Registry κ} {x : Registration κ} {xs : List (Registration κ)}
    {answer : Except RegistryError Unit} {answers : List (Except RegistryError Unit)}
    (hx : (registerInPlace x.A).perform r = .ok (answer, r'))
    (hxs : r'.registerEach xs = .ok (answers, r'')) :
    r.registerEach (x :: xs) = .ok (answer :: answers, r'') := by
  rw [registerEach, hx]
  show (r'.registerEach xs >>= _) = _
  rw [hxs]
  rfl

/-- What a type that is bound under a free name and a free tag preserves, registrations preserve,
with those that succeed. -/
theorem registerEach_induction {P : Registry κ → List (Registration κ) → Prop}
    (step : ∀ {r made} (x : Registration κ), r.Free x.A → P r made →
      P (r.bound x.A) (made ++ [x]))
    (xs : List (Registration κ)) :
    ∀ {r : Registry κ} {made : List (Registration κ)}, P r made →
      ∃ answers r', r.registerEach xs = .ok (answers, r') ∧ answers.length = xs.length ∧
        P r' (made ++ succeeded xs answers) := by
  induction xs with
  | nil =>
    intro r made h
    exact ⟨[], r, rfl, rfl, by simpa [succeeded] using h⟩
  | cons x xs ih =>
    intro r made h
    by_cases hfree : r.Free x.A
    · obtain ⟨answers, r', hrest, hlength, hlast⟩ := ih (step x hfree h)
      rw [List.append_assoc] at hlast
      exact ⟨_, r', registerEach_cons (perform_of_free hfree) hrest, congrArg Nat.succ hlength,
        hlast⟩
    · obtain ⟨answers, r', hrest, hlength, hlast⟩ := ih h
      exact ⟨_, r', registerEach_cons (perform_of_not_free hfree) hrest, congrArg Nat.succ hlength,
        hlast⟩

/-- Registrations keep a registry coherent, with those that succeed. -/
theorem coherent_registerEach (xs : List (Registration κ)) :
    ∀ {r : Registry κ} {made : List (Registration κ)}, r.Coherent made →
      ∃ answers r', r.registerEach xs = .ok (answers, r') ∧ answers.length = xs.length ∧
        r'.Coherent (made ++ succeeded xs answers) :=
  registerEach_induction (fun x hfree h => h.bound x hfree) xs

/-- A coherent registry knows a name by a tag where it knows the tag by the name. -/
theorem Coherent.tagOfName_eq_ok_iff {r : Registry κ} {made : List (Registration κ)}
    (h : r.Coherent made) {name : String} {tag : TypeTag} :
    r.tagOfName name = .ok tag ↔ r.nameOfTag tag = .ok name := by
  rw [Registry.tagOfName_eq_ok_iff, nameOfTag_eq_ok_iff]
  exact h.inverse name tag

/-- What a coherent registry reads of a stored event was read by a type that was registered. -/
theorem Coherent.decode_eq_ok {r : Registry κ} {made : List (Registration κ)}
    (h : r.Coherent made) {row : RecordedEvent} {codec : Codec} {envelope : AnyEnvelope κ}
    (hdecode : r.decode row codec = .ok envelope) :
    ∃ x ∈ made, x.A.tag = row.event.metadata.aggregateType ∧
      r.byTag? row.event.metadata.aggregateType = some (.of x.A) ∧
      ∃ typed : EventEnvelope x.A.Id x.A.Event, EventEnvelope.ofRecorded row codec = .ok typed ∧
        envelope = .erase x.A typed (some row.position) := by
  obtain ⟨binding, hbinding, hread⟩ := Registry.decode_eq_ok hdecode
  obtain ⟨x, hx, htag, rfl⟩ := h.origin _ binding hbinding
  obtain ⟨typed, htyped, rfl⟩ := map_eq_ok.mp hread
  exact ⟨x, hx, htag, hbinding, typed, htyped, rfl⟩

theorem Coherent.typed {r : Registry κ} {made : List (Registration κ)} (h : r.Coherent made) :
    r.Typed := by
  intro tag binding hbinding
  obtain ⟨x, -, htag, rfl⟩ := h.origin tag binding hbinding
  exact ⟨x.A, x.carries, htag, rfl⟩

/-- **A registry binds names and tags one to one, and reads each row by the type of its tag.** After
any registrations, of whatever types and however they collide, a name leads to a tag exactly if the
tag leads to the name, and there are as many types as registrations that succeeded. A further one
succeeds exactly if its name and its tag are both free, and otherwise leaves the registry as it was.
A row is read only where its tag leads to a name: what is read shows this tag and this name and the
header of the row, and hides an envelope with the same header, read by a type that was registered
under them. -/
theorem registry_binds_one_to_one (xs : List (Registration κ)) :
    ∃ answers r, (Registry.empty : Registry κ).registerEach xs = .ok (answers, r) ∧
      answers.length = xs.length ∧
      (∀ name tag, r.tagOfName name = .ok tag ↔ r.nameOfTag tag = .ok name) ∧
      r.size = (succeeded xs answers).length ∧
      (∀ x : Registration κ, ∃ answer r', (registerInPlace x.A).perform r = .ok (answer, r') ∧
        (answer = .ok () ↔
          (∀ tag, r.tagOfName x.A.name ≠ .ok tag) ∧ ∀ name, r.nameOfTag x.A.tag ≠ .ok name) ∧
        (answer ≠ .ok () → r' = r)) ∧
      ∀ (row : RecordedEvent) (codec : Codec) (envelope : AnyEnvelope κ),
        r.decode row codec = .ok envelope →
          r.nameOfTag row.event.metadata.aggregateType = .ok envelope.name ∧ envelope.Shows row ∧
          ∃ x ∈ succeeded xs answers, x.A.tag = envelope.tag ∧ x.A.name = envelope.name ∧
            ∃ typed : EventEnvelope x.A.Id x.A.Event,
              EventEnvelope.ofRecorded row codec = .ok typed ∧ envelope.Hides typed := by
  obtain ⟨answers, r, hrun, hlength, hcoherent⟩ :=
    coherent_registerEach xs (coherent_empty (κ := κ))
  rw [List.nil_append] at hcoherent
  refine ⟨answers, r, hrun, hlength, fun _ _ => hcoherent.tagOfName_eq_ok_iff, hcoherent.size,
    fun x => ?_, fun row codec envelope hdecode => ?_⟩
  · rw [← free_iff]
    by_cases hfree : r.Free x.A
    · exact ⟨.ok (), _, perform_of_free hfree, ⟨fun _ => hfree, fun _ => rfl⟩,
        fun h => absurd rfl h⟩
    · exact ⟨_, r, perform_of_not_free hfree, ⟨nofun, fun h => absurd h hfree⟩, fun _ => rfl⟩
  · obtain ⟨x, hx, htag, hbinding, typed, htyped, rfl⟩ := hcoherent.decode_eq_ok hdecode
    refine ⟨nameOfTag_eq_ok_iff.mpr ⟨_, hbinding, rfl⟩, hcoherent.typed.shows hdecode, x, hx, rfl,
      rfl, typed, htyped, AnyEnvelope.hides_erase x.A typed _⟩

end Registry

namespace Sample

/-- Two types, one with the tag of the second, and one with its name. -/
def colliding : List (Registration Carrier) :=
  [⟨sequenceType⟩, ⟨probe "probe"⟩, ⟨probe "probe-two"⟩, ⟨{ probe "probe" with tag := ⟨8⟩ }⟩]

/-- The addition of five to the sequence `7`, at the start of its log. -/
def firstAddition : RecordedEvent :=
  ⟨sequenceType.stream (7 : UInt64), ⟨1⟩, ⟨1⟩, storedAddition 5⟩

end Sample

open Sample Registry in
/-- Of four types, two are refused, and the events of the others are read. -/
theorem Registry.colliding_types_are_refused :
    ∃ answers r, (Registry.empty : Registry Carrier).registerEach colliding = .ok (answers, r) ∧
      answers = [.ok (), .ok (), .error (.duplicate "probe-two" ⟨7⟩),
        .error (.duplicate "probe" ⟨8⟩)] ∧
      (∀ name tag, r.tagOfName name = .ok tag ↔ r.nameOfTag tag = .ok name) ∧ r.size = 2 ∧
      ∃ envelope, r.decode firstAddition .binary = .ok envelope ∧
        r.nameOfTag ⟨1⟩ = .ok envelope.name ∧ envelope.Shows firstAddition := by
  have hregister : (Registry.empty : Registry Carrier).registerEach colliding = .ok (_, _) := rfl
  obtain ⟨answers, r, hrun, -, hinverse, hsize, -, hread⟩ := registry_binds_one_to_one colliding
  obtain ⟨rfl, rfl⟩ := Prod.mk.inj (Except.ok.inj (hregister.symm.trans hrun))
  have hdecode := hread firstAddition .binary _ rfl
  exact ⟨_, _, hrun, rfl, hinverse, hsize, _, rfl, hdecode.1, hdecode.2.1⟩

end Chronicle

import Chronicle.Proofs.Bus.Acts
import Chronicle.Proofs.Store.Unnamed
import Chronicle.Sample.Balances

/-!
# Views that refuse without memory

A view may refuse an event, and the command that led to it is then told so. A view is *impartial* if
what it refuses depends on how it is set and on the event, and not on what it was handed before:
handling events leaves the setting as it is. Recorders are impartial, and so are balances, which
refuse nothing, and inert views.

What a bus with impartial views answers to a publication is then a matter of the settings alone
(`Bus.verdict`), as long as no view stops with a fault (`publish_cases`).
-/

namespace Chronicle

/-- Views that refuse by their setting, which handling an event does not change. -/
class Impartial (κ π : Type) [Projection κ π] where
  Setting : Type
  setting : π → Setting
  named : Setting → String
  refusal : Setting → AnyEnvelope κ → Option ProjectionError
  name_eq (view : π) : Projection.name κ view = named (setting view)
  handle_error {view : π} {envelope : AnyEnvelope κ} {error : ProjectionError} :
    Projection.handle view envelope = .ok (.error error) →
      refusal (setting view) envelope = some error
  handle_ok {view changed : π} {envelope : AnyEnvelope κ} :
    Projection.handle view envelope = .ok (.ok changed) →
      refusal (setting view) envelope = none ∧ setting changed = setting view
  /-- The name of the event does not matter. -/
  refusal_erase (setting : Setting) {A : AggregateType} [Carries κ A.Id A.Event]
    {envelope envelope' : EventEnvelope A.Id A.Event} :
    envelope.unnamed = envelope'.unnamed →
      refusal setting (.erase A envelope none) = refusal setting (.erase A envelope' none)

/-! ## Who is impartial -/

section

variable {κ : Type}

/-- A recorder is set by its name and by the kind of event that it refuses. -/
instance : Impartial κ (Recorder κ) where
  Setting := String × Option String
  setting recorder := (recorder.name, recorder.refuses)
  named := Prod.fst
  refusal := fun (name, refuses) envelope =>
    if refuses = some envelope.kind then
      some (.eventProcessing (name ++ " refuses " ++ envelope.kind))
    else none
  name_eq _ := rfl
  handle_error := by
    intro recorder envelope error h
    have h := Except.ok.inj h
    unfold Recorder.handle at h
    split at h
    · next hrefuses => simpa [hrefuses] using h
    · cases h
  handle_ok := by
    intro recorder changed envelope h
    have h := Except.ok.inj h
    unfold Recorder.handle at h
    split at h
    · cases h
    · next hrefuses =>
      obtain rfl := Except.ok.inj h
      exact ⟨by simp [hrefuses], rfl⟩
  refusal_erase := by
    intro (name, refuses) A _ envelope envelope' h
    have hpayload : envelope.unnamed.payload = envelope'.unnamed.payload := by rw [h]
    have hkind : (AnyEnvelope.erase (κ := κ) A envelope none).kind =
        (AnyEnvelope.erase (κ := κ) A envelope' none).kind := congrArg EventKind.kind hpayload
    simp only [hkind]

instance : Impartial κ Inert where
  Setting := String
  setting := Inert.name
  named := id
  refusal _ _ := none
  name_eq _ := rfl
  handle_error h := nomatch h
  handle_ok h := ⟨rfl, congrArg Inert.name (Except.ok.inj (Except.ok.inj h)).symm⟩
  refusal_erase _ _ _ _ _ _ := rfl

instance [Carries κ AccountId Sample.AccountEvent] : Impartial κ Sample.Balances where
  Setting := Unit
  setting _ := ()
  named _ := "balances"
  refusal _ _ := none
  name_eq _ := rfl
  handle_error := by
    intro view envelope error h
    simp only [Projection.handle] at h
    split at h
    · cases h
    · obtain ⟨_, _, h⟩ := map_eq_ok.mp h
      cases h
  handle_ok _ := ⟨rfl, rfl⟩
  refusal_erase _ _ _ _ _ _ := rfl

variable {π ρ : Type} [Projection κ π] [Projection κ ρ]

theorem handle_inl_eq_ok {view : π} {envelope : AnyEnvelope κ}
    {outcome : Except ProjectionError (π ⊕ ρ)} :
    Projection.handle (.inl view : π ⊕ ρ) envelope = .ok outcome ↔
      ∃ answer, Projection.handle view envelope = .ok answer ∧ answer.map .inl = outcome :=
  map_eq_ok

theorem handle_inr_eq_ok {view : ρ} {envelope : AnyEnvelope κ}
    {outcome : Except ProjectionError (π ⊕ ρ)} :
    Projection.handle (.inr view : π ⊕ ρ) envelope = .ok outcome ↔
      ∃ answer, Projection.handle view envelope = .ok answer ∧ answer.map .inr = outcome :=
  map_eq_ok

instance [Impartial κ π] [Impartial κ ρ] : Impartial κ (π ⊕ ρ) where
  Setting := Impartial.Setting κ π ⊕ Impartial.Setting κ ρ
  setting := Sum.map Impartial.setting Impartial.setting
  named := Sum.elim Impartial.named Impartial.named
  refusal := Sum.elim Impartial.refusal Impartial.refusal
  name_eq view := by
    cases view with
    | inl view => exact Impartial.name_eq view
    | inr view => exact Impartial.name_eq view
  handle_error := by
    intro view envelope error h
    cases view with
    | inl view =>
      obtain ⟨_ | _, hhandle, ⟨⟩⟩ := handle_inl_eq_ok.mp h
      exact Impartial.handle_error hhandle
    | inr view =>
      obtain ⟨_ | _, hhandle, ⟨⟩⟩ := handle_inr_eq_ok.mp h
      exact Impartial.handle_error hhandle
  handle_ok := by
    intro view changed envelope h
    cases view with
    | inl view =>
      obtain ⟨_ | _, hhandle, ⟨⟩⟩ := handle_inl_eq_ok.mp h
      obtain ⟨hrefusal, hsetting⟩ := Impartial.handle_ok hhandle
      exact ⟨hrefusal, congrArg Sum.inl hsetting⟩
    | inr view =>
      obtain ⟨_ | _, hhandle, ⟨⟩⟩ := handle_inr_eq_ok.mp h
      obtain ⟨hrefusal, hsetting⟩ := Impartial.handle_ok hhandle
      exact ⟨hrefusal, congrArg Sum.inr hsetting⟩
  refusal_erase setting := by
    cases setting with
    | inl setting => exact Impartial.refusal_erase setting
    | inr setting => exact Impartial.refusal_erase setting

end

/-! ## What a bus answers -/

/-- A view stops with a fault, at some event. -/
def Faulty (κ π : Type) [Projection κ π] (fault : Fault) : Prop :=
  ∃ (view : π) (envelope : AnyEnvelope κ), Projection.handle view envelope = .error fault

namespace Bus

variable {κ π : Type} [Projection κ π] [Impartial κ π]

def settings (views : List π) : List (Impartial.Setting κ π) := views.map Impartial.setting

/-- What the views at some places answer to an envelope, going by their settings. -/
def verdict (settings : List (Impartial.Setting κ π)) (envelope : AnyEnvelope κ) :
    List Nat → Except BusError Unit
  | [] => .ok ()
  | place :: places =>
    match settings[place]? with
    | none => verdict settings envelope places
    | some setting =>
      match Impartial.refusal setting envelope with
      | some error => .error (.projection (Impartial.named setting) error)
      | none => verdict settings envelope places

theorem deliver_cases (envelope : AnyEnvelope κ) (places : List Nat) : ∀ views : List π,
    (∃ fault, deliver envelope places views = .error fault ∧ Faulty κ π fault) ∨
      ∃ views', deliver envelope places views =
          .ok (verdict (settings views) envelope places, views') ∧
        settings (κ := κ) views' = settings views := by
  induction places with
  | nil => exact fun views => Or.inr ⟨views, rfl, rfl⟩
  | cons place places ih =>
    intro views
    have hsetting : (settings (κ := κ) views)[place]? = views[place]?.map Impartial.setting :=
      List.getElem?_map
    cases hview : views[place]? with
    | none =>
      rw [hview] at hsetting
      simp only [deliver, verdict, hview, hsetting, Option.map_none]
      exact ih views
    | some view =>
      rw [hview] at hsetting
      simp only [deliver, verdict, hview, hsetting, Option.map_some]
      cases hhandle : Projection.handle view envelope with
      | error fault => exact Or.inl ⟨fault, rfl, view, envelope, hhandle⟩
      | ok outcome =>
        cases outcome with
        | error error =>
          rw [Impartial.handle_error hhandle, ← Impartial.name_eq view]
          exact Or.inr ⟨views, rfl, rfl⟩
        | ok changed =>
          obtain ⟨hrefusal, hsame⟩ := Impartial.handle_ok hhandle
          have hset : settings (κ := κ) (views.set place changed) = settings views := by
            obtain ⟨hlt, hsetting⟩ := List.getElem?_eq_some_iff.mp hsetting
            rw [settings, List.map_set, hsame, ← hsetting]
            exact List.set_getElem_self hlt
          rw [hrefusal, ← hset]
          exact ih _

/-- What the views at some places answer to one envelope after the other. -/
def verdicts (settings : List (Impartial.Setting κ π)) (places : List Nat) :
    List (AnyEnvelope κ) → Except BusError Unit
  | [] => .ok ()
  | envelope :: envelopes =>
    match verdict settings envelope places with
    | .error error => .error error
    | .ok () => verdicts settings places envelopes

/-- Two buses whose views are set alike, and that refuse alike. -/
structure Alike (bus bus' : Bus κ π) : Prop where
  refuses : bus'.refuses = bus.refuses
  registered : bus'.registered = bus.registered
  settings : settings (κ := κ) bus'.projections = settings bus.projections

theorem Alike.refl (bus : Bus κ π) : bus.Alike bus := ⟨rfl, rfl, rfl⟩

theorem Alike.symm {bus bus' : Bus κ π} (h : bus.Alike bus') : bus'.Alike bus :=
  ⟨h.refuses.symm, h.registered.symm, h.settings.symm⟩

theorem Alike.trans {bus bus' bus'' : Bus κ π} (h : bus.Alike bus') (h' : bus'.Alike bus'') :
    bus.Alike bus'' :=
  ⟨h'.refuses.trans h.refuses, h'.registered.trans h.registered, h'.settings.trans h.settings⟩

theorem publishEach_cases (envelopes : List (AnyEnvelope κ)) :
    ∀ (bus : Bus κ π) (tracker : CompletionTracker),
      (∃ fault, publishEach envelopes bus tracker = .error fault ∧ Faulty κ π fault) ∨
        ∃ bus' tracker', publishEach envelopes bus tracker =
            .ok (verdicts (settings bus.projections) bus.registered envelopes, bus', tracker') ∧
          bus.Alike bus' := by
  induction envelopes with
  | nil => exact fun bus tracker => Or.inr ⟨bus, tracker, rfl, .refl bus⟩
  | cons envelope envelopes ih =>
    intro bus tracker
    rw [publishEach, verdicts]
    rcases deliver_cases envelope bus.registered bus.projections with
      ⟨fault, hdeliver, hfaulty⟩ | ⟨views, hdeliver, hsame⟩
    · rw [hdeliver]
      exact Or.inl ⟨fault, rfl, hfaulty⟩
    rw [hdeliver]
    cases verdict (settings bus.projections) envelope bus.registered with
    | error error =>
      exact Or.inr ⟨{ bus with projections := views }, tracker, rfl, rfl, rfl, hsame⟩
    | ok =>
      rcases ih ({ bus with projections := views }.note envelope)
        ({ bus with projections := views }.report tracker envelope) with
        ⟨fault, hrest, hfaulty⟩ | ⟨bus', tracker', hrest, halike⟩
      · exact Or.inl ⟨fault, hrest, hfaulty⟩
      · have hviews : bus.Alike { bus with projections := views } := ⟨rfl, rfl, hsame⟩
        simp only [note, hsame] at hrest
        exact Or.inr ⟨bus', tracker', hrest, hviews.trans ⟨halike.1, halike.2, halike.3⟩⟩

/-- What a bus answers to a batch, going by the settings. -/
def answer (bus : Bus κ π) (batch : List (AnyEnvelope κ)) : Except BusError Unit :=
  if bus.refuses then .error (.publish "in-memory bus refuses publication")
  else verdicts (settings bus.projections) bus.registered batch

/-- A publication stops with the fault of a view, or is answered by the settings and leaves them
as they are. -/
theorem publish_cases (bus : Bus κ π) (tracker : CompletionTracker)
    (batch : List (AnyEnvelope κ)) :
    (∃ fault, bus.publish tracker batch = .error fault ∧ Faulty κ π fault) ∨
      ∃ bus' tracker', bus.publish tracker batch = .ok (bus.answer batch, bus', tracker') ∧
        bus.Alike bus' := by
  rw [publish_eq, answer]
  split
  · exact Or.inr ⟨bus, tracker, rfl, .refl bus⟩
  rcases publishEach_cases batch bus tracker with
    ⟨fault, heach, hfaulty⟩ | ⟨bus', tracker', heach, halike⟩
  · rw [heach]
    exact Or.inl ⟨fault, rfl, hfaulty⟩
  · rw [heach]
    cases verdicts (settings bus.projections) bus.registered batch with
    | error error => exact Or.inr ⟨bus', tracker', rfl, halike⟩
    | ok =>
      exact Or.inr ⟨{ bus' with batches := bus'.batches + 1 }, tracker', rfl, halike.1, halike.2,
        halike.3⟩

theorem verdicts_of_unnamed_eq {A : AggregateType} [Carries κ A.Id A.Event]
    (settings : List (Impartial.Setting κ π)) (places : List Nat) :
    ∀ {envelopes envelopes' : List (EventEnvelope A.Id A.Event)},
      envelopes.map EventEnvelope.unnamed = envelopes'.map EventEnvelope.unnamed →
      verdicts settings places (envelopes.map fun e => AnyEnvelope.erase A e none) =
        verdicts settings places (envelopes'.map fun e => AnyEnvelope.erase A e none) := by
  have hone : ∀ {e e' : EventEnvelope A.Id A.Event}, e.unnamed = e'.unnamed →
      verdict settings (.erase A e none) places = verdict settings (.erase A e' none) places := by
    intro e e' h
    induction places with
    | nil => rfl
    | cons place places ih =>
      rw [verdict, verdict, ih]
      cases settings[place]? with
      | none => rfl
      | some setting => simp only [Impartial.refusal_erase setting h]
  intro envelopes
  induction envelopes with
  | nil =>
    intro envelopes' h
    rw [List.map_eq_nil_iff.mp h.symm]
  | cons e envelopes ih =>
    intro envelopes' h
    cases envelopes' with
    | nil => cases h
    | cons e' envelopes' =>
      obtain ⟨hfirst, hrest⟩ := List.cons.inj h
      rw [List.map_cons, List.map_cons, verdicts, verdicts, hone hfirst, ih hrest]

/-- Buses that are alike answer alike to events that are the same but for their names. -/
theorem Alike.answer {bus bus' : Bus κ π} (h : bus.Alike bus') {A : AggregateType}
    [Carries κ A.Id A.Event] {envelopes envelopes' : List (EventEnvelope A.Id A.Event)}
    (hsame : envelopes.map EventEnvelope.unnamed = envelopes'.map EventEnvelope.unnamed) :
    bus.answer (envelopes.map fun e => AnyEnvelope.erase A e none) =
      bus'.answer (envelopes'.map fun e => AnyEnvelope.erase A e none) := by
  rw [Bus.answer, Bus.answer, h.refuses, h.registered, h.settings, verdicts_of_unnamed_eq _ _ hsame]

end Bus

end Chronicle

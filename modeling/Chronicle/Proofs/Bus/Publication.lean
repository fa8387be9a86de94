import Chronicle.Proofs.Bus.Acts
import Chronicle.Proofs.Store.Numbers

/-!
# What a bus that accepts has published

A publication that succeeds adds its envelopes to what was published, in their order, and counts
as one batch. `Accepts` is a sequence of such publications; `Accepts.adds` says what they come to.

Projections are found by their places. One that is registered once `Follows` what is published: it
handles each envelope once and in order (`Accepts.follows`), whatever the other projections are. So
a recorder has received what was published since it was reset (`Accepts.received`).
-/

namespace Chronicle

namespace Bus

variable {κ π : Type} [Projection κ π]

/-! ## Publications that succeed -/

/-- One bus has published some envelopes more than the other, and is otherwise the same but for
its projections. -/
structure Adds (bus bus' : Bus κ π) (envelopes : List (AnyEnvelope κ)) (batches : Nat) : Prop where
  published : bus'.published = bus.published ++ envelopes
  batches : bus'.batches = bus.batches + batches
  registered : bus'.registered = bus.registered
  refuses : bus'.refuses = bus.refuses
  reports : bus'.reports = bus.reports

theorem publishEach_cons_eq_ok {envelope : AnyEnvelope κ} {envelopes : List (AnyEnvelope κ)}
    {bus bus' : Bus κ π} {tracker tracker' : CompletionTracker}
    (h : publishEach (envelope :: envelopes) bus tracker = .ok (.ok (), bus', tracker')) :
    ∃ projections, deliver envelope bus.registered bus.projections = .ok (.ok (), projections) ∧
      publishEach envelopes ({ bus with projections := projections }.note envelope)
        ({ bus with projections := projections }.report tracker envelope) =
          .ok (.ok (), bus', tracker') := by
  obtain ⟨⟨outcome, projections⟩, hdeliver, h⟩ := bind_eq_ok.mp h
  cases outcome with
  | error error => cases h
  | ok => exact ⟨projections, hdeliver, h⟩

theorem publishEach_adds {envelopes : List (AnyEnvelope κ)} :
    ∀ {bus bus' : Bus κ π} {tracker tracker' : CompletionTracker},
      publishEach envelopes bus tracker = .ok (.ok (), bus', tracker') →
      bus.Adds bus' envelopes 0 := by
  induction envelopes with
  | nil =>
    intro bus bus' tracker tracker' h
    obtain ⟨-, rfl, rfl⟩ := Except.ok.inj h
    exact ⟨(List.append_nil _).symm, rfl, rfl, rfl, rfl⟩
  | cons envelope envelopes ih =>
    intro bus bus' tracker tracker' h
    obtain ⟨projections, -, h⟩ := publishEach_cons_eq_ok h
    have hrest := ih h
    refine ⟨?_, hrest.batches, hrest.registered, hrest.refuses, hrest.reports⟩
    rw [hrest.published]
    exact List.append_assoc bus.published [envelope] envelopes

/-- A batch that is published was published one envelope after the other. -/
theorem publish_eq_ok {bus bus' : Bus κ π} {tracker tracker' : CompletionTracker}
    {batch : List (AnyEnvelope κ)} (h : bus.publish tracker batch = .ok (.ok (), bus', tracker')) :
    ∃ each, publishEach batch bus tracker = .ok (.ok (), each, tracker') ∧
      bus' = { each with batches := each.batches + 1 } := by
  rw [publish_eq] at h
  split at h
  · cases h
  · obtain ⟨⟨outcome, each, _⟩, heach, h⟩ := bind_eq_ok.mp h
    cases outcome with
    | error error => cases h
    | ok =>
      obtain ⟨-, rfl, rfl⟩ := Except.ok.inj h
      exact ⟨each, heach, rfl⟩

theorem publish_adds {bus bus' : Bus κ π} {tracker tracker' : CompletionTracker}
    {batch : List (AnyEnvelope κ)} (h : bus.publish tracker batch = .ok (.ok (), bus', tracker')) :
    bus.Adds bus' batch 1 := by
  obtain ⟨each, heach, rfl⟩ := publish_eq_ok h
  have hadds := publishEach_adds heach
  exact ⟨hadds.published, congrArg (· + 1) hadds.batches, hadds.registered, hadds.refuses,
    hadds.reports⟩

/-- The bus accepts some batches, one after the other. -/
inductive Accepts : Bus κ π → CompletionTracker → List (List (AnyEnvelope κ)) → Bus κ π →
    CompletionTracker → Prop
  | nil (bus : Bus κ π) (tracker : CompletionTracker) : Accepts bus tracker [] bus tracker
  | cons {bus bus₁ bus' : Bus κ π} {tracker tracker₁ tracker' : CompletionTracker}
      {batch : List (AnyEnvelope κ)} {batches : List (List (AnyEnvelope κ))}
      (hfirst : bus.publish tracker batch = .ok (.ok (), bus₁, tracker₁))
      (hrest : Accepts bus₁ tracker₁ batches bus' tracker') :
      Accepts bus tracker (batch :: batches) bus' tracker'

theorem Accepts.adds {bus bus' : Bus κ π} {tracker tracker' : CompletionTracker}
    {batches : List (List (AnyEnvelope κ))} (h : Accepts bus tracker batches bus' tracker') :
    bus.Adds bus' batches.flatten batches.length := by
  induction h with
  | nil => exact ⟨(List.append_nil _).symm, rfl, rfl, rfl, rfl⟩
  | @cons _ _ _ _ _ _ batch batches hfirst _ ih =>
    have hadds := publish_adds hfirst
    refine ⟨?_, ?_, ih.registered.trans hadds.registered, ih.refuses.trans hadds.refuses,
      ih.reports.trans hadds.reports⟩
    · rw [ih.published, hadds.published, List.append_assoc, List.flatten_cons]
    · rw [ih.batches, hadds.batches, List.length_cons]
      omega

theorem Accepts.append {bus bus₁ bus' : Bus κ π} {tracker tracker₁ tracker' : CompletionTracker}
    {before since : List (List (AnyEnvelope κ))} (h : Accepts bus tracker before bus₁ tracker₁)
    (h' : Accepts bus₁ tracker₁ since bus' tracker') :
    Accepts bus tracker (before ++ since) bus' tracker' := by
  induction h with
  | nil => exact h'
  | cons hfirst _ ih => exact .cons hfirst (ih h')

/-! ## Who accepts everything -/

section Willing

/-- Projections of a kind take every envelope, and stay of that kind. -/
def Willing (kind : π → Prop) : Prop :=
  ∀ view (envelope : AnyEnvelope κ), kind view →
    ∃ changed, Projection.handle view envelope = .ok (.ok changed) ∧ kind changed

variable {kind : π → Prop}

theorem deliver_of_willing (hkind : Willing (κ := κ) kind) (envelope : AnyEnvelope κ)
    (places : List Nat) : ∀ {projections : List π}, (∀ view ∈ projections, kind view) →
      ∃ projections', deliver envelope places projections = .ok (.ok (), projections') ∧
        ∀ view ∈ projections', kind view := by
  induction places with
  | nil => exact fun hviews => ⟨_, rfl, hviews⟩
  | cons place places ih =>
    intro projections hviews
    cases hview : projections[place]? with
    | none =>
      obtain ⟨projections', hdeliver, hviews'⟩ := ih hviews
      exact ⟨projections', by rw [deliver, hview]; exact hdeliver, hviews'⟩
    | some view =>
      obtain ⟨changed, hhandle, hchanged⟩ :=
        hkind view envelope (hviews view (List.mem_of_getElem? hview))
      have hset : ∀ other ∈ projections.set place changed, kind other := fun other hother => by
        rcases List.mem_or_eq_of_mem_set hother with hother | rfl
        · exact hviews other hother
        · exact hchanged
      obtain ⟨projections', hdeliver, hviews'⟩ := ih hset
      refine ⟨projections', ?_, hviews'⟩
      rw [deliver, hview]
      simp only [hhandle]
      exact hdeliver

theorem publishEach_of_willing (hkind : Willing (κ := κ) kind) (envelopes : List (AnyEnvelope κ)) :
    ∀ (bus : Bus κ π) (tracker : CompletionTracker), (∀ view ∈ bus.projections, kind view) →
      ∃ bus' tracker', publishEach envelopes bus tracker = .ok (.ok (), bus', tracker') ∧
        ∀ view ∈ bus'.projections, kind view := by
  induction envelopes with
  | nil => exact fun bus tracker hviews => ⟨bus, tracker, rfl, hviews⟩
  | cons envelope envelopes ih =>
    intro bus tracker hviews
    obtain ⟨projections, hdeliver, hviews'⟩ :=
      deliver_of_willing hkind envelope bus.registered hviews
    obtain ⟨bus', tracker', hrest, hlast⟩ :=
      ih ({ bus with projections := projections }.note envelope)
        ({ bus with projections := projections }.report tracker envelope) hviews'
    refine ⟨bus', tracker', ?_, hlast⟩
    rw [publishEach, hdeliver]
    exact hrest

/-- A bus that does not refuse, and whose projections are all willing, accepts any batches. -/
theorem accepts_of_willing (hkind : Willing (κ := κ) kind)
    (batches : List (List (AnyEnvelope κ))) :
    ∀ (bus : Bus κ π) (tracker : CompletionTracker), bus.refuses = false →
      (∀ view ∈ bus.projections, kind view) →
      ∃ bus' tracker', bus.Accepts tracker batches bus' tracker' := by
  induction batches with
  | nil => exact fun bus tracker _ _ => ⟨bus, tracker, .nil bus tracker⟩
  | cons batch batches ih =>
    intro bus tracker hrefuses hviews
    obtain ⟨each, tracker₁, heach, hviews'⟩ :=
      publishEach_of_willing hkind batch bus tracker hviews
    have hfirst : bus.publish tracker batch =
        .ok (.ok (), { each with batches := each.batches + 1 }, tracker₁) := by
      rw [publish_eq, hrefuses, heach]
      rfl
    have hrefuses' := (publishEach_adds heach).refuses.trans hrefuses
    obtain ⟨bus', tracker', hrest⟩ :=
      ih { each with batches := each.batches + 1 } tracker₁ hrefuses' hviews'
    exact ⟨bus', tracker', .cons hfirst hrest⟩

theorem willing_inert : Willing (κ := κ) fun _ : Inert => True :=
  fun view _ _ => ⟨view, rfl, trivial⟩

end Willing

/-- The bus accepts any batches, whatever the tracker. -/
def Obliging (bus : Bus κ π) : Prop :=
  ∀ tracker batches, ∃ bus' tracker', bus.Accepts tracker batches bus' tracker'

theorem obliging_of_willing {kind : π → Prop} (hkind : Willing (κ := κ) kind) {bus : Bus κ π}
    (hrefuses : bus.refuses = false) (hviews : ∀ view ∈ bus.projections, kind view) :
    bus.Obliging :=
  fun tracker batches => accepts_of_willing hkind batches bus tracker hrefuses hviews

/-- A publication does not look at the tracker. -/
theorem publishEach_of_tracker {outcome : Except BusError Unit} {envelopes : List (AnyEnvelope κ)} :
    ∀ {bus bus' : Bus κ π} {tracker tracker' : CompletionTracker},
      publishEach envelopes bus tracker = .ok (outcome, bus', tracker') → ∀ other,
        ∃ other', publishEach envelopes bus other = .ok (outcome, bus', other') := by
  induction envelopes with
  | nil =>
    intro bus bus' tracker tracker' h other
    obtain ⟨rfl, rfl, rfl⟩ := Except.ok.inj h
    exact ⟨other, rfl⟩
  | cons envelope envelopes ih =>
    intro bus bus' tracker tracker' h other
    obtain ⟨⟨delivered, projections⟩, hdeliver, h⟩ := bind_eq_ok.mp h
    rw [publishEach, hdeliver]
    cases delivered with
    | error error =>
      obtain ⟨rfl, rfl, rfl⟩ := Except.ok.inj h
      exact ⟨other, rfl⟩
    | ok => exact ih h _

theorem publish_of_tracker {outcome : Except BusError Unit} {batch : List (AnyEnvelope κ)}
    {bus bus' : Bus κ π} {tracker tracker' : CompletionTracker}
    (h : bus.publish tracker batch = .ok (outcome, bus', tracker')) (other : CompletionTracker) :
    ∃ other', bus.publish other batch = .ok (outcome, bus', other') := by
  rw [publish_eq] at h ⊢
  split at h
  · next hrefuses =>
    obtain ⟨rfl, rfl, rfl⟩ := Except.ok.inj h
    exact ⟨other, if_pos hrefuses⟩
  · next hwilling =>
    obtain ⟨⟨found, each, after⟩, heach, h⟩ := bind_eq_ok.mp h
    obtain ⟨other', hother⟩ := publishEach_of_tracker heach other
    rw [if_neg hwilling, hother]
    cases found with
    | error error | ok =>
      obtain ⟨rfl, rfl, rfl⟩ := Except.ok.inj h
      exact ⟨other', rfl⟩

theorem Accepts.of_tracker {batches : List (List (AnyEnvelope κ))} {bus bus' : Bus κ π}
    {tracker tracker' : CompletionTracker} (h : bus.Accepts tracker batches bus' tracker') :
    ∀ other, ∃ other', bus.Accepts other batches bus' other' := by
  induction h with
  | nil bus => exact fun other => ⟨other, .nil bus other⟩
  | cons hfirst _ ih =>
    intro other
    obtain ⟨other₁, hother⟩ := publish_of_tracker hfirst other
    obtain ⟨other', hrest⟩ := ih other₁
    exact ⟨other', .cons hother hrest⟩

/-- A bus that accepts any batches publishes one, and accepts any others then. -/
theorem Obliging.exists_publish {bus : Bus κ π} (h : bus.Obliging) (tracker : CompletionTracker)
    (batch : List (AnyEnvelope κ)) :
    ∃ bus' tracker', bus.publish tracker batch = .ok (.ok (), bus', tracker') ∧ bus'.Obliging := by
  obtain ⟨_, _, haccepts⟩ := h tracker [batch]
  cases haccepts with
  | @cons _ bus₁ _ _ tracker₁ _ _ _ hfirst _ =>
    refine ⟨bus₁, tracker₁, hfirst, fun other batches => ?_⟩
    obtain ⟨bus₂, tracker₂, haccepts⟩ := h tracker (batch :: batches)
    cases haccepts with
    | cons hagain hrest =>
      obtain ⟨-, rfl, rfl⟩ := Except.ok.inj (hfirst.symm.trans hagain)
      exact ⟨bus₂, hrest.of_tracker other⟩

/-! ## What all projections keep -/

section Keeping

/-- What projections are, they are still when they have taken an envelope. -/
def Kept (P : π → Prop) : Prop :=
  ∀ view (envelope : AnyEnvelope κ) changed, P view →
    Projection.handle view envelope = .ok (.ok changed) → P changed

variable {P : π → Prop}

theorem deliver_keeps (hkept : Kept (κ := κ) P) {envelope : AnyEnvelope κ} {places : List Nat} :
    ∀ {projections projections' : List π} {outcome : Except BusError Unit},
      deliver envelope places projections = .ok (outcome, projections') →
      (∀ view ∈ projections, P view) → ∀ view ∈ projections', P view := by
  induction places with
  | nil =>
    intro projections projections' outcome h hviews
    obtain ⟨-, rfl⟩ := Prod.mk.inj (Except.ok.inj h)
    exact hviews
  | cons place places ih =>
    intro projections projections' outcome h hviews
    unfold deliver at h
    split at h
    · exact ih h hviews
    · next view hview =>
      obtain ⟨answer, hhandle, h⟩ := bind_eq_ok.mp h
      cases answer with
      | error error =>
        obtain ⟨-, rfl⟩ := Prod.mk.inj (Except.ok.inj h)
        exact hviews
      | ok changed =>
        refine ih h fun other hother => ?_
        rcases List.mem_or_eq_of_mem_set hother with hother | rfl
        · exact hviews other hother
        · exact hkept _ _ _ (hviews view (List.mem_of_getElem? hview)) hhandle

theorem publishEach_keeps (hkept : Kept (κ := κ) P) {envelopes : List (AnyEnvelope κ)} :
    ∀ {bus bus' : Bus κ π} {tracker tracker' : CompletionTracker}
      {outcome : Except BusError Unit},
      publishEach envelopes bus tracker = .ok (outcome, bus', tracker') →
      (∀ view ∈ bus.projections, P view) → ∀ view ∈ bus'.projections, P view := by
  induction envelopes with
  | nil =>
    intro bus bus' tracker tracker' outcome h hviews
    obtain ⟨-, rfl, -⟩ := Except.ok.inj h
    exact hviews
  | cons envelope envelopes ih =>
    intro bus bus' tracker tracker' outcome h hviews
    obtain ⟨⟨delivered, projections⟩, hdeliver, h⟩ := bind_eq_ok.mp h
    have hviews' := deliver_keeps hkept hdeliver hviews
    cases delivered with
    | error error =>
      obtain ⟨-, rfl, -⟩ := Except.ok.inj h
      exact hviews'
    | ok => exact ih h hviews'

theorem publish_keeps (hkept : Kept (κ := κ) P) {batch : List (AnyEnvelope κ)}
    {bus bus' : Bus κ π} {tracker tracker' : CompletionTracker} {outcome : Except BusError Unit}
    (h : bus.publish tracker batch = .ok (outcome, bus', tracker'))
    (hviews : ∀ view ∈ bus.projections, P view) : ∀ view ∈ bus'.projections, P view := by
  rw [publish_eq] at h
  split at h
  · obtain ⟨-, rfl, -⟩ := Except.ok.inj h
    exact hviews
  · obtain ⟨⟨found, each, _⟩, heach, h⟩ := bind_eq_ok.mp h
    have hviews' := publishEach_keeps hkept heach hviews
    cases found with
    | error error | ok =>
      obtain ⟨-, rfl, -⟩ := Except.ok.inj h
      exact hviews'

end Keeping

/-! ## One projection -/

section Projections

/-- A projection handles some envelopes, one after the other. -/
inductive Follows : π → List (AnyEnvelope κ) → π → Prop
  | nil (view : π) : Follows view [] view
  | cons {view changed view' : π} {envelope : AnyEnvelope κ} {envelopes : List (AnyEnvelope κ)}
      (hfirst : Projection.handle view envelope = .ok (.ok changed))
      (hrest : Follows changed envelopes view') : Follows view (envelope :: envelopes) view'

theorem Follows.append {view passing view' : π} {before since : List (AnyEnvelope κ)}
    (h : Follows view before passing) (h' : Follows passing since view') :
    Follows view (before ++ since) view' := by
  induction h with
  | nil => exact h'
  | cons hfirst _ ih => exact .cons hfirst (ih h')

theorem Follows.split {before since : List (AnyEnvelope κ)} :
    ∀ {view view' : π}, Follows view (before ++ since) view' →
      ∃ passing, Follows view before passing ∧ Follows passing since view' := by
  induction before with
  | nil => exact fun h => ⟨_, .nil _, h⟩
  | cons envelope before ih =>
    intro view view' h
    cases h with
    | cons hfirst hrest =>
      obtain ⟨passing, hbefore, hsince⟩ := ih hrest
      exact ⟨passing, .cons hfirst hbefore, hsince⟩

/-- The projection at a place is handed an envelope as often as the place is listed. -/
theorem deliver_follows {envelope : AnyEnvelope κ} {place : Nat} {places : List Nat} :
    ∀ {projections projections' : List π} {view : π}, projections[place]? = some view →
      deliver envelope places projections = .ok (.ok (), projections') →
      ∃ view', projections'[place]? = some view' ∧
        Follows view (List.replicate (places.count place) envelope) view' := by
  induction places with
  | nil =>
    intro projections projections' view hview h
    obtain ⟨-, rfl⟩ := Except.ok.inj h
    exact ⟨view, hview, .nil view⟩
  | cons first places ih =>
    intro projections projections' view hview h
    unfold deliver at h
    split at h
    · next hnone =>
      have hne : first ≠ place := by
        rintro rfl
        rw [hnone] at hview
        cases hview
      rw [List.count_cons_of_ne hne]
      exact ih hview h
    · next found hfound =>
      obtain ⟨outcome, hhandle, h⟩ := bind_eq_ok.mp h
      cases outcome with
      | error error => cases h
      | ok changed =>
        by_cases heq : first = place
        · subst heq
          obtain rfl := Option.some.inj (hfound.symm.trans hview)
          have hlt := (List.getElem?_eq_some_iff.mp hview).1
          obtain ⟨view', hview', hrest⟩ := ih (List.getElem?_set_self hlt) h
          rw [List.count_cons_self, List.replicate_succ]
          exact ⟨view', hview', .cons hhandle hrest⟩
        · rw [List.count_cons_of_ne heq]
          exact ih (by rw [List.getElem?_set_ne heq]; exact hview) h

theorem publishEach_follows {place : Nat} {envelopes : List (AnyEnvelope κ)} :
    ∀ {bus bus' : Bus κ π} {tracker tracker' : CompletionTracker} {view : π},
      bus.registered.count place = 1 → bus.projections[place]? = some view →
      publishEach envelopes bus tracker = .ok (.ok (), bus', tracker') →
      ∃ view', bus'.projections[place]? = some view' ∧ Follows view envelopes view' := by
  induction envelopes with
  | nil =>
    intro bus bus' tracker tracker' view _ hview h
    obtain ⟨-, rfl, rfl⟩ := Except.ok.inj h
    exact ⟨view, hview, .nil view⟩
  | cons envelope envelopes ih =>
    intro bus bus' tracker tracker' view hcount hview h
    obtain ⟨projections, hdeliver, h⟩ := publishEach_cons_eq_ok h
    obtain ⟨changed, hchanged, hfirst⟩ := deliver_follows hview hdeliver
    rw [hcount] at hfirst
    obtain ⟨view', hview', hrest⟩ := ih (by exact hcount) hchanged h
    exact ⟨view', hview', hfirst.append hrest⟩

/-- A projection that is registered once handles all that is published, once and in order. -/
theorem Accepts.follows {place : Nat} {bus bus' : Bus κ π}
    {tracker tracker' : CompletionTracker} {batches : List (List (AnyEnvelope κ))}
    (h : Accepts bus tracker batches bus' tracker') (hcount : bus.registered.count place = 1) :
    ∀ {view : π}, bus.projections[place]? = some view →
      ∃ view', bus'.projections[place]? = some view' ∧ Follows view batches.flatten view' := by
  induction h with
  | nil => exact fun hview => ⟨_, hview, .nil _⟩
  | cons hfirst _ ih =>
    intro view hview
    obtain ⟨each, heach, rfl⟩ := publish_eq_ok hfirst
    have hregistered := (publishEach_adds heach).registered
    obtain ⟨changed, hchanged, hfirst⟩ := publishEach_follows hcount hview heach
    obtain ⟨view', hview', hrest⟩ := ih (hregistered ▸ hcount) hchanged
    exact ⟨view', hview', hfirst.append hrest⟩

/-- Where a reset leaves projections of some kind clean, resets that all succeed leave one of them
clean if it is listed, or was clean before. -/
theorem reset_getElem? (kind clean : π → Prop)
    (hreset : ∀ view changed, kind view → Projection.reset κ view = .ok changed →
      kind changed ∧ clean changed)
    {place : Nat} {places : List Nat} :
    ∀ {projections projections' : List π} {view : π},
      reset (κ := κ) places projections = (.ok (), projections') →
      projections[place]? = some view → kind view → place ∈ places ∨ clean view →
      ∃ view', projections'[place]? = some view' ∧ clean view' := by
  induction places with
  | nil =>
    intro projections projections' view h hview _ hclean
    obtain ⟨-, rfl⟩ := h
    exact ⟨view, hview, hclean.resolve_left nofun⟩
  | cons first places ih =>
    intro projections projections' view h hview hkind hclean
    unfold reset at h
    split at h
    · next hnone =>
      have hne : place ≠ first := by
        rintro rfl
        rw [hnone] at hview
        cases hview
      exact ih h hview hkind (hclean.imp_left fun hin => (List.mem_cons.mp hin).resolve_left hne)
    · next found hfound =>
      split at h
      · cases h
      · next changed hchanged =>
        by_cases heq : first = place
        · subst heq
          obtain rfl := Option.some.inj (hfound.symm.trans hview)
          obtain ⟨hkind', hclean'⟩ := hreset _ _ hkind hchanged
          have hlt := (List.getElem?_eq_some_iff.mp hview).1
          exact ih h (List.getElem?_set_self hlt) hkind' (.inr hclean')
        · have hset : (projections.set first changed)[place]? = some view := by
            rw [List.getElem?_set_ne heq]
            exact hview
          exact ih h hset hkind
            (hclean.imp_left fun hin => (List.mem_cons.mp hin).resolve_left (Ne.symm heq))

/-- A reset leaves a projection alone that is not listed. -/
theorem reset_getElem?_of_notMem {place : Nat} {places : List Nat} (hplace : place ∉ places) :
    ∀ projections : List π, (reset (κ := κ) places projections).2[place]? = projections[place]? := by
  induction places with
  | nil => exact fun projections => rfl
  | cons first places ih =>
    intro projections
    have hne : first ≠ place := fun heq => hplace (heq ▸ List.mem_cons_self ..)
    have hrest := ih fun hin => hplace (List.mem_cons_of_mem _ hin)
    rw [reset]
    cases projections[first]? with
    | none => exact hrest projections
    | some view =>
      dsimp only
      cases Projection.reset κ view with
      | error error => rfl
      | ok changed => exact (hrest _).trans (List.getElem?_set_ne hne)

variable {ρ : Type} [Projection κ ρ]

theorem handle_inl {view : π} {envelope : AnyEnvelope κ} {changed : π ⊕ ρ}
    (h : Projection.handle (.inl view : π ⊕ ρ) envelope = .ok (.ok changed)) :
    ∃ view', changed = .inl view' ∧ Projection.handle view envelope = .ok (.ok view') := by
  obtain ⟨outcome, houtcome, h⟩ := bind_eq_ok.mp h
  obtain ⟨view', rfl, rfl⟩ := map_eq_ok.mp (Except.ok.inj h)
  exact ⟨view', rfl, houtcome⟩

/-- A projection among others handles what it would handle alone. -/
theorem Follows.inl {view : π} {last : π ⊕ ρ} {envelopes : List (AnyEnvelope κ)}
    (h : Follows (.inl view) envelopes last) :
    ∃ view', last = .inl view' ∧ Follows view envelopes view' := by
  generalize hfirst : (Sum.inl view : π ⊕ ρ) = first at h
  induction h generalizing view with
  | nil =>
    subst hfirst
    exact ⟨view, rfl, .nil view⟩
  | cons hhandle _ ih =>
    subst hfirst
    obtain ⟨changed, rfl, hchanged⟩ := handle_inl hhandle
    obtain ⟨view', hlast, hrest⟩ := ih rfl
    exact ⟨view', hlast, .cons hchanged hrest⟩

end Projections

/-! ## Recorders -/

section Recorders

variable {ρ : Type} [Projection κ ρ]

/-- The recorder at a place has received some envelopes. -/
def HasReceived (projections : List (Recorder κ ⊕ ρ)) (place : Nat)
    (received : List (AnyEnvelope κ)) : Prop :=
  ∃ recorder, projections[place]? = some (.inl recorder) ∧ recorder.received = received

theorem Follows.received {recorder recorder' : Recorder κ} {envelopes : List (AnyEnvelope κ)}
    (h : Follows recorder envelopes recorder') :
    recorder'.received = recorder.received ++ envelopes := by
  induction h with
  | nil => exact (List.append_nil _).symm
  | @cons recorder changed _ envelope envelopes hfirst _ ih =>
    have hhandle : recorder.handle envelope = .ok changed := Except.ok.inj hfirst
    unfold Recorder.handle at hhandle
    split at hhandle
    · cases hhandle
    · obtain rfl := Except.ok.inj hhandle
      rw [ih]
      exact List.append_assoc recorder.received [envelope] envelopes

/-- A recorder that is registered once receives all that is published, once and in order. -/
theorem Accepts.received {place : Nat} {bus bus' : Bus κ (Recorder κ ⊕ ρ)}
    {tracker tracker' : CompletionTracker} {batches : List (List (AnyEnvelope κ))}
    {received : List (AnyEnvelope κ)} (h : Accepts bus tracker batches bus' tracker')
    (hcount : bus.registered.count place = 1) (hr : HasReceived bus.projections place received) :
    HasReceived bus'.projections place (received ++ batches.flatten) := by
  obtain ⟨recorder, hrecorder, rfl⟩ := hr
  obtain ⟨last, hlast, hfollows⟩ := h.follows hcount hrecorder
  obtain ⟨recorder', rfl, hreceives⟩ := hfollows.inl
  exact ⟨recorder', hlast, hreceives.received⟩

/-- Resets that all succeed leave a recorder that is listed with nothing received. -/
theorem reset_received {place : Nat} {places : List Nat}
    {projections projections' : List (Recorder κ ⊕ ρ)} {received : List (AnyEnvelope κ)}
    (h : reset (κ := κ) places projections = (.ok (), projections'))
    (hr : HasReceived projections place received) (hplace : place ∈ places) :
    HasReceived projections' place [] := by
  obtain ⟨recorder, hrecorder, -⟩ := hr
  obtain ⟨_, hview, recorder', rfl, hnone⟩ := reset_getElem? (κ := κ)
    (fun view : Recorder κ ⊕ ρ => ∃ recorder, view = .inl recorder)
    (fun view => ∃ recorder, view = .inl recorder ∧ recorder.received = [])
    (fun view changed hkind hreset => by
      obtain ⟨recorder, rfl⟩ := hkind
      obtain rfl : .inl recorder.reset = changed := Except.ok.inj hreset
      exact ⟨⟨_, rfl⟩, _, rfl, rfl⟩) h hrecorder ⟨recorder, rfl⟩ (.inl hplace)
  exact ⟨recorder', hview, hnone⟩

end Recorders

end Bus

end Chronicle

import Chronicle.Proofs.Engine.Faithful
import Chronicle.Proofs.Engine.Histories

/-!
# Laws of streams

A type `Upholds` a law of its events under some commands. If a stream is written by these commands
only, its events obey the law at every moment of every history, and so do those that any snapshot
of it stands for. Sends to other streams do not matter, and neither does what happens to the clock,
to the bus or to the readiness of store and vault.
-/

namespace Chronicle

/-- The task sends a command of a type, one of those that are taken, with a codec. -/
inductive Task.Obeys {κ : Type} (A : AggregateType) (codec : Codec)
    (takes : CommandEnvelope A.Id A.Command → Prop) : Task κ → Prop
  | of {settings : Settings} [Carries κ A.Id A.Event] {command : CommandEnvelope A.Id A.Command}
      (hcodec : settings.codec = codec) (htakes : takes command) :
      Obeys A codec takes ⟨settings, A, command⟩

/-- Nothing but such commands writes the stream or its snapshot. -/
def Happening.Heeds {κ π : Type} (A : AggregateType) (codec : Codec)
    (takes : CommandEnvelope A.Id A.Command → Prop) (tenant : TenantId) (stream : StreamId) :
    Happening κ π → Prop
  | .sent t => (t.tenant, t.stream) = (tenant, stream) → t.Obeys A codec takes
  | .called (.append other written _ _) => (other, written) ≠ (tenant, stream)
  | .planted other snapshot => (other, snapshot.stream) ≠ (tenant, stream)
  | _ => True

namespace World

variable {κ π : Type} {A : AggregateType} {codec : Codec}
  {takes : CommandEnvelope A.Id A.Command → Prop} {law : List A.Event → Prop}
  {tenant : TenantId} {stream : StreamId}

theorem Fresh.sound {w : World MemoryStore κ π} (h : w.Fresh) : w.Sound A codec tenant stream where
  dense := h.dense
  means := by
    rw [h.tenant]
    exact ⟨_, rfl⟩
  kept stored hget := by
    rw [h.get?] at hget
    cases hget

theorem Fresh.lawful {w : World MemoryStore κ π} (h : w.Fresh) (hnil : law []) :
    w.Lawful A codec law tenant stream where
  toSound := h.sound
  obeys := by
    rw [h.tenant]
    exact ⟨[], rfl, hnil⟩

variable [Projection κ π]

/-- What is not a command of the type leaves the stream alone. -/
theorem after_called {w : World MemoryStore κ π} {call : StoreCall}
    (hheeds : (Happening.called (κ := κ) (π := π) call).Heeds A codec takes tenant stream) :
    ((w.after (.called call)).store.tenant tenant).rows stream =
      (w.store.tenant tenant).rows stream := by
  rcases w.store.call_cases call with hsame | ⟨_, _, _, _, _, rfl, happends⟩
  · rw [after, hsame]
  · exact happends.rows_of_ne hheeds

/-- Whatever is not the sending of a command leaves the stream and its snapshot alone. -/
theorem after_unsent {w : World MemoryStore κ π} {h : Happening κ π}
    (hheeds : h.Heeds A codec takes tenant stream) (hunsent : ∀ t, h ≠ .sent t) :
    ((w.after h).store.tenant tenant).rows stream = (w.store.tenant tenant).rows stream ∧
      (w.after h).vault.get? tenant stream = w.vault.get? tenant stream := by
  cases h with
  | sent t => exact absurd rfl (hunsent t)
  | called call => exact ⟨after_called hheeds, rfl⟩
  | started =>
    rw [after, (w.start_tenant tenant).1, (w.start_tenant tenant).2]
    exact ⟨rfl, rfl⟩
  | clocked | refusing | rewired => exact ⟨rfl, rfl⟩
  | planted other snapshot =>
    exact ⟨rfl, (SnapshotVault.get?_plant ..).trans (if_neg fun heq => hheeds heq.symm)⟩

/-- Whatever happens, a stream that is written by such commands only stays lawful. -/
theorem after_lawful (hupholds : A.Upholds codec takes law) (w : World MemoryStore κ π)
    (h : Happening κ π) (hheeds : h.Heeds A codec takes tenant stream)
    (hw : w.Lawful A codec law tenant stream) : (w.after h).Lawful A codec law tenant stream := by
  have hdense := after_dense w h hw.dense
  cases h with
  | sent t =>
    rw [after_sent] at hdense ⊢
    by_cases hown : (t.tenant, t.stream) = (tenant, stream)
    · have hobeys := hheeds hown
      obtain ⟨rfl, rfl⟩ := Prod.mk.inj hown
      cases hobeys with
      | of hcodec htakes =>
        subst hcodec
        exact Task.run_lawful hupholds htakes hw 5
    · obtain ⟨hrows, hkept⟩ := t.run_elsewhere w hown 5
      exact hw.of_same hdense hrows hkept
  | called | started | clocked | refusing | rewired | planted =>
    obtain ⟨hrows, hkept⟩ := after_unsent hheeds fun _ heq => by cases heq
    exact hw.of_same hdense hrows hkept

theorem afterAll_lawful (hupholds : A.Upholds codec takes law) {w : World MemoryStore κ π}
    (hw : w.Lawful A codec law tenant stream) (history : List (Happening κ π))
    (hheeds : ∀ h ∈ history, h.Heeds A codec takes tenant stream) :
    (w.afterAll history).Lawful A codec law tenant stream :=
  afterAll_induction (after_lawful hupholds) hw history hheeds

end World

end Chronicle

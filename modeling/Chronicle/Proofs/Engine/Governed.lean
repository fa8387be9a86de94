import Chronicle.Proofs.Engine.Concurrent
import Chronicle.Proofs.Engine.Laws

/-!
# Laws of streams among interleaved commands

A stream of a system is `Governed` if it is lawful and all clients that write it send commands that
uphold the law. What such a client has read of the stream stays true of the beginning of it while
others append, and its own append succeeds only if nothing was appended meanwhile, so the stream
stays lawful however the phases of all clients are interleaved (`governed_moveAll`).
-/

namespace Chronicle.System

variable {κ π : Type} {A : AggregateType} {codec : Codec}
  {takes : CommandEnvelope A.Id A.Command → Prop} {law : List A.Event → Prop}
  {tenant : TenantId} {stream : StreamId}

structure Governed (s : System κ π) (A : AggregateType) (codec : Codec)
    (takes : CommandEnvelope A.Id A.Command → Prop) (law : List A.Event → Prop)
    (tenant : TenantId) (stream : StreamId) : Prop where
  lawful : s.world.Lawful A codec law tenant stream
  addressed : ∀ c ∈ s.clients, c.task.Addressed c.stage
  obeys : ∀ c ∈ s.clients, (c.task.tenant, c.task.stream) = (tenant, stream) →
    c.task.Obeys A codec takes
  grounded : ∀ c ∈ s.clients, (c.task.tenant, c.task.stream) = (tenant, stream) →
    c.task.Grounded ((s.world.store.tenant tenant).rows stream) c.stage

theorem governed_first {w : World MemoryStore κ π} (hfresh : w.Fresh) (hnil : law [])
    {tasks : List (Task κ)}
    (hobeys : ∀ t ∈ tasks, (t.tenant, t.stream) = (tenant, stream) → t.Obeys A codec takes) :
    (first w tasks).Governed A codec takes law tenant stream where
  lawful := hfresh.lawful hnil
  addressed c hc := by
    obtain ⟨t, -, rfl⟩ := List.mem_map.mp hc
    trivial
  obeys c hc := by
    obtain ⟨t, ht, rfl⟩ := List.mem_map.mp hc
    exact hobeys t ht
  grounded c hc := by
    obtain ⟨t, -, rfl⟩ := List.mem_map.mp hc
    intro
    trivial

/-- A phase of any client leaves a governed stream lawful, and grounds what the client has read. -/
theorem Governed.advances {s : System κ π} (hupholds : A.Upholds codec takes law)
    (h : s.Governed A codec takes law tenant stream) {t : Task κ} {stage stage' : Stage t.A}
    {w' : World MemoryStore κ π} (hc : ⟨t, stage⟩ ∈ s.clients)
    (hstep : t.Advances s.world stage stage' w') :
    w'.Lawful A codec law tenant stream ∧ t.Addressed stage' ∧
      ((t.tenant, t.stream) = (tenant, stream) →
        t.Grounded ((w'.store.tenant tenant).rows stream) stage') := by
  obtain ⟨haddressed, hother⟩ := hstep.elsewhere (h.addressed _ hc)
  by_cases hown : (t.tenant, t.stream) = (tenant, stream)
  · have hobeys := h.obeys _ hc hown
    have hgrounded := h.grounded _ hc hown
    have hlawful := h.lawful
    obtain ⟨rfl, rfl⟩ := Prod.mk.inj hown
    cases hobeys with
    | of hcodec htakes =>
      subst hcodec
      obtain ⟨hlawful', hgrounded'⟩ := hstep.lawful hupholds htakes ⟨hlawful, hgrounded⟩
      exact ⟨hlawful', haddressed, fun _ => hgrounded'⟩
  · obtain ⟨hrows, hkept⟩ := hother tenant stream hown
    exact ⟨h.lawful.of_same (hstep.dense h.lawful.dense) hrows hkept, haddressed,
      fun heq => absurd heq hown⟩

theorem Governed.moves {s s' : System κ π} (hupholds : A.Upholds codec takes law)
    (h : s.Governed A codec takes law tenant stream) (hmove : s.Moves s') :
    s'.Governed A codec takes law tenant stream := by
  cases hmove with
  | rests => exact h
  | @advances _ t stage _ _ hclient hstep =>
    have hrows := hstep.grows.rows tenant stream
    obtain ⟨hlawful, haddressed, hgrounded⟩ := h.advances hupholds hclient hstep
    refine ⟨hlawful, fun c hmem => ?_, fun c hmem => ?_, fun c hmem hown => ?_⟩
    · rcases List.mem_or_eq_of_mem_set hmem with hold | rfl
      · exact h.addressed c hold
      · exact haddressed
    · rcases List.mem_or_eq_of_mem_set hmem with hold | rfl
      · exact h.obeys c hold
      · exact h.obeys ⟨t, stage⟩ hclient
    · rcases List.mem_or_eq_of_mem_set hmem with hold | rfl
      · exact (h.grounded c hold hown).mono hrows
      · exact hgrounded hown
  | changes hstore hkept =>
    refine ⟨h.lawful.of_same (hstore ▸ h.lawful.dense) (by rw [hstore])
      (hkept ..), h.addressed, h.obeys, ?_⟩
    rw [hstore]
    exact h.grounded

variable [Projection κ π]

theorem governed_moveAll {s : System κ π} (hupholds : A.Upholds codec takes law)
    (h : s.Governed A codec takes law tenant stream) (moves : List Move) :
    (s.moveAll moves).Governed A codec takes law tenant stream :=
  moveAll_induction (P := (System.Governed · A codec takes law tenant stream))
    (fun hmove h => h.moves hupholds hmove) h moves

theorem moveAll_append (s : System κ π) (before since : List Move) :
    s.moveAll (before ++ since) = (s.moveAll before).moveAll since := List.foldl_append

/-- Moves only add rows. -/
theorem moveAll_grows (s : System κ π) (moves : List Move) :
    s.world.store.Grows (s.moveAll moves).world.store := by
  refine moveAll_induction (P := fun s' => s.world.store.Grows s'.world.store)
    (fun hmove h => ?_) (.refl _) moves
  cases hmove with
  | rests => exact h
  | advances _ hstep => exact h.trans hstep.grows
  | changes hstore => exact hstore ▸ h

end Chronicle.System

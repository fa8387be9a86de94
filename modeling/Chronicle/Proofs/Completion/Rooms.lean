import Chronicle.Completion.WaitingRoom
import Chronicle.Proofs.Completion.Waits

/-!
# Rooms are watches

In a `WaitingRoom` waits have names and end by a clock; in a `Watch` the time of a wait may run out
at any moment. A room is a watch in which the clock says when: call by call, the same is noted in
the tracker, the same waits begin, and the times run out that the clock has reached
(`Mirrors.after`). So what is proved of all watches holds of rooms.

The waits of a watch are never forgotten, those of a room are: one that has ended leaves its
outcome, and one that is called off leaves nothing, though it stays enrolled. `Mirrors` says which
wait of the watch each entry of the room is, by its place.
-/

namespace Chronicle

/-! ## Those who are released -/

namespace Watch

variable {steps : List Step} {w : Watch}

/-- The tracker keeps those who were told that their sequence is done. -/
def Tells (w : Watch) : Prop :=
  ∀ number, number ∈ w.tracker.released ↔
    ∃ wait ∈ w.waits, wait.number = some number ∧ wait.answers = [.ok ()]

theorem Sound.tells_completes (h : Sound steps w) (htells : w.Tells) (sequence : SequenceId)
    (event : EventId) : (w.step (.completes sequence event)).Tells := by
  intro number
  rw [step_completes]
  simp only [CompletionTracker.released_complete, List.mem_append, List.mem_map]
  constructor
  · rintro (hmem | hmem)
    · obtain ⟨wait, hwait, hnumber, hdone⟩ := (htells number).mp hmem
      obtain ⟨place, hplace⟩ := List.mem_iff_getElem?.mp hwait
      have hanswered : ¬(wait.answers = [] ∧ wait.sequence = sequence ∧
          w.tracker.empties sequence event = true) :=
        fun ⟨hopen, _⟩ => List.cons_ne_nil _ _ (hdone.symm.trans hopen)
      have hkept := h.told_of_kept hplace hanswered
      exact ⟨_, ⟨wait, hwait, hkept⟩, hnumber, hdone⟩
    · split at hmem
      · next hempties =>
        obtain ⟨wait, hwait, -, hnumber, hopen⟩ := (h.enrolled _ _).mp hmem
        rw [if_pos hempties]
        refine ⟨_, ⟨wait, hwait, Wait.told_of_mem (h.nodup _) hnumber hmem⟩, hnumber, ?_⟩
        simp only [hopen, List.nil_append]
      · cases hmem
  · rintro ⟨_, ⟨wait, hwait, rfl⟩, hnumber, hdone⟩
    by_cases hmem : number ∈
      if w.tracker.empties sequence event = true then w.tracker.waiters sequence else []
    · exact Or.inr hmem
    · rw [Wait.number_told] at hnumber
      rw [Wait.told_of_not_mem fun n hn => Option.some.inj (hnumber.symm.trans hn) ▸ hmem] at hdone
      exact Or.inl ((htells number).mpr ⟨wait, hwait, hnumber, hdone⟩)

theorem Tells.waits (h : w.Tells) (sequence : SequenceId) (timeout : Duration) :
    (w.step (.waits sequence timeout)).Tells := by
  intro number
  rcases w.tracker.enroll_cases sequence with ⟨-, henroll⟩ | ⟨t, -, henroll, hviews⟩
  · simp [step, henroll, h number, or_and_right, exists_or]
  · simp [step, henroll, hviews.released, h number, or_and_right, exists_or]

theorem released_runOut (wait : Wait) (tracker : CompletionTracker) :
    (wait.runOut tracker).2.released = tracker.released := by
  unfold Wait.runOut
  split
  · rfl
  · next number _ =>
    have hreleased := tracker.released_expire wait.sequence number
    simp only
    split
    · exact hreleased
    · split <;> exact hreleased

theorem Sound.tells_runsOut (h : Sound steps w) (htells : w.Tells) (place : Nat) :
    (w.step (.runsOut place)).Tells := by
  intro number
  cases hplace : w.waits[place]? with
  | none => simpa only [Watch.step, hplace] using htells number
  | some wait =>
    simp only [Watch.step, hplace, released_runOut]
    by_cases hopen : wait.answers = []
    · obtain ⟨_, -, hout⟩ := h.runOut_of_open hplace hopen
      rw [htells number, hout]
      constructor
      · rintro ⟨other, hmem, hnumber, hdone⟩
        obtain ⟨place', hother⟩ := List.mem_iff_getElem?.mp hmem
        have hne : place ≠ place' := by
          rintro rfl
          obtain rfl := Option.some.inj (hplace.symm.trans hother)
          cases hopen.symm.trans hdone
        exact ⟨other, List.mem_of_getElem? ((List.getElem?_set_ne hne).trans hother), hnumber,
          hdone⟩
      · rintro ⟨other, hmem, hnumber, hdone⟩
        rcases List.mem_or_eq_of_mem_set hmem with hmem | rfl
        · exact ⟨other, hmem, hnumber, hdone⟩
        · cases hdone
    · rw [(h.runOut_of_answered hplace hopen).1, set_same hplace]
      exact htells number

/-- Released are those who were told that their sequence is done. -/
theorem tells_run (steps : List Step) : (run steps).Tells := by
  induction steps using List.reverseRecOn with
  | nil => simp [run, Tells, CompletionTracker.empty]
  | append_singleton steps s ih =>
    rw [run_concat]
    cases s with
    | starts sequence event => exact ih
    | completes sequence event => exact (sound_run steps).tells_completes ih sequence event
    | waits sequence timeout => exact ih.waits sequence timeout
    | runsOut place => exact (sound_run steps).tells_runsOut ih place

/-- A wait that has a number is answered with its release, or by its time. -/
theorem mem_released_iff (steps : List Step) {place : Nat} {wait : Wait} {number : Nat}
    (hwait : (run steps).waits[place]? = some wait) (hnumber : wait.number = some number) :
    number ∈ (run steps).tracker.released ↔ wait.answers = [.ok ()] := by
  rw [tells_run steps number]
  constructor
  · rintro ⟨other, hmem, hnumber', hdone⟩
    obtain ⟨place', hother⟩ := List.mem_iff_getElem?.mp hmem
    obtain rfl := (sound_run steps).place_eq hwait hother hnumber hnumber'
    obtain rfl := Option.some.inj (hwait.symm.trans hother)
    exact hdone
  · exact fun hdone => ⟨wait, List.mem_of_getElem? hwait, hnumber, hdone⟩

/-- The time of a wait runs out that is not answered. -/
theorem runsOut_of_open {place : Nat} {wait : Wait} {number : Nat}
    (hwait : (run steps).waits[place]? = some wait) (hnumber : wait.number = some number)
    (hopen : wait.answers = []) :
    ((run steps).tracker.expire wait.sequence number).1 = true ∧
      run (steps ++ [.runsOut place]) =
        ⟨((run steps).tracker.expire wait.sequence number).2, (run steps).waits.set place
          { wait with answers := [.error ⟨wait.sequence, wait.timeout⟩] }⟩ := by
  obtain ⟨waiting, hwaiting, hmem⟩ := (sound_run steps).mem_waiters hwait hopen
  obtain ⟨late, hlate, hout⟩ := (sound_run steps).runOut_of_open hwait hopen
  obtain rfl := Option.some.inj (hnumber.symm.trans hwaiting)
  obtain rfl := Option.some.inj (hnumber.symm.trans hlate)
  constructor
  · rw [CompletionTracker.expire_fst]
    exact List.contains_iff_mem.mpr hmem
  · rw [run_concat]
    simp only [step, hwait, hout]

/-- Whether a step is more than that a time runs out. -/
def Step.isCalled : Step → Bool
  | .runsOut _ => false
  | _ => true

end Watch

/-! ## What is called in a room -/

namespace WaitingRoom

/-- One thing that is done in a room. -/
inductive Call where
  | starts (sequence : SequenceId) (event : EventId)
  | completes (sequence : SequenceId) (event : EventId)
  | waits (name : String) (sequence : SequenceId) (timeout : Duration)
  | cancels (name : String)
  | advances (millis : Nat)

namespace Call

/-- What a call is in a watch, but for the times that run out with it. -/
def step? : Call → Option Watch.Step
  | .starts sequence event => some (.starts sequence event)
  | .completes sequence event => some (.completes sequence event)
  | .waits _ sequence timeout => some (.waits sequence timeout)
  | .cancels _ | .advances _ => none

/-- The name whose waits are called off. -/
def off? : Call → Option String
  | .cancels name => some name
  | _ => none

/-- The name of the wait that begins with a call, and the reading of the clock at which it is
over. -/
def begins? (clock : Nat) : Call → Option (String × Nat)
  | .waits name _ timeout => some (name, clock + timeout.ticks)
  | _ => none

end Call

def after (room : WaitingRoom) : Call → WaitingRoom
  | .starts sequence event => room.start sequence event
  | .completes sequence event => room.complete sequence event
  | .waits name sequence timeout => room.wait name sequence timeout
  | .cancels name => room.cancel name
  | .advances millis => room.advance millis

def afterAll (room : WaitingRoom) (calls : List Call) : WaitingRoom := calls.foldl after room

/-- The waits that begin with some calls, in their order. -/
def begun (room : WaitingRoom) : List Call → List (String × Nat)
  | [] => []
  | call :: calls => (call.begins? room.clock).toList ++ (room.after call).begun calls

/-! ## Which wait is which -/

/-- An outcome is the answer to the wait at a place, which was not given before its time unless the
sequence was done. -/
def Ended (w : Watch) (begun : List (String × Nat)) (clock : Nat) (place : Nat)
    (entry : String × Except CompletionTimeout Unit) : Prop :=
  ∃ wait deadline, w.waits[place]? = some wait ∧ wait.answers = [entry.2] ∧
    begun[place]? = some (entry.1, deadline) ∧ (entry.2 = .ok () ∨ deadline ≤ clock)

/-- Somebody in the room is the wait at a place, which is open or released. -/
def Awaits (w : Watch) (begun : List (String × Nat)) (place : Nat) (waiter : Waiter) : Prop :=
  ∃ wait, w.waits[place]? = some wait ∧ wait.sequence = waiter.sequence ∧
    wait.timeout = waiter.timeout ∧ wait.number = some waiter.number ∧
    (wait.answers = [] ∨ wait.answers = [.ok ()]) ∧
    begun[place]? = some (waiter.name, waiter.deadline)

/-- The places of those who are gone and of those who are here. No wait has two, and those that have
none were called off. -/
structure Placed (w : Watch) (begun : List (String × Nat)) (off : List String) (clock : Nat)
    (gone : List (Nat × String × Except CompletionTimeout Unit)) (here : List (Nat × Waiter)) :
    Prop where
  nodup : (gone.map Prod.fst ++ here.map Prod.fst).Nodup
  ended : ∀ entry ∈ gone, Ended w begun clock entry.1 entry.2
  awaits : ∀ entry ∈ here, Awaits w begun entry.1 entry.2
  all : ∀ place name deadline, begun[place]? = some (name, deadline) →
    place ∈ gone.map Prod.fst ++ here.map Prod.fst ∨ name ∈ off

/-- A room stands as a watch does after some steps, where the waits that have begun have these names
and ends, and those of some names were called off. Those of `rest` are still to be looked at; the
others who wait are not released, and their time is not over. -/
structure Mirrors (begun : List (String × Nat)) (off : List String) (steps : List Watch.Step)
    (room : WaitingRoom) (rest : List Waiter) : Prop where
  tracker : (Watch.run steps).tracker = room.tracker
  length : (Watch.run steps).waits.length = begun.length
  placed : ∃ gone here, gone.map Prod.snd = room.finished ∧
    here.map Prod.snd = room.waiting ++ rest ∧
    Placed (Watch.run steps) begun off room.clock gone here
  onTime : ∀ waiter ∈ room.waiting,
    waiter.number ∉ room.tracker.released ∧ room.clock < waiter.deadline

section

variable {steps : List Watch.Step} {w w' : Watch} {begun : List (String × Nat)} {off : List String}
  {clock clock' place : Nat} {room : WaitingRoom} {waiter : Waiter} {rest : List Waiter}
  {entry : String × Except CompletionTimeout Unit}
  {gone : List (Nat × String × Except CompletionTimeout Unit)} {here : List (Nat × Waiter)}

/-! ## One step of the watch -/

theorem Ended.step (hsound : w.Sound steps) (h : Ended w begun clock place entry) (s : Watch.Step) :
    Ended (w.step s) begun clock place entry := by
  obtain ⟨wait, deadline, hwait, hanswers, hbegun, htime⟩ := h
  obtain ⟨answers, hwait', hturns⟩ := hsound.turns hwait s
  have hanswered : wait.answers ≠ [] := hanswers ▸ List.cons_ne_nil _ _
  cases hturns with
  | settled => exact ⟨_, deadline, hwait', hanswers, hbegun, htime⟩
  | late hopen | done hopen | waiting hopen => exact absurd hopen hanswered

theorem Awaits.step (hsound : w.Sound steps) (h : Awaits w begun place waiter) {s : Watch.Step}
    (hs : s ≠ .runsOut place) : Awaits (w.step s) begun place waiter := by
  obtain ⟨wait, hwait, hsequence, htimeout, hnumber, hanswers, hbegun⟩ := h
  obtain ⟨answers, hwait', hturns⟩ := hsound.turns hwait s
  refine ⟨_, hwait', hsequence, htimeout, hnumber, ?_, hbegun⟩
  cases hturns with
  | settled => exact hanswers
  | late _ hstep => exact absurd hstep hs
  | done => exact Or.inr rfl
  | waiting => exact Or.inl rfl

theorem Ended.lt (h : Ended w begun clock place entry) : place < begun.length := by
  obtain ⟨_, _, -, -, hbegun, -⟩ := h
  exact (List.getElem?_eq_some_iff.mp hbegun).1

theorem Awaits.lt (h : Awaits w begun place waiter) : place < begun.length := by
  obtain ⟨_, -, -, -, -, -, hbegun⟩ := h
  exact (List.getElem?_eq_some_iff.mp hbegun).1

theorem Placed.step (hsound : w.Sound steps) (h : Placed w begun off clock gone here)
    {s : Watch.Step} (hs : s.isCalled = true) :
    Placed (w.step s) begun off clock gone here where
  nodup := h.nodup
  ended entry hmem := (h.ended entry hmem).step hsound s
  awaits entry hmem := (h.awaits entry hmem).step hsound (by rintro rfl; cases hs)
  all := h.all

/-- One who is here leaves, and the others stay as they are. -/
theorem Placed.leaves {before since : List (Nat × Waiter)}
    (h : Placed w begun off clock gone (before ++ (place, waiter) :: since))
    (hended : ∀ {other entry}, Ended w begun clock other entry → Ended w' begun clock other entry)
    (hawaits : ∀ {other waiter}, other ≠ place → Awaits w begun other waiter →
      Awaits w' begun other waiter)
    {outcome : Except CompletionTimeout Unit}
    (hleaves : Ended w' begun clock place (waiter.name, outcome)) :
    Placed w' begun off clock (gone ++ [(place, waiter.name, outcome)]) (before ++ since) := by
  have hperm : ((gone ++ [(place, waiter.name, outcome)]).map Prod.fst ++
      (before ++ since).map Prod.fst).Perm
      (gone.map Prod.fst ++ (before ++ (place, waiter) :: since).map Prod.fst) := by
    simp only [List.map_append, List.map_cons, List.map_nil, List.append_assoc,
      List.singleton_append]
    exact List.perm_middle.symm.append_left _
  have hnodup := hperm.nodup_iff.mpr h.nodup
  refine ⟨hnodup, fun entry hmem => ?_, fun entry hmem => ?_, fun other name deadline hbegun => ?_⟩
  · rcases List.mem_append.mp hmem with hmem | hmem
    · exact hended (h.ended entry hmem)
    · obtain rfl := List.mem_singleton.mp hmem
      exact hleaves
  · refine hawaits ?_ (h.awaits entry ?_)
    · rintro rfl
      refine (List.nodup_append.mp hnodup).2.2 entry.1 ?_ entry.1 (List.mem_map_of_mem hmem) rfl
      simp
    · simp only [List.mem_append, List.mem_cons] at hmem ⊢
      exact hmem.imp id Or.inr
  · exact (h.all other name deadline hbegun).imp hperm.mem_iff.mpr id

theorem Placed.lt (h : Placed w begun off clock gone here)
    (hmem : place ∈ gone.map Prod.fst ++ here.map Prod.fst) : place < begun.length := by
  rcases List.mem_append.mp hmem with hmem | hmem
  · obtain ⟨entry, hentry, rfl⟩ := List.mem_map.mp hmem
    exact (h.ended entry hentry).lt
  · obtain ⟨entry, hentry, rfl⟩ := List.mem_map.mp hmem
    exact (h.awaits entry hentry).lt

theorem Placed.later (h : Placed w begun off clock gone here) (hclock : clock ≤ clock') :
    Placed w begun off clock' gone here where
  nodup := h.nodup
  ended entry hmem := by
    obtain ⟨wait, deadline, hwait, hanswers, hbegun, htime⟩ := h.ended entry hmem
    exact ⟨wait, deadline, hwait, hanswers, hbegun, htime.imp id (Nat.le_trans · hclock)⟩
  awaits := h.awaits
  all := h.all

/-- One more wait begins, and is over at once or not. -/
theorem Placed.begins (h : Placed w begun off clock gone here) {new : String × Nat}
    {gone' : List (Nat × String × Except CompletionTimeout Unit)} {here' : List (Nat × Waiter)}
    (hplace : gone'.map Prod.fst ++ here'.map Prod.fst = [begun.length])
    (hended : ∀ entry ∈ gone', Ended w (begun ++ [new]) clock entry.1 entry.2)
    (hawaits : ∀ entry ∈ here', Awaits w (begun ++ [new]) entry.1 entry.2) :
    Placed w (begun ++ [new]) off clock (gone ++ gone') (here ++ here') := by
  have hperm : ((gone ++ gone').map Prod.fst ++ (here ++ here').map Prod.fst).Perm
      ((gone.map Prod.fst ++ here.map Prod.fst) ++ [begun.length]) := by
    rw [← hplace, List.map_append, List.map_append, List.append_assoc, List.append_assoc]
    exact (List.perm_append_comm_assoc ..).append_left _
  have hold : ∀ {place}, place < begun.length → (begun ++ [new])[place]? = begun[place]? :=
    List.getElem?_append_left
  refine ⟨hperm.nodup_iff.mpr ?_, fun entry hmem => ?_, fun entry hmem => ?_,
    fun place name deadline hbegun => ?_⟩
  · rw [List.nodup_append_comm, List.singleton_append, List.nodup_cons]
    exact ⟨fun hmem => Nat.lt_irrefl _ (h.lt hmem), h.nodup⟩
  · rcases List.mem_append.mp hmem with hmem | hmem
    · have hentry := h.ended entry hmem
      unfold Ended
      rw [hold hentry.lt]
      exact hentry
    · exact hended entry hmem
  · rcases List.mem_append.mp hmem with hmem | hmem
    · have hentry := h.awaits entry hmem
      unfold Awaits
      rw [hold hentry.lt]
      exact hentry
    · exact hawaits entry hmem
  · rcases Nat.lt_or_ge place begun.length with hlt | hge
    · rw [hold hlt] at hbegun
      refine (h.all place name deadline hbegun).imp (fun hmem => ?_) id
      exact hperm.mem_iff.mpr (List.mem_append_left _ hmem)
    · have hlt := (List.getElem?_eq_some_iff.mp hbegun).1
      rw [List.length_append, List.length_singleton] at hlt
      obtain rfl : place = begun.length := by omega
      exact Or.inl (hperm.mem_iff.mpr (List.mem_append_right _ (List.mem_singleton_self _)))

/-! ## Ending the waits that are over -/

/-- One who waits is looked at, and the time of the wait runs out if the clock has reached it. -/
theorem Mirrors.settleOne (h : Mirrors begun off steps room (waiter :: rest)) :
    ∃ late : List Nat,
      Mirrors begun off (steps ++ late.map .runsOut) (room.settleOne waiter) rest := by
  obtain ⟨gone, here, hgone, hhere, hplaced⟩ := h.placed
  obtain ⟨before, since, rfl, hbefore, hsince⟩ := List.map_eq_append_iff.mp hhere
  obtain ⟨⟨place, waiter⟩, since, rfl, rfl, hrest⟩ := List.map_eq_cons_iff.mp hsince
  have hleft : (before ++ since).map Prod.snd = room.waiting ++ rest := by
    rw [List.map_append, hbefore, hrest]
  have hawaits : Awaits (Watch.run steps) begun place waiter :=
    hplaced.awaits (place, waiter) (List.mem_append_right _ (List.mem_cons_self ..))
  obtain ⟨wait, hwait, hsequence, htimeout, hnumber, hanswers, hbegun⟩ := hawaits
  have hreleased := Watch.mem_released_iff steps hwait hnumber
  rw [h.tracker] at hreleased
  unfold WaitingRoom.settleOne
  by_cases hmem : waiter.number ∈ room.tracker.released
  · rw [if_pos (List.contains_iff_mem.mpr hmem)]
    refine ⟨[], ?_⟩
    rw [List.map_nil, List.append_nil]
    exact ⟨h.tracker, h.length, ⟨_, _, by rw [List.map_append, hgone]; rfl, hleft,
      hplaced.leaves id (fun _ => id)
        ⟨wait, waiter.deadline, hwait, hreleased.mp hmem, hbegun, Or.inl rfl⟩⟩, h.onTime⟩
  rw [if_neg (mt List.contains_iff_mem.mp hmem)]
  by_cases hlate : waiter.deadline ≤ room.clock
  · have hopen : wait.answers = [] := hanswers.resolve_right (mt hreleased.mpr hmem)
    have hsound := Watch.sound_run steps
    obtain ⟨hfst, hstep⟩ := Watch.runsOut_of_open hwait hnumber hopen
    rw [h.tracker] at hfst hstep
    have hleaves : Placed (Watch.run (steps ++ [.runsOut place])) begun off room.clock
        (gone ++ [(place, waiter.name, .error ⟨wait.sequence, wait.timeout⟩)])
        (before ++ since) := by
      refine hplaced.leaves (fun hentry => ?_) (fun hne hother => ?_) ?_
      · rw [Watch.run_concat]
        exact hentry.step hsound _
      · rw [Watch.run_concat]
        exact hother.step hsound fun heq => hne (Watch.Step.runsOut.inj heq).symm
      · rw [hstep]
        exact ⟨_, waiter.deadline, List.getElem?_set_self (List.getElem?_eq_some_iff.mp hwait).1,
          rfl, hbegun, Or.inr hlate⟩
    rw [if_pos hlate, ← hsequence, ← htimeout]
    simp only [hfst, if_true]
    refine ⟨[place], congrArg Watch.tracker hstep, ?_, ⟨_, _, ?_, hleft, hleaves⟩,
      fun other hother => ?_⟩
    · rw [List.map_singleton, hstep, List.length_set]
      exact h.length
    · rw [List.map_append, hgone]
      rfl
    · rw [CompletionTracker.released_expire]
      exact h.onTime other hother
  · rw [if_neg hlate]
    refine ⟨[], ?_⟩
    rw [List.map_nil, List.append_nil]
    refine ⟨h.tracker, h.length, ⟨gone, _, hgone, ?_, hplaced⟩, fun other hother => ?_⟩
    · rw [hhere, List.append_assoc, List.singleton_append]
    · rcases List.mem_append.mp hother with hother | hother
      · exact h.onTime other hother
      · obtain rfl := List.mem_singleton.mp hother
        exact ⟨hmem, Nat.lt_of_not_le hlate⟩

theorem Mirrors.settleAll (rest : List Waiter) : ∀ {steps : List Watch.Step} {room : WaitingRoom},
    Mirrors begun off steps room rest → ∃ late : List Nat,
      Mirrors begun off (steps ++ late.map .runsOut)
        (rest.foldl WaitingRoom.settleOne room) [] := by
  induction rest with
  | nil =>
    intro steps room h
    exact ⟨[], by rwa [List.map_nil, List.append_nil]⟩
  | cons waiter rest ih =>
    intro steps room h
    obtain ⟨late, hone⟩ := h.settleOne
    obtain ⟨later, hall⟩ := ih hone
    exact ⟨late ++ later, by rwa [List.map_append, ← List.append_assoc]⟩

/-! ## One call -/

/-- Behind a call everybody who waits is looked at. -/
theorem Mirrors.settle (htracker : (Watch.run steps).tracker = room.tracker)
    (hlength : (Watch.run steps).waits.length = begun.length)
    (hgone : gone.map Prod.snd = room.finished) (hhere : here.map Prod.snd = room.waiting)
    (hplaced : Placed (Watch.run steps) begun off room.clock gone here) :
    ∃ late : List Nat, Mirrors begun off (steps ++ late.map .runsOut) room.settle [] := by
  refine settleAll room.waiting ⟨htracker, hlength, ⟨gone, here, hgone, hhere, hplaced⟩, ?_⟩
  rintro waiter hmem
  cases hmem

/-- Something is noted in the tracker. -/
theorem Mirrors.noted (h : Mirrors begun off steps room []) {s : Watch.Step}
    (hs : s.isCalled = true)
    (hlength : ((Watch.run steps).step s).waits.length = (Watch.run steps).waits.length)
    {tracker : CompletionTracker} (htracker : ((Watch.run steps).step s).tracker = tracker) :
    ∃ late : List Nat, Mirrors begun off (steps ++ [s] ++ late.map .runsOut)
      (WaitingRoom.settle { room with tracker := tracker }) [] := by
  obtain ⟨gone, here, hgone, hhere, hplaced⟩ := h.placed
  rw [List.append_nil] at hhere
  refine settle ?_ ?_ hgone hhere ?_
  · rw [Watch.run_concat, htracker]
  · rw [Watch.run_concat, hlength, h.length]
  · rw [Watch.run_concat]
    exact hplaced.step (Watch.sound_run steps) hs

/-- A wait begins. One for a sequence that is done is over at once, and nobody else is looked at. -/
theorem Mirrors.waits (h : Mirrors begun off steps room []) (name : String) (sequence : SequenceId)
    (timeout : Duration) :
    ∃ late : List Nat, Mirrors (begun ++ [(name, room.clock + timeout.ticks)]) off
      (steps ++ [.waits sequence timeout] ++ late.map .runsOut)
      (room.wait name sequence timeout) [] := by
  obtain ⟨gone, here, hgone, hhere, hplaced⟩ := h.placed
  rw [List.append_nil] at hhere
  have hplaced' := hplaced.step (Watch.sound_run steps) (s := .waits sequence timeout) rfl
  have hnext : (begun ++ [(name, room.clock + timeout.ticks)])[begun.length]? =
    some (name, room.clock + timeout.ticks) := List.getElem?_concat_length ..
  rw [← Watch.run_concat] at hplaced'
  unfold WaitingRoom.wait
  rcases room.tracker.enroll_cases sequence with ⟨-, henroll⟩ | ⟨t, -, henroll, -⟩
  · have hstep : Watch.run (steps ++ [.waits sequence timeout]) = ⟨room.tracker,
        (Watch.run steps).waits ++ [⟨sequence, timeout, none, [.ok ()]⟩]⟩ := by
      rw [Watch.run_concat, Watch.step, h.tracker, henroll]
    have hwait : (Watch.run (steps ++ [.waits sequence timeout])).waits[begun.length]? =
        some ⟨sequence, timeout, none, [.ok ()]⟩ := by
      rw [hstep, ← h.length]
      exact List.getElem?_concat_length ..
    have hbegins : Placed (Watch.run (steps ++ [.waits sequence timeout]))
        (begun ++ [(name, room.clock + timeout.ticks)]) off room.clock
        (gone ++ [(begun.length, name, .ok ())]) (here ++ []) := by
      refine hplaced'.begins rfl (fun entry hmem => ?_) (fun entry hmem => by cases hmem)
      obtain rfl := List.mem_singleton.mp hmem
      exact ⟨_, _, hwait, rfl, hnext, Or.inl rfl⟩
    rw [henroll]
    refine ⟨[], ?_⟩
    rw [List.map_nil, List.append_nil]
    refine ⟨congrArg Watch.tracker hstep, ?_, ⟨_, _, ?_, ?_, hbegins⟩, h.onTime⟩
    · rw [hstep, List.length_append, List.length_append, h.length]
      rfl
    · rw [List.map_append, hgone]
      rfl
    · rw [List.append_nil, List.append_nil, hhere]
  · have hstep : Watch.run (steps ++ [.waits sequence timeout]) = ⟨t,
        (Watch.run steps).waits ++ [⟨sequence, timeout, some room.tracker.nextWaiter, []⟩]⟩ := by
      rw [Watch.run_concat, Watch.step, h.tracker, henroll]
    have hwait : (Watch.run (steps ++ [.waits sequence timeout])).waits[begun.length]? =
        some ⟨sequence, timeout, some room.tracker.nextWaiter, []⟩ := by
      rw [hstep, ← h.length]
      exact List.getElem?_concat_length ..
    have hbegins : Placed (Watch.run (steps ++ [.waits sequence timeout]))
        (begun ++ [(name, room.clock + timeout.ticks)]) off room.clock (gone ++ [])
        (here ++ [(begun.length, ⟨name, room.tracker.nextWaiter, sequence, timeout,
          room.clock + timeout.ticks⟩)]) := by
      refine hplaced'.begins rfl (fun entry hmem => by cases hmem) (fun entry hmem => ?_)
      obtain rfl := List.mem_singleton.mp hmem
      exact ⟨_, hwait, rfl, rfl, rfl, Or.inl rfl, hnext⟩
    rw [henroll]
    refine settle (congrArg Watch.tracker hstep) ?_ ?_ ?_ hbegins
    · rw [hstep, List.length_append, List.length_append, h.length]
      rfl
    · rw [List.append_nil, hgone]
    · rw [List.map_append, hhere]
      rfl

theorem Mirrors.cancels (h : Mirrors begun off steps room []) (name : String) :
    Mirrors begun (off ++ [name]) steps (room.cancel name) [] := by
  obtain ⟨gone, here, hgone, hhere, hplaced⟩ := h.placed
  rw [List.append_nil] at hhere
  have hsub : (here.filter fun entry => entry.2.name ≠ name).Sublist here := List.filter_sublist
  refine ⟨h.tracker, h.length, ⟨gone, here.filter fun entry => entry.2.name ≠ name, hgone, ?_,
    hplaced.nodup.sublist ((hsub.map Prod.fst).append_left _), hplaced.ended,
    fun entry hmem => hplaced.awaits entry (hsub.subset hmem),
    fun place other deadline hbegun => ?_⟩,
    fun waiter hmem => h.onTime waiter (List.mem_of_mem_filter hmem)⟩
  · rw [List.append_nil, WaitingRoom.cancel, ← hhere, List.filter_map]
    rfl
  · rcases hplaced.all place other deadline hbegun with hmem | hmem
    · rcases List.mem_append.mp hmem with hmem | hmem
      · exact Or.inl (List.mem_append_left _ hmem)
      · obtain ⟨⟨place, waiter⟩, hentry, rfl⟩ := List.mem_map.mp hmem
        by_cases hname : waiter.name = name
        · obtain ⟨wait, -, -, -, -, -, hbegun'⟩ := hplaced.awaits _ hentry
          obtain ⟨rfl, -⟩ := Prod.mk.inj (Option.some.inj (hbegun.symm.trans hbegun'))
          exact Or.inr (List.mem_append_right _ (List.mem_singleton.mpr hname))
        · have hkept : (place, waiter) ∈ here.filter fun entry => entry.2.name ≠ name :=
            List.mem_filter.mpr ⟨hentry, decide_eq_true hname⟩
          exact Or.inl (List.mem_append_right _ (List.mem_map_of_mem hkept))
    · exact Or.inr (List.mem_append_left _ hmem)

/-- Whatever is called in a room, a watch can follow. -/
theorem Mirrors.after (h : Mirrors begun off steps room []) (call : Call) :
    ∃ late : List Nat, Mirrors (begun ++ (call.begins? room.clock).toList) (off ++ call.off?.toList)
      (steps ++ call.step?.toList ++ late.map .runsOut) (room.after call) [] := by
  cases call <;> simp only [Call.begins?, Call.off?, Call.step?, Option.toList, List.append_nil]
  case starts sequence event =>
    exact h.noted rfl rfl (by rw [Watch.step, h.tracker])
  case completes sequence event =>
    refine h.noted rfl ?_ (by rw [Watch.step, h.tracker])
    rw [Watch.step, List.length_map]
  case waits name sequence timeout =>
    exact h.waits name sequence timeout
  case cancels name =>
    refine ⟨[], ?_⟩
    rw [List.map_nil, List.append_nil]
    exact h.cancels name
  case advances millis =>
    obtain ⟨gone, here, hgone, hhere, hplaced⟩ := h.placed
    rw [List.append_nil] at hhere
    exact settle h.tracker h.length hgone hhere (hplaced.later (Nat.le_add_right ..))

/-! ## Whole runs -/

theorem Mirrors.afterAll (calls : List Call) : ∀ {begun : List (String × Nat)} {off : List String}
    {steps : List Watch.Step} {room : WaitingRoom}, Mirrors begun off steps room [] →
    ∃ more : List Watch.Step, more.filter Watch.Step.isCalled = calls.filterMap Call.step? ∧
      Mirrors (begun ++ room.begun calls) (off ++ calls.filterMap Call.off?) (steps ++ more)
        (room.afterAll calls) [] := by
  induction calls with
  | nil =>
    intro begun off steps room h
    exact ⟨[], rfl, by simpa [WaitingRoom.begun, WaitingRoom.afterAll] using h⟩
  | cons call calls ih =>
    intro begun off steps room h
    obtain ⟨late, hone⟩ := h.after call
    obtain ⟨more, hcalled, hall⟩ := ih hone
    refine ⟨call.step?.toList ++ (late.map .runsOut ++ more), ?_, ?_⟩
    · have hlate : (late.map Watch.Step.runsOut).filter Watch.Step.isCalled = [] := by
        simp [List.filter_map, Watch.Step.isCalled]
      rw [List.filter_append, List.filter_append, hlate, hcalled, List.nil_append]
      cases call <;> rfl
    · have hoff : (call :: calls).filterMap Call.off? =
          call.off?.toList ++ calls.filterMap Call.off? := by cases call <;> rfl
      rw [hoff]
      simp only [List.append_assoc] at hall ⊢
      exact hall

theorem mirrors_empty : Mirrors [] [] [] .empty [] where
  tracker := rfl
  length := rfl
  placed := ⟨[], [], rfl, rfl, List.nodup_nil, nofun, nofun, nofun⟩
  onTime := nofun

end

/-- **A room is a watch whose times run out by a clock.** Whatever is called in a room, there are
steps of a watch that note the same and begin the same waits, in the same order. The tracker of the
room is that of the watch; every outcome in the room is the one answer to the wait of its name,
everybody who waits is a wait whose time is not over; and the waits that are neither were called
off. -/
theorem room_is_watched (calls : List Call) : ∃ steps : List Watch.Step,
    steps.filter Watch.Step.isCalled = calls.filterMap Call.step? ∧
      Mirrors (begun .empty calls) (calls.filterMap Call.off?) steps
        (afterAll .empty calls) [] := by
  obtain ⟨steps, hcalled, h⟩ := mirrors_empty.afterAll calls
  exact ⟨steps, hcalled, h⟩

/-- Nobody waits on for a sequence that is done, or behind the end of their time. -/
theorem pending_of_waiting (calls : List Call) {waiter : Waiter}
    (hmem : waiter ∈ (afterAll .empty calls).waiting) :
    ¬Watch.Quiet (calls.filterMap Call.step?) waiter.sequence ∧
      (afterAll .empty calls).clock < waiter.deadline := by
  obtain ⟨steps, hcalled, h⟩ := room_is_watched calls
  obtain ⟨hreleased, hintime⟩ := h.onTime waiter hmem
  obtain ⟨gone, here, -, hhere, hplaced⟩ := h.placed
  rw [List.append_nil] at hhere
  rw [← hhere] at hmem
  obtain ⟨⟨place, waiter⟩, hentry, rfl⟩ := List.mem_map.mp hmem
  have hawaits : Awaits (Watch.run steps) (begun .empty calls) place waiter :=
    hplaced.awaits _ hentry
  obtain ⟨wait, hwait, hsequence, -, hnumber, hanswers, -⟩ := hawaits
  rw [← h.tracker, Watch.mem_released_iff steps hwait hnumber] at hreleased
  have hsound := Watch.sound_run steps
  refine ⟨fun hquiet => ?_, hintime⟩
  refine hsound.outstanding_of_open hwait (hanswers.resolve_right hreleased) ?_
  rw [← hsound.quiet_iff, hsequence]
  intro event hunhandled
  refine hquiet event ?_
  rw [← hcalled]
  exact (Watch.unhandled_filter [] steps fun s hs => by cases s <;> first | rfl | cases hs).mpr
    hunhandled

end WaitingRoom

end Chronicle

import BrokerTrial.Proofs.OperationState

/-! The stages of an operation. An operation that nobody tells to stop goes through the stages that
`Stage` lists, and each of them has the job or the timer that ends it. Its own jobs and timers take
it from one stage to the next (`Stage.turn`, `Stage.callTurn`, `Stage.notice`, `Stage.alarm`). -/

namespace BrokerTrial

namespace Instant

theorem le_refl (a : Instant) : a.le a := by cases a <;> simp [le]

theorem le_trans {a b c : Instant} (h : a.le b) (h' : b.le c) : a.le c := by
  cases a <;> cases b <;> cases c <;> simp_all [le]
  exact h.trans h'

theorem le_of_not_le {a b : Instant} (h : a.le b = false) : b.le a := by
  cases a <;> cases b <;> simp_all [le]
  exact h.le

end Instant

/-- Whether a client that is asked at `start` answers before `span` is over. -/
def Wait.within (start span : Instant) : Wait → Bool
  | .none => true
  | .span d => !(start.add span).le (start.add d)
  | .forever => false

def Wait.timers (start : Instant) (alarm : Alarm) : Wait → List Timer
  | .span d => [⟨start.add d, alarm⟩]
  | .none | .forever => []

/-- How a task ends that starts at `start` and is not told to stop. -/
def Task.outcome (task : Task) (reply : Reply) (limit : Limit) (start : Instant) : Ending :=
  match task.limited, limit with
  | false, _ => reply.ending
  | true, .atOnce => .failed ⟨.timeout, none⟩
  | true, .after span =>
    if reply.wait.within start span then reply.ending else .failed ⟨.timeout, none⟩

def Task.callsMade (task : Task) (limit : Limit) : List ClientCall :=
  if task.limited ∧ limit = .atOnce then [] else [task.call]

theorem Wait.timers_of_mem {wait : Wait} {start : Instant} {alarm : Alarm} {timer : Timer}
    (h : timer ∈ wait.timers start alarm) :
    ∃ d, wait = .span d ∧ timer = ⟨start.add d, alarm⟩ := by
  cases wait with
  | span d => exact ⟨d, rfl, List.mem_singleton.1 h⟩
  | none => cases h
  | forever => cases h

theorem Wait.alarm_of_mem_timers {wait : Wait} {start : Instant} {alarm : Alarm} {timer : Timer}
    (h : timer ∈ wait.timers start alarm) : timer.alarm = alarm := by
  obtain ⟨d, -, rfl⟩ := timers_of_mem h
  rfl

theorem Wait.within_eq_false {wait : Wait} {start span : Instant} {alarm : Alarm}
    (hwait : wait ≠ .none)
    (h : ∀ timer ∈ wait.timers start alarm, (start.add span).le timer.due) :
    wait.within start span = false := by
  cases wait with
  | none => exact absurd rfl hwait
  | forever => rfl
  | span d =>
    have hdue := h ⟨_, alarm⟩ (List.mem_singleton_self _)
    simp [within, hdue]

namespace Transport

section Stages

variable (id : Nat) (task : Task) (reply : Reply) (punctual : Prop)

/-- The limit of a task is over before its client has answered. -/
inductive OutOfTime (start now : Instant) : Limit → List ClientCall → Prop
  | atOnce : OutOfTime start now .atOnce []
  | after {span : Instant} {calls : List ClientCall} : (start.add span).le now →
      calls = [] ∨ calls = [task.call] →
      (punctual → calls = [task.call] ∧ reply.wait.within start span = false) →
      OutOfTime start now (.after span) calls

/-- How an operation has ended that started at `start`, and the calls that it has made. -/
inductive Settled (start now : Instant) (limit : Limit) : List ClientCall → Ending → Prop
  | answered : (task.limited → ∃ span, limit = .after span ∧
      (punctual → reply.wait.within start span)) → Settled start now limit [task.call] reply.ending
  | outOfTime {calls : List ClientCall} : task.limited →
      OutOfTime task reply punctual start now limit calls →
      Settled start now limit calls (.failed ⟨.timeout, none⟩)

/-- The stages of an operation, by the time at which it has begun. A timer that has rung has made a
turn ready, and so has a client call that has ended, once that is noticed. -/
inductive Stage : Option Instant → OperationState → Prop
  | unstarted {limit : Limit} {now : Instant} :
      Stage none { limit, now, operations := [{ id, task, reply }], turns := 1 }
  | calling {limit : Limit} {now start : Instant} {attempt : Int} (rung : Bool) :
      task.limited = false → reply.wait ≠ .none →
      Stage (some start)
        { limit, now, operations := [{ id, task, reply, phase := .calling attempt }]
          turns := rung.toNat
          timers := if rung then [] else reply.wait.timers start (.operation id)
          calls := [task.call] }
  | waiting {now start span : Instant} {attempt : Int} (rung : Bool) :
      task.limited → (rung → (start.add span).le now) →
      (punctual → rung = false ∧ now = start) →
      Stage (some start)
        { limit := .after span, now
          operations := [{ id, task, reply, phase := .guarding attempt {} }]
          turns := rung.toNat, callTurns := 1
          timers := if rung then [] else [⟨start.add span, .limit id⟩] }
  | asleep {now start span asked : Instant} {attempt : Int} (rung answers : Bool) :
      task.limited → reply.wait ≠ .none → (rung → (start.add span).le now) →
      (punctual → asked = start ∧ (rung → reply.wait.within start span = false) ∧
        (answers → reply.wait.within start span)) →
      Stage (some start)
        { limit := .after span, now
          operations := [{ id, task, reply, phase := .guarding attempt { progress := .asleep } }]
          turns := rung.toNat, callTurns := answers.toNat
          timers := (if rung then [] else [⟨start.add span, .limit id⟩]) ++
            if answers then [] else reply.wait.timers asked (.call id)
          calls := [task.call] }
  | answered {now start span : Instant} {attempt : Int} (rung noticed : Bool) :
      task.limited → (punctual → reply.wait.within start span) →
      Stage (some start)
        { limit := .after span, now
          operations := [
            { id, task, reply
              phase := .guarding attempt { progress := .ended, ending := some reply.ending } }]
          turns := (noticed || rung).toNat, notices := (!noticed).toNat
          timers := if rung then [] else [⟨start.add span, .limit id⟩]
          calls := [task.call] }
  | givingUp {limit : Limit} {now start : Instant} {attempt : Int} {call : GuardedCall}
      {calls : List ClientCall} : task.limited → call.cancelled = true → call.progress ≠ .ended →
      OutOfTime task reply punctual start now limit calls →
      Stage (some start)
        { limit, now
          operations := [{ id, task, reply, phase := .givingUp attempt call .outOfTime }]
          callTurns := 1, calls }
  | gaveUp {limit : Limit} {now start : Instant} {attempt : Int} {call : GuardedCall}
      {calls : List ClientCall} (noticed : Bool) : task.limited →
      OutOfTime task reply punctual start now limit calls →
      Stage (some start)
        { limit, now
          operations := [{ id, task, reply, phase := .givingUp attempt call .outOfTime }]
          turns := noticed.toNat, notices := (!noticed).toNat, calls }
  | settled {limit : Limit} {now start : Instant} {notices : Nat} {calls : List ClientCall}
      {ending : Ending} : Settled task reply punctual start now limit calls ending →
      Stage (some start) { limit, now, notices, calls, endings := [ending] }

end Stages

section Turns

variable {t : Transport} {id : Nat} {task : Task} {reply : Reply} {punctual : Prop}
  {begun : Option Instant} {limit : Limit} {now : Instant}

theorem operation?_of_stateOf {op : Operation} (h : (t.stateOf id).operations = [op]) :
    t.operation? id = some op := by
  rw [operation?_eq, h, List.head?_cons]

theorem stage_callDirectly (hlimited : task.limited = false) (attempt : Int)
    (h : t.stateOf id = { limit, now, operations := [{ id, task, reply }] }) :
    Stage id task reply punctual (some now)
      ((t.callDirectly { id, task, reply } attempt).stateOf id) := by
  have hnow : t.now = now := congrArg OperationState.now h
  have hcalled := stateOf_called t id task.call
  rw [h] at hcalled
  have hcalling (hwait : reply.wait ≠ .none) {timers : List Timer}
      (htimers : timers = reply.wait.timers now (.operation id)) :
      Stage id task reply punctual (some now)
        { limit, now, operations := [{ id, task, reply, phase := .calling attempt }], timers
          calls := [task.call] } := by
    subst htimers
    exact .calling false hlimited hwait
  unfold callDirectly
  split
  · rename_i hwait
    rw [stateOf_settle _ rfl, hcalled]
    exact .settled (.answered fun hl => by simp [hlimited] at hl)
  · rename_i d hwait
    rw [stateOf_setTimer _ _ (by simp [Alarm.concerns]), stateOf_updateOperation _ rfl, hcalled]
    exact hcalling (by simp [show reply.wait = .span d from hwait])
      (by rw [hwait, Wait.timers, ← hnow]; rfl)
  · rename_i hwait
    rw [stateOf_updateOperation _ rfl, hcalled]
    exact hcalling (by simp [show reply.wait = .forever from hwait]) (by rw [hwait]; rfl)

theorem stage_callGuarded (hlimited : task.limited) (attempt : Int)
    (h : t.stateOf id = { limit, now, operations := [{ id, task, reply }] }) :
    Stage id task reply punctual (some now)
      ((t.callGuarded { id, task, reply } attempt).stateOf id) := by
  have hnow : t.now = now := congrArg OperationState.now h
  have hlimit : t.patience.acknowledgement.limit = limit := congrArg OperationState.limit h
  unfold callGuarded
  split
  · rename_i hatonce
    obtain rfl := hlimit.symm.trans hatonce
    rw [stateOf_enqueue_call, stateOf_updateOperation _ rfl, h]
    exact .givingUp hlimited rfl (by simp) .atOnce
  · rename_i span hafter
    obtain rfl := hlimit.symm.trans hafter
    rw [stateOf_enqueue_call, stateOf_setTimer _ _ (by simp [Alarm.concerns]),
      stateOf_updateOperation _ rfl, h]
    subst hnow
    exact .waiting false hlimited (by simp) fun _ => ⟨rfl, rfl⟩

theorem stage_startOperation
    (h : t.stateOf id = { limit, now, operations := [{ id, task, reply }] }) :
    Stage id task reply punctual (some now)
      ((t.startOperation { id, task, reply }).stateOf id) := by
  unfold startOperation
  split
  · rename_i topics htask
    dsimp only at htask
    subst htask
    exact stage_callDirectly rfl 0 h
  · rename_i topic qos payload htask
    dsimp only at htask
    subst htask
    dsimp only
    split_ifs with hqos
    · exact stage_callDirectly (by simp [Task.limited, hqos]) _ h
    · exact stage_callGuarded (by simp [Task.limited, hqos]) _ h

theorem stateOf_cancelCall (t : Transport) (id : Nat) (call : GuardedCall) :
    (t.cancelCall id call).1.stateOf id =
      if call.progress = .asleep ∧ (t.stateOf id).callTurns = 0 then
        { t.stateOf id with
          timers := (t.stateOf id).timers.filter (·.alarm ≠ .call id), callTurns := 1 }
      else t.stateOf id := by
  have hwakes : (call.progress = .asleep && !t.ready.contains (.call id)) = true ↔
      call.progress = .asleep ∧ (t.stateOf id).callTurns = 0 := by
    simp [stateOf, List.count_eq_zero]
  unfold cancelCall
  dsimp only
  by_cases h : call.progress = .asleep ∧ (t.stateOf id).callTurns = 0
  · rw [if_pos (hwakes.2 h), if_pos h, stateOf_enqueue_call, stateOf_dropTimer, h.2]
  · rw [if_neg (mt hwakes.1 h), if_neg h]

theorem cancelCall_snd (t : Transport) (id : Nat) (call : GuardedCall) :
    (t.cancelCall id call).2 = { call with cancelled := true } := by
  unfold cancelCall
  dsimp only
  split_ifs <;> rfl

/-- An operation whose limit is over gives its call up. The call is told to stop, if it has not
ended its wait anyway. -/
theorem stage_giveUp {start span : Instant} {attempt : Int} {call : GuardedCall} {callTurns : Nat}
    {timers : List Timer} {calls : List ClientCall} (hlimited : task.limited)
    (hover : OutOfTime task reply punctual start now (.after span) calls)
    (hcall : callTurns = 1 ∧ timers = [] ∧ call.progress ≠ .ended ∨
      callTurns = 0 ∧ call.progress = .asleep ∧ ∀ timer ∈ timers, timer.alarm = .call id)
    (h : t.stateOf id =
      { limit := .after span, now
        operations := [{ id, task, reply, phase := .guarding attempt call }]
        callTurns, timers, calls }) :
    Stage id task reply punctual (some start)
      ((t.giveUp { id, task, reply, phase := .guarding attempt call } attempt call
        .outOfTime).stateOf id) := by
  have hkeeps : timers.filter (·.alarm ≠ .limit id) = timers := by
    refine List.filter_eq_self.2 fun timer htimer => ?_
    rcases hcall with ⟨-, rfl, -⟩ | ⟨-, -, hcalls⟩
    · cases htimer
    · simp [hcalls timer htimer]
  have hdropped : (t.dropTimer (.limit id)).stateOf id = t.stateOf id := by
    rw [stateOf_dropTimer, h, hkeeps]
  have hcancelled := stateOf_cancelCall (t.dropTimer (.limit id)) id call
  rw [hdropped, h] at hcancelled
  unfold giveUp
  dsimp only
  rw [stateOf_updateOperation _ rfl, hcancelled, cancelCall_snd]
  rcases hcall with ⟨rfl, rfl, hprogress⟩ | ⟨rfl, hprogress, hcalls⟩
  · rw [if_neg (by simp)]
    exact .givingUp hlimited rfl hprogress hover
  · have hnone : timers.filter (·.alarm ≠ .call id) = [] := by
      simpa [List.filter_eq_nil_iff] using hcalls
    rw [if_pos ⟨hprogress, rfl⟩, hnone]
    exact .givingUp hlimited rfl (hprogress ▸ nofun) hover

/-- What is left of the timers of an operation that has settled. -/
theorem filter_limit (id : Nat) (rung : Bool) (due : Instant) :
    (if rung then [] else [(⟨due, .limit id⟩ : Timer)]).filter (·.alarm ≠ .limit id) = [] := by
  cases rung <;> simp

variable {timer : Timer}

theorem Stage.turn (h : Stage id task reply punctual begun (t.stateOf id))
    (hready : .operation id ∈ t.ready) : Stage id task reply punctual (begun.or (some t.now))
      (({ t with ready := t.ready.erase (.operation id) }.runOperation id).stateOf id) := by
  have hturns : (t.stateOf id).turns ≠ 0 := (List.count_pos_iff.2 hready).ne'
  let u : Transport := { t with ready := t.ready.erase (.operation id) }
  have hu : u.stateOf id = { t.stateOf id with turns := (t.stateOf id).turns - 1 } :=
    stateOf_take_operation t id
  have hnow : (t.stateOf id).now = t.now := rfl
  show Stage id task reply punctual (begun.or (some t.now)) ((u.runOperation id).stateOf id)
  generalize t.stateOf id = s at h hturns hu hnow
  have hfinds {op : Operation} (hop : s.operations = [op]) : u.operation? id = some op :=
    operation?_of_stateOf ((congrArg OperationState.operations hu).trans hop)
  cases h with
  | unstarted =>
    subst hnow
    rw [runOperation, hfinds rfl]
    exact stage_startOperation hu
  | calling rung hlimited hwait =>
    obtain rfl : rung = true := by simpa using hturns
    rw [runOperation, hfinds rfl]
    dsimp only
    rw [if_neg nofun, stateOf_settle u rfl, hu]
    exact .settled (.answered fun hl => absurd (hl.symm.trans hlimited) nofun)
  | waiting rung hlimited hrung hpunctual =>
    obtain rfl : rung = true := by simpa using hturns
    rw [runOperation, hfinds rfl]
    refine stage_giveUp hlimited (.after (hrung rfl) (.inl rfl) fun hp => ?_)
      (.inl ⟨rfl, rfl, nofun⟩) hu
    exact absurd (hpunctual hp).1 nofun
  | asleep rung answers hlimited hwait hrung hpunctual =>
    obtain rfl : rung = true := by simpa using hturns
    rw [runOperation, hfinds rfl]
    refine stage_giveUp hlimited
      (.after (hrung rfl) (.inr rfl) fun hp => ⟨rfl, (hpunctual hp).2.1 rfl⟩) ?_ hu
    cases answers with
    | true => exact .inl ⟨rfl, rfl, nofun⟩
    | false => exact .inr ⟨rfl, rfl, fun timer htimer => Wait.alarm_of_mem_timers htimer⟩
  | answered rung noticed hlimited hwithin =>
    rw [runOperation, hfinds rfl]
    dsimp only
    rw [stateOf_settle _ rfl, stateOf_dropTimer, hu]
    dsimp only
    have hturn : (noticed || rung).toNat - 1 = 0 := by cases rung <;> cases noticed <;> rfl
    rw [filter_limit, hturn]
    exact .settled (.answered fun _ => ⟨_, rfl, hwithin⟩)
  | givingUp => exact absurd rfl hturns
  | gaveUp noticed hlimited hover =>
    obtain rfl : noticed = true := by simpa using hturns
    rw [runOperation, hfinds rfl]
    dsimp only
    rw [if_neg nofun, stateOf_settle u rfl, hu]
    exact .settled (.outOfTime hlimited hover)
  | settled => exact absurd rfl hturns

theorem stateOf_endCall {op : Operation} (h : op.id = id) (call : GuardedCall) (ending : Ending) :
    (t.endCall op call ending).stateOf id =
      { t.stateOf id with
        operations := (t.stateOf id).operations.map fun _ => { op with
          phase := op.phase.withCall { call with progress := .ended, ending := some ending } }
        notices := (t.stateOf id).notices + 1 } := by
  subst h
  have hends (op' : Operation) (hid : op'.id = op.id) :
      ((t.updateOperation op').enqueue (.callEnded op.id)).stateOf op.id =
        { t.stateOf op.id with
          operations := (t.stateOf op.id).operations.map fun _ => op'
          notices := (t.stateOf op.id).notices + 1 } := by
    rw [stateOf_enqueue_callEnded, stateOf_updateOperation _ hid]
  unfold endCall
  dsimp only
  split
  · split_ifs
    · exact hends _ rfl
    · exact hends _ rfl
  · exact hends _ rfl

theorem stage_called {start span : Instant} {attempt : Int} {rung : Bool} (hlimited : task.limited)
    (hrung : rung → (start.add span).le now) (hpunctual : punctual → rung = false ∧ now = start)
    (h : t.stateOf id =
      { limit := .after span, now
        operations := [{ id, task, reply, phase := .guarding attempt {} }]
        turns := rung.toNat, timers := if rung then [] else [⟨start.add span, .limit id⟩] }) :
    Stage id task reply punctual (some start) ((t.runCall id).stateOf id) := by
  have hnow : t.now = now := congrArg OperationState.now h
  have hcalled := stateOf_called t id task.call
  rw [h] at hcalled
  have hasleep (hwait : reply.wait ≠ .none) {timers : List Timer}
      (htimers : timers = (if rung then [] else [⟨start.add span, .limit id⟩]) ++
        reply.wait.timers now (.call id)) :
      Stage id task reply punctual (some start)
        { limit := .after span, now
          operations := [{ id, task, reply, phase := .guarding attempt { progress := .asleep } }]
          turns := rung.toNat, timers, calls := [task.call] } := by
    subst htimers
    exact .asleep rung false hlimited hwait hrung fun hp =>
      ⟨(hpunctual hp).2, by simp [(hpunctual hp).1], by simp⟩
  rw [runCall, operation?_of_stateOf (congrArg OperationState.operations h)]
  dsimp only [OperationPhase.call?]
  rw [if_neg (by simp)]
  split
  · rename_i hwait
    rw [stateOf_endCall rfl, hcalled]
    exact .answered rung false hlimited fun _ => by rw [show reply.wait = _ from hwait]; rfl
  · rename_i d hwait
    rw [stateOf_setTimer _ _ (by simp [Alarm.concerns]), stateOf_updateOperation _ rfl, hcalled]
    exact hasleep (by simp [show reply.wait = .span d from hwait]) (by rw [hwait, ← hnow]; rfl)
  · rename_i hwait
    rw [stateOf_updateOperation _ rfl, hcalled]
    exact hasleep (by simp [show reply.wait = .forever from hwait])
      (by rw [hwait]; exact (List.append_nil _).symm)

theorem Stage.callTurn (h : Stage id task reply punctual begun (t.stateOf id))
    (hready : .call id ∈ t.ready) : Stage id task reply punctual begun
      (({ t with ready := t.ready.erase (.call id) }.runCall id).stateOf id) := by
  have hturns : (t.stateOf id).callTurns ≠ 0 := (List.count_pos_iff.2 hready).ne'
  let u : Transport := { t with ready := t.ready.erase (.call id) }
  have hu : u.stateOf id = { t.stateOf id with callTurns := (t.stateOf id).callTurns - 1 } :=
    stateOf_take_call t id
  show Stage id task reply punctual begun ((u.runCall id).stateOf id)
  generalize t.stateOf id = s at h hturns hu
  have hfinds {op : Operation} (hop : s.operations = [op]) : u.operation? id = some op :=
    operation?_of_stateOf ((congrArg OperationState.operations hu).trans hop)
  cases h with
  | waiting rung hlimited hrung hpunctual => exact stage_called hlimited hrung hpunctual hu
  | @asleep now start span asked attempt rung answers hlimited hwait hrung hpunctual =>
    obtain rfl : answers = true := by simpa using hturns
    rw [runCall, hfinds rfl]
    dsimp only [OperationPhase.call?]
    rw [if_neg nofun, stateOf_endCall rfl, hu, if_pos rfl, List.append_nil]
    exact .answered rung false hlimited fun hp => (hpunctual hp).2.2 rfl
  | givingUp hlimited hcancelled hprogress hover =>
    rw [runCall, hfinds rfl]
    dsimp only [OperationPhase.call?]
    split
    · exact absurd ‹_› hprogress
    · rw [if_pos hcancelled, stateOf_endCall rfl, hu]
      exact .gaveUp false hlimited hover
    · rw [if_pos hcancelled, stateOf_endCall rfl, hu]
      exact .gaveUp false hlimited hover
  | _ => exact absurd rfl hturns

theorem Stage.notice (h : Stage id task reply punctual begun (t.stateOf id))
    (hready : .callEnded id ∈ t.ready) : Stage id task reply punctual begun
      (({ t with ready := t.ready.erase (.callEnded id) }.wakeOperation id).stateOf id) := by
  have hnotices : (t.stateOf id).notices ≠ 0 := (List.count_pos_iff.2 hready).ne'
  rw [stateOf_wakeOperation, stateOf_take_callEnded]
  generalize t.stateOf id = s at h hnotices
  cases h with
  | answered rung noticed hlimited hwithin =>
    obtain rfl : noticed = false := by simpa using hnotices
    cases rung with
    | true => exact .answered true true hlimited hwithin
    | false => exact .answered false true hlimited hwithin
  | gaveUp noticed hlimited hover =>
    obtain rfl : noticed = false := by simpa using hnotices
    exact .gaveUp true hlimited hover
  | settled hsettled => exact .settled hsettled
  | _ => exact absurd rfl hnotices

theorem nextTimer?_concat (t : Transport) (timers : List Timer) (last : Timer) :
    ({ t with timers := timers ++ [last] } : Transport).nextTimer? =
      match ({ t with timers } : Transport).nextTimer? with
      | none => some last
      | some first => if first.due.le last.due then some first else some last := by
  rw [nextTimer?, List.foldl_append]
  rfl

/-- The next timer is due before those set before it, and no later than those set after it. -/
theorem nextTimer?_split (h : t.nextTimer? = some timer) : ∃ before after,
    t.timers = before ++ timer :: after ∧
      (∀ other ∈ before, other.due.le timer.due = false) ∧
      ∀ other ∈ after, timer.due.le other.due := by
  suffices hall : ∀ timers, match ({ t with timers } : Transport).nextTimer? with
      | none => timers = []
      | some first => ∃ before after, timers = before ++ first :: after ∧
        (∀ other ∈ before, other.due.le first.due = false) ∧
        ∀ other ∈ after, first.due.le other.due by
    have htimers := hall t.timers
    rwa [show ({ t with timers := t.timers } : Transport) = t from rfl, h] at htimers
  intro timers
  induction timers using List.reverseRecOn with
  | nil => rfl
  | append_singleton timers last ih =>
    rw [nextTimer?_concat]
    cases hfirst : ({ t with timers } : Transport).nextTimer? with
    | none =>
      rw [hfirst] at ih
      obtain rfl := ih
      exact ⟨[], [], rfl, nofun, nofun⟩
    | some first =>
      rw [hfirst] at ih
      obtain ⟨before, after, rfl, hbefore, hafter⟩ := ih
      cases hle : first.due.le last.due with
      | true =>
        dsimp only
        rw [if_pos hle]
        refine ⟨before, after ++ [last], by simp, hbefore, fun other hother => ?_⟩
        rcases List.mem_append.1 hother with hold | hnew
        · exact hafter other hold
        · rwa [List.mem_singleton.1 hnew]
      | false =>
        dsimp only
        rw [if_neg (by simp [hle])]
        refine ⟨before ++ first :: after, [], rfl, fun other hother => ?_, nofun⟩
        rw [Bool.eq_false_iff]
        intro hother'
        have hbefore' : other.due.le first.due :=
          Instant.le_trans hother' (Instant.le_of_not_le hle)
        rcases List.mem_append.1 hother with hold | hlater
        · exact absurd (hbefore'.symm.trans (hbefore other hold)) nofun
        · rcases List.mem_cons.1 hlater with rfl | hlater
          · exact absurd (hother'.symm.trans hle) nofun
          · exact absurd ((Instant.le_trans (hafter other hlater) hother').symm.trans hle) nofun

theorem le_of_nextTimer? (h : t.nextTimer? = some timer) :
    ∀ other ∈ t.timers, timer.due.le other.due := by
  obtain ⟨before, after, htimers, hbefore, hafter⟩ := nextTimer?_split h
  intro other hother
  rw [htimers] at hother
  rcases List.mem_append.1 hother with hold | hlater
  · exact Instant.le_of_not_le (hbefore other hold)
  · rcases List.mem_cons.1 hlater with rfl | hlater
    · exact Instant.le_refl _
    · exact hafter other hlater

/-- Of two timers of an operation, the one that was set last rings first only if it is due before
the other one. -/
theorem not_le_of_nextTimer? (h : t.nextTimer? = some timer) (hconcerns : timer.alarm.concerns id)
    {first : Timer} (hne : first ≠ timer) (htimers : (t.stateOf id).timers = [first, timer]) :
    first.due.le timer.due = false := by
  obtain ⟨before, after, hall, hbefore, -⟩ := nextTimer?_split h
  refine hbefore first ?_
  have hsplit : [first, timer] = before.filter (·.alarm.concerns id) ++
      timer :: after.filter (·.alarm.concerns id) := by
    rw [← htimers]
    simp [stateOf, hall, hconcerns]
  refine List.mem_of_mem_filter (p := (·.alarm.concerns id)) ?_
  cases hfilter : before.filter (·.alarm.concerns id) with
  | nil =>
    rw [hfilter] at hsplit
    exact absurd (List.cons.inj hsplit).1 hne
  | cons other rest =>
    rw [hfilter] at hsplit
    rw [(List.cons.inj hsplit).1]
    exact List.mem_cons_self

theorem due_le_fire_now (t : Transport) (timer : Timer) : timer.due.le (t.fire timer).now := by
  rw [fire_now]
  split_ifs with h
  · exact Instant.le_refl _
  · exact Instant.le_of_not_le (by simpa using h)

theorem stateOf_fire (t : Transport) (timer : Timer) (id : Nat) : ∃ u : Transport,
    u.stateOf id = { t.stateOf id with
      now := (t.fire timer).now, timers := (t.stateOf id).timers.erase timer } ∧
    t.fire timer = u.ring timer.alarm := by
  refine ⟨{ t with now := (t.fire timer).now, timers := t.timers.erase timer }, ?_, ?_⟩
  · simp only [stateOf, List.erase_filter]
    rfl
  · rw [fire_now]
    rfl

theorem stateOf_woken {u : Transport} {s : OperationState} (hu : u.stateOf id = s)
    (hops : s.operations ≠ []) (hturns : s.turns = 0) :
    (u.wakeOperation id).stateOf id = { s with turns := 1 } := by
  rw [stateOf_wakeOperation, hu, if_pos ⟨hops, hturns⟩]

theorem stage_limitRung {u : Transport} {start span asked : Instant} {attempt : Int}
    {answers : Bool} (hlimited : task.limited) (hwait : reply.wait ≠ .none)
    (hdue : (start.add span).le now)
    (hpunctual : punctual → asked = start ∧ answers = false ∧
      ∀ other ∈ reply.wait.timers asked (.call id), (start.add span).le other.due)
    (hu : u.stateOf id =
      { limit := .after span, now
        operations := [{ id, task, reply, phase := .guarding attempt { progress := .asleep } }]
        callTurns := answers.toNat
        timers := if answers then [] else reply.wait.timers asked (.call id)
        calls := [task.call] }) :
    Stage id task reply punctual (some start) ((u.wakeOperation id).stateOf id) := by
  rw [stateOf_woken hu (List.cons_ne_nil _ _) rfl]
  refine .asleep true answers hlimited hwait (fun _ => hdue) fun hp => ?_
  obtain ⟨rfl, rfl, hlater⟩ := hpunctual hp
  exact ⟨rfl, fun _ => Wait.within_eq_false hwait hlater, by simp⟩

theorem stage_answerRung {u : Transport} {start span d : Instant} {attempt : Int} {rung : Bool}
    (hlimited : task.limited) (hwait : reply.wait = .span d)
    (hrung : rung → (start.add span).le now)
    (hpunctual : punctual → rung = false ∧ (start.add span).le (start.add d) = false)
    (hu : u.stateOf id =
      { limit := .after span, now
        operations := [{ id, task, reply, phase := .guarding attempt { progress := .asleep } }]
        turns := rung.toNat
        timers := (if rung then [] else [⟨start.add span, .limit id⟩]) ++ []
        calls := [task.call] }) :
    Stage id task reply punctual (some start) ((u.enqueue (.call id)).stateOf id) := by
  have hwaits : reply.wait ≠ .none := by simp [hwait]
  have hasleep (hp : punctual) : start = start ∧
      (rung → reply.wait.within start span = false) ∧
      (true → reply.wait.within start span) := by
    obtain ⟨rfl, hlater⟩ := hpunctual hp
    exact ⟨rfl, by simp, fun _ => by rw [hwait, Wait.within, hlater]; rfl⟩
  rw [stateOf_enqueue_call, hu]
  exact .asleep rung true hlimited hwaits hrung hasleep

theorem Stage.alarm (h : Stage id task reply punctual begun (t.stateOf id))
    (htimer : timer ∈ t.timers) (hconcerns : timer.alarm.concerns id)
    (hpunctual : punctual → t.ready = [] ∧ t.nextTimer? = some timer) :
    Stage id task reply punctual begun ((t.fire timer).stateOf id) := by
  have hown : timer ∈ (t.stateOf id).timers := List.mem_filter.2 ⟨htimer, hconcerns⟩
  have hidle (hp : punctual) : (t.stateOf id).turns = 0 ∧ (t.stateOf id).callTurns = 0 := by
    simp [stateOf, (hpunctual hp).1]
  have hleast (hp : punctual) : ∀ other ∈ (t.stateOf id).timers, timer.due.le other.due :=
    fun other hother => le_of_nextTimer? (hpunctual hp).2 other (List.mem_of_mem_filter hother)
  have hfirst (hp : punctual) (first : Timer) (hne : first ≠ timer)
      (htimers : (t.stateOf id).timers = [first, timer]) : first.due.le timer.due = false :=
    not_le_of_nextTimer? (hpunctual hp).2 hconcerns hne htimers
  have hclock : (t.stateOf id).now.le (t.fire timer).now := le_fire_now t timer
  have hdue := due_le_fire_now t timer
  obtain ⟨u, hu, hring⟩ := stateOf_fire t timer id
  rw [hring]
  generalize t.stateOf id = s at h hown hidle hleast hfirst hclock hu
  generalize (t.fire timer).now = now' at hclock hdue hu
  cases h with
  | calling rung hlimited hwait =>
    cases rung with
    | true => cases hown
    | false =>
      obtain ⟨d, hd, rfl⟩ := Wait.timers_of_mem hown
      show Stage id task reply punctual _ ((u.wakeOperation id).stateOf id)
      rw [stateOf_woken hu (List.cons_ne_nil _ _) rfl, if_neg Bool.false_ne_true, hd, Wait.timers,
        List.erase_cons_head]
      exact .calling true hlimited hwait
  | waiting rung hlimited hrung hstart =>
    cases rung with
    | true => cases hown
    | false =>
      obtain rfl := List.mem_singleton.1 hown
      show Stage id task reply punctual _ ((u.wakeOperation id).stateOf id)
      rw [stateOf_woken hu (List.cons_ne_nil _ _) rfl, if_neg Bool.false_ne_true,
        List.erase_cons_head]
      exact .waiting true hlimited (fun _ => hdue) fun hp => absurd (hidle hp).2 one_ne_zero
  | @asleep _ start span asked _ rung answers hlimited hwait hrung hstart =>
    rcases List.mem_append.1 hown with hlimit | hanswer
    · cases rung with
      | true => cases hlimit
      | false =>
        obtain rfl := List.mem_singleton.1 hlimit
        rw [if_neg Bool.false_ne_true, List.singleton_append, List.erase_cons_head] at hu
        refine stage_limitRung hlimited hwait hdue (fun hp => ?_) hu
        obtain rfl : answers = false := by simpa using (hidle hp).2
        -- the limit is the next timer, so the answer is not due before it
        exact ⟨(hstart hp).1, rfl, fun other hother =>
          hleast hp other (List.mem_append_right _ hother)⟩
    · cases answers with
      | true => cases hanswer
      | false =>
        obtain ⟨d, hd, rfl⟩ := Wait.timers_of_mem hanswer
        have hanswers : (if false = true then ([] : List Timer) else
            reply.wait.timers asked (.call id)) = [⟨asked.add d, .call id⟩] := by
          rw [if_neg Bool.false_ne_true, hd, Wait.timers]
        have hother : (⟨asked.add d, .call id⟩ : Timer) ∉
            if rung = true then [] else [⟨start.add span, .limit id⟩] := by
          cases rung <;> simp
        rw [hanswers, List.erase_append_right _ hother, List.erase_cons_head] at hu
        refine stage_answerRung hlimited hd (fun hr => Instant.le_trans (hrung hr) hclock)
          (fun hp => ?_) hu
        obtain rfl : rung = false := by simpa using (hidle hp).1
        obtain ⟨rfl, -, -⟩ := hstart hp
        -- the limit was set first and has not rung, so it is due behind the answer
        exact ⟨rfl, hfirst hp ⟨asked.add span, .limit id⟩ (by simp) (congrArg _ hanswers)⟩
  | answered rung noticed hlimited hwithin =>
    cases rung with
    | true => cases hown
    | false =>
      obtain rfl := List.mem_singleton.1 hown
      rw [if_neg Bool.false_ne_true, List.erase_cons_head] at hu
      show Stage id task reply punctual _ ((u.wakeOperation id).stateOf id)
      cases noticed with
      | true =>
        rw [stateOf_wakeOperation, hu, if_neg (by simp)]
        exact .answered true true hlimited hwithin
      | false =>
        rw [stateOf_woken hu (List.cons_ne_nil _ _) rfl]
        exact .answered true false hlimited hwithin
  | _ => cases hown

end Turns

end Transport

end BrokerTrial

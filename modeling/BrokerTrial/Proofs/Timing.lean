import BrokerTrial.Proofs.Stages

/-! The limits of operations. Whatever else goes on, an operation that nobody tells to stop is at
one of its stages (`Course.stage`). So it makes its call and waits for the answer, but no longer
than the limit if it has one, and while its client answers at all, it does not wait for ever. If the
clock only jumps to the next timer when nothing is ready (`Punctual`), as it does in a trial that
goes by its own clock (`Trial.runFor_punctual`), the limit and the time of the answer decide how it
ends. -/

namespace BrokerTrial

namespace Transport

def begunAt (id : Nat) (course : List Transition) : Option Instant :=
  (course.find? (·.begins id)).map (·.before.now)

theorem begunAt_concat (id : Nat) (course : List Transition) (m : Transition) :
    begunAt id (course ++ [m]) =
      (begunAt id course).or (if m.begins id then some m.before.now else none) := by
  cases hb : m.begins id <;> simp [begunAt, hb]

section Stage

variable {id : Nat} {task : Task} {reply : Reply} {punctual punctual' : Prop}
  {begun begun' : Option Instant} {s : OperationState} {start now now' : Instant} {limit : Limit}
  {calls : List ClientCall} {ending : Ending}

theorem OutOfTime.later (h : OutOfTime task reply punctual start now limit calls)
    (hp : punctual' → punctual) (hle : now.le now') :
    OutOfTime task reply punctual' start now' limit calls := by
  cases h with
  | atOnce => exact .atOnce
  | after hdue hcalls hpunctual =>
    exact .after (Instant.le_trans hdue hle) hcalls fun h => hpunctual (hp h)

theorem Settled.later (h : Settled task reply punctual start now limit calls ending)
    (hp : punctual' → punctual) (hle : now.le now') :
    Settled task reply punctual' start now' limit calls ending := by
  cases h with
  | answered hlimit =>
    refine .answered fun hl => ?_
    obtain ⟨span, hspan, hwithin⟩ := hlimit hl
    exact ⟨span, hspan, fun h => hwithin (hp h)⟩
  | outOfTime hl hover => exact .outOfTime hl (hover.later hp hle)

/-- Time goes by. A punctual clock does not go on while a client call is ready. -/
theorem Stage.later (h : Stage id task reply punctual begun s) (hp : punctual' → punctual)
    (hle : s.now.le now') (hwaits : punctual' → now' = s.now ∨ s.callTurns = 0) :
    Stage id task reply punctual' begun { s with now := now' } := by
  cases h with
  | unstarted => exact .unstarted
  | calling rung hlimited hwait => exact .calling rung hlimited hwait
  | waiting rung hlimited hrung hstart =>
    refine .waiting rung hlimited (fun hr => Instant.le_trans (hrung hr) hle) fun h => ?_
    obtain ⟨hnone, hnow⟩ := hstart (hp h)
    rcases hwaits h with hsame | hzero
    · exact ⟨hnone, hsame.trans hnow⟩
    · cases hzero
  | asleep rung answers hlimited hwait hrung hstart =>
    exact .asleep rung answers hlimited hwait (fun hr => Instant.le_trans (hrung hr) hle)
      fun h => hstart (hp h)
  | answered rung noticed hlimited hwithin =>
    exact .answered rung noticed hlimited fun h => hwithin (hp h)
  | givingUp hlimited hcancelled hprogress hover =>
    exact .givingUp hlimited hcancelled hprogress (hover.later hp hle)
  | gaveUp noticed hlimited hover => exact .gaveUp noticed hlimited (hover.later hp hle)
  | settled hsettled => exact .settled (hsettled.later hp hle)

theorem Stage.mono (h : Stage id task reply punctual begun s) (hp : punctual' → punctual) :
    Stage id task reply punctual' begun s :=
  h.later hp (Instant.le_refl _) fun _ => .inl rfl

theorem Stage.any_unstarted (h : Stage id task reply punctual begun s) :
    s.operations.any (·.phase.attempt?.isNone) = begun.isNone := by
  cases h <;> rfl

theorem Stage.of_gone (h : Stage id task reply punctual begun s) (hgone : s.operations = []) :
    ∃ start ending, begun = some start ∧ s.endings = [ending] ∧
      Settled task reply punctual start s.now s.limit s.calls ending := by
  cases h with
  | settled hsettled => exact ⟨_, _, rfl, rfl, hsettled⟩
  | _ => cases hgone

/-- An operation for which nothing is set waits for a client that never answers. -/
theorem Stage.of_idle (h : Stage id task reply punctual begun s) (hops : s.operations ≠ [])
    (hturns : s.turns = 0) (hcallTurns : s.callTurns = 0) (hnotices : s.notices = 0)
    (htimers : s.timers = []) : task.limited = false ∧ reply.wait = .forever := by
  cases h with
  | calling rung hlimited hwait =>
    obtain rfl : rung = false := by simpa using hturns
    refine ⟨hlimited, ?_⟩
    cases hw : reply.wait with
    | none => exact absurd hw hwait
    | forever => rfl
    | span d => simp [hw, Wait.timers] at htimers
  | unstarted => cases hturns
  | waiting => cases hcallTurns
  | asleep rung answers =>
    obtain rfl : rung = false := by simpa using hturns
    simp at htimers
  | answered rung noticed =>
    obtain rfl : noticed = true := by simpa using hnotices
    cases hturns
  | givingUp => cases hcallTurns
  | gaveUp noticed =>
    obtain rfl : noticed = true := by simpa using hnotices
    cases hturns
  | settled => exact absurd rfl hops

/-- With a punctual clock, the limit and the time of the answer decide how a task ends. -/
theorem Settled.of_punctual (h : Settled task reply punctual start now limit calls ending)
    (hp : punctual) : ending = task.outcome reply limit start ∧ calls = task.callsMade limit := by
  unfold Task.outcome Task.callsMade
  cases h with
  | answered hlimit =>
    cases hl : task.limited with
    | false => simp
    | true =>
      obtain ⟨span, rfl, hwithin⟩ := hlimit hl
      simp [hwithin hp]
  | outOfTime hl hover =>
    rw [hl]
    cases hover with
    | atOnce => simp
    | after _ _ hpunctual =>
      obtain ⟨rfl, hwithin⟩ := hpunctual hp
      simp [hwithin]

end Stage

section Course

variable {patience : Patience} {course : List Transition} {t : Transport} {d : Deed} {id : Nat}
  {task : Task} {reply : Reply} {punctual : Prop} {begun : Option Instant}

theorem stage_job (h : Stage id task reply punctual begun (t.stateOf id)) {job : Job}
    (hjob : job.concerns id) (hready : job ∈ t.ready) : ∃ begun',
      Stage id task reply punctual begun'
        (({ t with ready := t.ready.erase job }.runJob job).stateOf id) ∧
      (begun' = begun ∨ begun' = begun.or (some t.now)) := by
  cases job with
  | operation n =>
    obtain rfl : n = id := by simpa [Job.concerns] using hjob
    exact ⟨_, h.turn hready, .inr rfl⟩
  | call n =>
    obtain rfl : n = id := by simpa [Job.concerns] using hjob
    exact ⟨_, h.callTurn hready, .inl rfl⟩
  | callEnded n =>
    obtain rfl : n = id := by simpa [Job.concerns] using hjob
    exact ⟨_, h.notice hready, .inl rfl⟩
  | _ => cases hjob

/-- Whatever happens, an operation that nobody tells to stop is at one of its stages. -/
theorem stage_perform (h : Stage id task reply punctual begun (t.stateOf id))
    (hclose : d ≠ .beginClose) (hid : t.nextId ≠ id) (hpunctual : ∀ timer, d = .alarm timer →
      punctual → t.ready = [] ∧ t.nextTimer? = some timer) : ∃ begun',
      Stage id task reply punctual begun' ((t.perform d).stateOf id) ∧
      (begun' = begun ∨ begun' = begun.or (some t.now)) := by
  cases hconcerns : d.concerns id with
  | false =>
    refine ⟨begun, ?_, .inl rfl⟩
    rcases stateOf_perform t hconcerns hclose (fun hsame => absurd hsame hid) with
      hsame | ⟨timer, -, rfl, hsame⟩
    · rwa [hsame]
    · rw [hsame]
      refine h.later (fun hp => hp) (le_fire_now t timer) fun hp => .inr ?_
      simp [stateOf, (hpunctual timer rfl hp).1]
  | true =>
    cases d with
    | job job =>
      by_cases hready : job ∈ t.ready
      · rw [perform, if_pos hready]
        exact stage_job h hconcerns hready
      · rw [perform, if_neg hready]
        exact ⟨begun, h, .inl rfl⟩
    | alarm timer =>
      by_cases htimer : timer ∈ t.timers
      · rw [perform, if_pos htimer]
        exact ⟨begun, h.alarm htimer hconcerns (hpunctual timer rfl), .inl rfl⟩
      · rw [perform, if_neg htimer]
        exact ⟨begun, h, .inl rfl⟩
    | _ => cases hconcerns

theorem not_told_concat {m : Transition} (h : ¬ Told (course ++ [m])) :
    ¬ Told course ∧ m.deed ≠ .beginClose := by
  constructor
  · rintro ⟨m', hm', hclose⟩
    exact h ⟨m', List.mem_append_left _ hm', hclose⟩
  · intro hclose
    exact h ⟨m, List.mem_append_right _ (List.mem_singleton_self _), hclose⟩

theorem Course.unborn (h : Course { patience } course t) (hcalm : ¬ Told course)
    (hid : t.nextId ≤ id) :
    ∃ now, t.stateOf id = { limit := patience.acknowledgement.limit, now } := by
  induction h with
  | nil => exact ⟨_, rfl⟩
  | @snoc course t d hcourse ih =>
    obtain ⟨hbefore, hclose⟩ := not_told_concat hcalm
    obtain ⟨said, hperforms⟩ := t.perform_performs d
    obtain ⟨now, hblank⟩ := ih hbefore (hperforms.nextId_le.trans hid)
    cases hconcerns : d.concerns id with
    | false =>
      have hstarts (hsame : t.nextId = id) : t.starts? d = none := by
        have hnext := hperforms.nextId_eq
        cases hd : t.starts? d with
        | none => rfl
        | some _ =>
          rw [hd, Option.isSome_some, if_pos rfl] at hnext
          omega
      rcases stateOf_perform t hconcerns hclose hstarts with hsame | ⟨timer, -, -, hsame⟩
      · exact ⟨now, hsame.trans hblank⟩
      · exact ⟨_, by rw [hsame, hblank]⟩
    | true =>
      have hjob := (no_job_iff t).2 (by rw [hblank]; exact ⟨rfl, rfl, rfl⟩)
      have htimer := (no_timer_iff t).2 (by rw [hblank])
      refine ⟨now, ?_⟩
      cases d with
      | job job =>
        rw [perform, if_neg fun hready => by simp [hjob job hready, Deed.concerns] at hconcerns]
        exact hblank
      | alarm timer =>
        rw [perform, if_neg fun hset => by simp [htimer timer hset, Deed.concerns] at hconcerns]
        exact hblank
      | _ => cases hconcerns

theorem stateOf_spawn {limit : Limit} {now : Instant} (task : Task) (reply : Reply)
    (h : t.stateOf t.nextId = { limit, now }) : (t.spawn task reply).stateOf t.nextId =
      { limit, now, operations := [{ id := t.nextId, task, reply }], turns := 1 } := by
  let op : Operation := { id := t.nextId, task, reply }
  have hspawned : ({ t with operations := t.operations ++ [op], nextId := t.nextId + 1 } :
      Transport).stateOf t.nextId =
        { t.stateOf t.nextId with operations := (t.stateOf t.nextId).operations ++ [op] } := by
    simp [stateOf, op]
    exact ⟨rfl, rfl⟩
  rw [spawn, stateOf_enqueue_operation, hspawned, h]
  rfl

theorem stateOf_starts {limit : Limit} {now : Instant} (hd : t.starts? d = some (task, reply))
    (h : t.stateOf t.nextId = { limit, now }) : (t.perform d).stateOf t.nextId =
      { limit, now, operations := [{ id := t.nextId, task, reply }], turns := 1 } := by
  cases d with
  | subscribe topics reply' =>
    cases hc : t.connected with
    | false => simp [starts?, sendSubscribe, hc] at hd
    | true =>
      obtain ⟨rfl, rfl⟩ : Task.subscribe topics = task ∧ reply' = reply := by
        simpa [starts?, sendSubscribe, hc] using hd
      rw [perform, sendSubscribe, if_pos hc]
      exact stateOf_spawn _ _ h
  | publish p chunk reply' =>
    rcases t.sendPublish_cases p chunk reply' with ⟨-, -, hrejected⟩ | ⟨-, hfinal, hsend⟩
    · simp only [starts?, hrejected] at hd
      cases hd
    · obtain ⟨rfl, rfl⟩ : Task.publish p.topic p.qos (t.outgoing ++ chunk) = task ∧
          reply' = reply := by
        simpa [starts?, hsend, hfinal] using hd
      rw [perform, hsend]
      let u : Transport := { t with outgoing := [] }
      have hu : u.stateOf u.nextId = { limit, now } := h
      exact stateOf_spawn _ _ hu
  | _ => cases hd

theorem begunAt_of_stage {u : Transport} {punctual' : Prop} {begun' : Option Instant}
    (h : Stage id task reply punctual (begunAt id course) (t.stateOf id))
    (h' : Stage id task reply punctual' begun' (u.stateOf id))
    (hbegun : begun' = begunAt id course ∨ begun' = (begunAt id course).or (some t.now)) :
    begunAt id (course ++ [⟨t, d, u⟩]) = begun' := by
  have hbegins : (Transition.mk t d u).begins id =
      ((begunAt id course).isNone && !begun'.isNone) := by
    rw [Transition.begins, unstarted_eq, unstarted_eq, h.any_unstarted, h'.any_unstarted]
  rw [begunAt_concat, hbegins]
  cases hb : begunAt id course with
  | some start => rcases hbegun with rfl | rfl <;> rw [hb] <;> rfl
  | none => rcases hbegun with rfl | rfl <;> rw [hb] <;> rfl

theorem Course.limit_eq (h : Course { patience } course t) (hcalm : ¬ Told course) :
    t.patience.acknowledgement.limit = patience.acknowledgement.limit := by
  obtain ⟨now, hblank⟩ := h.unborn hcalm le_rfl
  exact congrArg OperationState.limit hblank

/-- Every operation is at one of its stages. -/
theorem Course.stage (h : Course { patience } course t) (hcalm : ¬ Told course) :
    ∀ m ∈ course, ∀ task reply, m.before.starts? m.deed = some (task, reply) →
      Stage m.before.nextId task reply (Punctual course) (begunAt m.before.nextId course)
        (t.stateOf m.before.nextId) := by
  induction h with
  | nil => exact fun m hm => absurd hm List.not_mem_nil
  | @snoc course t d hcourse ih =>
    obtain ⟨hbefore, hclose⟩ := not_told_concat hcalm
    have haccounts := hcourse.accounts
    have hpunctual (hp : Punctual (course ++ [⟨t, d, t.perform d⟩])) : Punctual course :=
      fun m hm => hp m (List.mem_append_left _ hm)
    intro m hm task reply hstarts
    rcases List.mem_append.1 hm with hold | hnew
    · have hstage := ih hbefore m hold task reply hstarts
      have hid : t.nextId ≠ m.before.nextId := (haccounts.accounts m hold task reply hstarts).1.ne'
      obtain ⟨begun', hafter, hbegun⟩ := stage_perform (hstage.mono hpunctual) hclose hid
        fun timer hd hp =>
          Transition.of_punctual (hp _ (List.mem_append_right _ (List.mem_singleton_self _))) hd
      rwa [begunAt_of_stage hstage hafter hbegun]
    · obtain rfl := List.mem_singleton.1 hnew
      obtain ⟨now, hblank⟩ := hcourse.unborn hbefore le_rfl
      have hbegins := begins_of_unborn haccounts.numbered le_rfl d (t.perform d)
      have hnone : begunAt t.nextId course = none := by
        have hnumber := (haccounts.unborn t.nextId le_rfl).2.2
        rw [numberOf, Option.map_eq_none_iff] at hnumber
        rw [begunAt, hnumber]
        rfl
      show Stage t.nextId task reply _ _ ((t.perform d).stateOf t.nextId)
      rw [begunAt_concat, hnone, hbegins, stateOf_starts hstarts hblank]
      exact .unstarted

variable {m : Transition} {ending : Ending}

theorem Course.of_idle (h : Course { patience } course t) (hcalm : ¬ Told course) (hm : m ∈ course)
    (hstarts : m.before.starts? m.deed = some (task, reply))
    (hthere : ∃ op ∈ t.operations, op.id = m.before.nextId)
    (hjobs : ∀ job ∈ t.ready, job.concerns m.before.nextId = false)
    (htimers : ∀ timer ∈ t.timers, timer.alarm.concerns m.before.nextId = false) :
    task.limited = false ∧ reply.wait = .forever := by
  obtain ⟨op, hop, hid⟩ := hthere
  obtain ⟨hturns, hcallTurns, hnotices⟩ := (no_job_iff t).1 hjobs
  refine (h.stage hcalm m hm task reply hstarts).of_idle ?_ hturns hcallTurns hnotices
    ((no_timer_iff t).1 htimers)
  exact List.ne_nil_of_mem (List.mem_filter.2 ⟨hop, by simpa using hid⟩)

theorem Course.settled (h : Course { patience } course t) (hcalm : ¬ Told course) (hm : m ∈ course)
    (hstarts : m.before.starts? m.deed = some (task, reply))
    (hgone : ∀ op ∈ t.operations, op.id ≠ m.before.nextId)
    (hone : t.view.endings m.before.nextId = [ending]) :
    ∃ start, begunAt m.before.nextId course = some start ∧
      Settled task reply (Punctual course) start t.now patience.acknowledgement.limit
        (t.view.calls m.before.nextId) ending := by
  have hops : (t.stateOf m.before.nextId).operations = [] := by
    simpa [stateOf, List.filter_eq_nil_iff] using hgone
  obtain ⟨start, ending', hbegun, hone', hsettled⟩ :=
    (h.stage hcalm m hm task reply hstarts).of_gone hops
  obtain rfl : ending = ending' := (List.cons.inj (hone.symm.trans hone')).1
  rw [← h.limit_eq hcalm]
  exact ⟨start, hbegun, hsettled⟩

end Course

end Transport

end BrokerTrial

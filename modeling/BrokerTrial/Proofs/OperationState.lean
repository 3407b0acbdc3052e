import BrokerTrial.Proofs.Accounts

/-! What a transport holds for one operation: the operation itself, the jobs and timers that are set
for it, and what has become of its call. A deed that does not concern the operation leaves all of it
alone (`stateOf_perform`), so what an operation waits for can be followed by itself, whatever else
goes on. -/

namespace BrokerTrial

/-- The call that a mark tells of, if it is one of the operation with a number. -/
def Mark.calledBy? (id : Nat) : Mark → Option ClientCall
  | .called n call => if n = id then some call else none
  | _ => none

def Job.concerns (id : Nat) : Job → Bool
  | .operation n | .call n | .callEnded n => n = id
  | _ => false

def Alarm.concerns (id : Nat) : Alarm → Bool
  | .operation n | .call n | .limit n => n = id
  | _ => false

namespace Transport

def View.calls (v : View) (id : Nat) : List ClientCall := v.history.filterMap (Mark.calledBy? id)

theorem View.calls_record (v : View) (marks : List Mark) (id : Nat) :
    (v.record marks).calls id = v.calls id ++ marks.filterMap (Mark.calledBy? id) :=
  List.filterMap_append

structure OperationState where
  /-- The limit of the transport. -/
  limit : Limit
  now : Instant
  operations : List Operation := []
  /-- The turns of the operation that are due. -/
  turns : Nat := 0
  /-- The turns of its client call that are due. -/
  callTurns : Nat := 0
  /-- How often it is still to be told that its client call has ended. -/
  notices : Nat := 0
  timers : List Timer := []
  calls : List ClientCall := []
  endings : List Ending := []

def stateOf (t : Transport) (id : Nat) : OperationState where
  limit := t.patience.acknowledgement.limit
  now := t.now
  operations := t.operations.filter (·.id = id)
  turns := t.ready.count (.operation id)
  callTurns := t.ready.count (.call id)
  notices := t.ready.count (.callEnded id)
  timers := t.timers.filter (·.alarm.concerns id)
  calls := t.view.calls id
  endings := t.view.endings id

section Primitives

variable (t : Transport) (id : Nat)

theorem operation?_eq : t.operation? id = (t.stateOf id).operations.head? :=
  List.head?_filter.symm

theorem unstarted_eq :
    t.view.unstarted id = (t.stateOf id).operations.any (·.phase.attempt?.isNone) :=
  List.any_filter.symm

@[simp] theorem stateOf_enqueue_operation : (t.enqueue (.operation id)).stateOf id =
    { t.stateOf id with turns := (t.stateOf id).turns + 1 } := by
  simp [stateOf, enqueue, view, history]

@[simp] theorem stateOf_enqueue_call : (t.enqueue (.call id)).stateOf id =
    { t.stateOf id with callTurns := (t.stateOf id).callTurns + 1 } := by
  simp [stateOf, enqueue, view, history]

@[simp] theorem stateOf_enqueue_callEnded : (t.enqueue (.callEnded id)).stateOf id =
    { t.stateOf id with notices := (t.stateOf id).notices + 1 } := by
  simp [stateOf, enqueue, view, history]

theorem stateOf_take_operation :
    ({ t with ready := t.ready.erase (.operation id) } : Transport).stateOf id =
      { t.stateOf id with turns := (t.stateOf id).turns - 1 } := by
  simp [stateOf, view, history, List.count_erase_of_ne]

theorem stateOf_take_call :
    ({ t with ready := t.ready.erase (.call id) } : Transport).stateOf id =
      { t.stateOf id with callTurns := (t.stateOf id).callTurns - 1 } := by
  simp [stateOf, view, history, List.count_erase_of_ne]

theorem stateOf_take_callEnded :
    ({ t with ready := t.ready.erase (.callEnded id) } : Transport).stateOf id =
      { t.stateOf id with notices := (t.stateOf id).notices - 1 } := by
  simp [stateOf, view, history, List.count_erase_of_ne]

/-- Jobs that do not concern an operation do not count for it. -/
theorem stateOf_ready {ready : List Job}
    (h : ∀ job : Job, job.concerns id → ready.count job = t.ready.count job) :
    ({ t with ready } : Transport).stateOf id = t.stateOf id := by
  simp [stateOf, view, history, h, Job.concerns]

variable {id}

theorem stateOf_enqueue {job : Job} (h : job.concerns id = false) :
    (t.enqueue job).stateOf id = t.stateOf id := by
  refine stateOf_ready t id fun other hother => ?_
  have hne : job ≠ other := by
    rintro rfl
    cases h.symm.trans hother
  simp [hne]

theorem stateOf_erase {job : Job} (h : job.concerns id = false) :
    ({ t with ready := t.ready.erase job } : Transport).stateOf id = t.stateOf id := by
  refine stateOf_ready t id fun other hother => ?_
  have hne : other ≠ job := by
    rintro rfl
    cases h.symm.trans hother
  exact List.count_erase_of_ne hne

theorem stateOf_setTimer (span : Instant) {alarm : Alarm} (h : alarm.concerns id) :
    (t.setTimer span alarm).stateOf id =
      { t.stateOf id with timers := (t.stateOf id).timers ++ [⟨t.now.add span, alarm⟩] } := by
  simp [stateOf, setTimer, view, history, h]

theorem stateOf_setTimer_of_other (span : Instant) {alarm : Alarm} (h : alarm.concerns id = false) :
    (t.setTimer span alarm).stateOf id = t.stateOf id := by
  simp [stateOf, setTimer, view, history, h]

theorem stateOf_dropTimer (alarm : Alarm) : (t.dropTimer alarm).stateOf id =
    { t.stateOf id with timers := (t.stateOf id).timers.filter (·.alarm ≠ alarm) } := by
  simp [stateOf, dropTimer, view, history, Bool.and_comm]

theorem stateOf_dropTimer_of_other {alarm : Alarm} (h : alarm.concerns id = false) :
    (t.dropTimer alarm).stateOf id = t.stateOf id := by
  have hkeeps : (t.stateOf id).timers.filter (·.alarm ≠ alarm) = (t.stateOf id).timers := by
    refine List.filter_eq_self.2 fun timer htimer => ?_
    have hconcerns := (List.mem_filter.1 htimer).2
    rw [decide_eq_true_eq]
    rintro rfl
    cases h.symm.trans hconcerns
  rw [stateOf_dropTimer, hkeeps]

theorem stateOf_updateOperation {op : Operation} (h : op.id = id) :
    (t.updateOperation op).stateOf id =
      { t.stateOf id with operations := (t.stateOf id).operations.map fun _ => op } := by
  subst h
  have hops : (t.operations.map fun o => if o.id = op.id then op else o).filter (·.id = op.id) =
      (t.operations.filter (·.id = op.id)).map fun _ => op := by
    induction t.operations with
    | nil => rfl
    | cons o rest ih => by_cases ho : o.id = op.id <;> simp [ho, ih]
  simp only [stateOf, updateOperation, hops]
  rfl

theorem stateOf_updateOperation_of_other {op : Operation} (h : op.id ≠ id) :
    (t.updateOperation op).stateOf id = t.stateOf id := by
  have hops : (t.operations.map fun o => if o.id = op.id then op else o).filter (·.id = id) =
      t.operations.filter (·.id = id) := by
    induction t.operations with
    | nil => rfl
    | cons o rest ih =>
      by_cases ho : o.id = op.id
      · simp [ho, ih, h]
      · rw [List.map_cons, if_neg ho, List.filter_cons, List.filter_cons, ih]
  simp only [stateOf, updateOperation, hops]
  rfl

@[simp] theorem stateOf_log (entry : Log.Entry) : (t.log entry).stateOf id = t.stateOf id := by
  simp only [stateOf, view_log]
  rfl

@[simp] theorem stateOf_built (client : Built) :
    (t.mark (.built client)).stateOf id = t.stateOf id := by
  simp only [stateOf, view_built]
  rfl

theorem stateOf_called (id : Nat) (call : ClientCall) : (t.mark (.called id call)).stateOf id =
    { t.stateOf id with calls := (t.stateOf id).calls ++ [call] } := by
  have hcalls : (t.view.record [.called id call]).calls id = t.view.calls id ++ [call] := by
    simp [View.calls_record, Mark.calledBy?]
  have hendings : (t.view.record [.called id call]).endings id = t.view.endings id := by
    simp [View.endings_record, Mark.ending?]
  simp only [stateOf, view_called, hcalls, hendings]
  rfl

theorem stateOf_called_of_other {n : Nat} (h : n ≠ id) (call : ClientCall) :
    (t.mark (.called n call)).stateOf id = t.stateOf id := by
  have hcalls : (t.view.record [.called n call]).calls id = t.view.calls id := by
    simp [View.calls_record, Mark.calledBy?, h]
  have hendings : (t.view.record [.called n call]).endings id = t.view.endings id := by
    simp [View.endings_record, Mark.ending?]
  simp only [stateOf, view_called, hcalls, hendings]
  rfl

@[simp] theorem stateOf_emit (e : Event) : (t.emit e).stateOf id = t.stateOf id := by
  unfold emit
  dsimp only
  split_ifs
  · exact stateOf_enqueue _ rfl
  · rfl

@[simp] theorem stateOf_noteEnded : t.noteEnded.stateOf id = t.stateOf id := by
  unfold noteEnded
  split_ifs
  · rfl
  · exact stateOf_enqueue t rfl

@[simp] theorem stateOf_breakDown (fault : Fault) (guarded : Bool) :
    (t.breakDown fault guarded).stateOf id = t.stateOf id := rfl

theorem stateOf_endOperation {op : Operation} (h : op.id = id) (ending : Ending) :
    (t.endOperation op ending).stateOf id =
      { t.stateOf id with operations := [], endings := (t.stateOf id).endings ++ [ending] } := by
  subst h
  let u : Transport := { t with operations := t.operations.filter (·.id ≠ op.id) }
  have hops : u.operations.filter (·.id = op.id) = [] := by
    simp [u, List.filter_filter]
  have hcalls : (u.view.record [.ended op.id ending]).calls op.id = t.view.calls op.id :=
    (View.calls_record _ _ _).trans (List.append_nil _)
  have hendings : (u.view.record [.ended op.id ending]).endings op.id =
      t.view.endings op.id ++ [ending] := by
    simp [View.endings_record, Mark.ending?]
    rfl
  show (u.mark (.ended op.id ending)).noteEnded.stateOf op.id = _
  rw [stateOf_noteEnded]
  simp only [stateOf, view_ended, hcalls, hendings]
  rw [show (u.mark (.ended op.id ending)).operations = u.operations from rfl, hops]
  rfl

theorem stateOf_endOperation_of_other {op : Operation} (h : op.id ≠ id) (ending : Ending) :
    (t.endOperation op ending).stateOf id = t.stateOf id := by
  let u : Transport := { t with operations := t.operations.filter (·.id ≠ op.id) }
  have hops : u.operations.filter (·.id = id) = t.operations.filter (·.id = id) := by
    rw [List.filter_filter]
    refine List.filter_congr fun o _ => ?_
    by_cases ho : o.id = id <;> simp [ho, h.symm]
  have hcalls : (u.view.record [.ended op.id ending]).calls id = t.view.calls id :=
    (View.calls_record _ _ _).trans (List.append_nil _)
  have hendings : (u.view.record [.ended op.id ending]).endings id = t.view.endings id := by
    simp [View.endings_record, Mark.ending?, h]
    rfl
  show (u.mark (.ended op.id ending)).noteEnded.stateOf id = _
  rw [stateOf_noteEnded]
  simp only [stateOf, view_ended, hcalls, hendings]
  rw [show (u.mark (.ended op.id ending)).operations = u.operations from rfl, hops]
  rfl

theorem stateOf_settleSubscribe (topics : Subscription) (granted : Suback) (ending : Ending) :
    (t.settleSubscribe topics granted ending).stateOf id = t.stateOf id := by
  unfold settleSubscribe
  repeat' split
  all_goals simp

theorem stateOf_settlePublish (topic : Value) (qos : Int) (payload : List UInt8) (attempt : Int)
    (ending : Ending) : (t.settlePublish topic qos payload attempt ending).stateOf id =
      t.stateOf id := by
  unfold settlePublish
  repeat' split
  all_goals simp

theorem stateOf_settle {op : Operation} (h : op.id = id) (attempt : Int) (ending : Ending) :
    (t.settle op attempt ending).stateOf id =
      { t.stateOf id with operations := [], endings := (t.stateOf id).endings ++ [ending] } := by
  unfold settle
  rw [stateOf_endOperation _ h]
  cases op.task with
  | subscribe topics => rw [stateOf_settleSubscribe]
  | publish topic qos payload => rw [stateOf_settlePublish]

theorem stateOf_settle_of_other {op : Operation} (h : op.id ≠ id) (attempt : Int)
    (ending : Ending) : (t.settle op attempt ending).stateOf id = t.stateOf id := by
  unfold settle
  rw [stateOf_endOperation_of_other _ h]
  cases op.task with
  | subscribe topics => rw [stateOf_settleSubscribe]
  | publish topic qos payload => rw [stateOf_settlePublish]

theorem stateOf_wakeOperation (id : Nat) : (t.wakeOperation id).stateOf id =
    if (t.stateOf id).operations ≠ [] ∧ (t.stateOf id).turns = 0 then
      { t.stateOf id with turns := 1 } else t.stateOf id := by
  have hwakes : ((t.operation? id).isSome && !t.ready.contains (.operation id)) = true ↔
      (t.stateOf id).operations ≠ [] ∧ (t.stateOf id).turns = 0 := by
    simp [operation?_eq, stateOf, List.count_eq_zero, Option.isSome_iff_ne_none]
  unfold wakeOperation
  by_cases h : (t.stateOf id).operations ≠ [] ∧ (t.stateOf id).turns = 0
  · rw [if_pos (hwakes.2 h), if_pos h, stateOf_enqueue_operation, h.2]
  · rw [if_neg (mt hwakes.1 h), if_neg h]

theorem stateOf_wakeOperation_of_other {n : Nat} (h : n ≠ id) :
    (t.wakeOperation n).stateOf id = t.stateOf id := by
  unfold wakeOperation
  split_ifs
  · exact stateOf_enqueue t (decide_eq_false h)
  · rfl

end Primitives

section Link

variable (t : Transport) (l : Link) (id : Nat)

theorem stateOf_endLink : (t.endLink l).stateOf id = t.stateOf id := stateOf_noteEnded _

theorem stateOf_failLink (f : Fault) : (t.failLink l f).stateOf id = t.stateOf id := by
  unfold failLink
  split <;> simp [stateOf_endLink]

theorem stateOf_receive (item : Inbound) : (t.receive l item).1.stateOf id = t.stateOf id := by
  cases item with
  | message topic payload => exact stateOf_emit t _
  | ends => exact (stateOf_endLink _ l id).trans (stateOf_emit _ _)
  | fails f => exact stateOf_failLink t l id f

theorem stateOf_listen (items : List Inbound) : (t.listen l items).stateOf id = t.stateOf id := by
  induction items generalizing t with
  | nil => rfl
  | cons item rest ih =>
    have hreceive := stateOf_receive t { l with inbound := rest } id item
    unfold listen
    split
    · rename_i u hu
      rw [hu] at hreceive
      exact (ih u).trans hreceive
    · rename_i u hu
      rwa [hu] at hreceive

theorem stateOf_follow (items : List StreamItem) :
    (t.follow l items).stateOf id = t.stateOf id := by
  induction items generalizing t with
  | nil => exact stateOf_listen t _ id _
  | cons item rest ih =>
    unfold follow
    split_ifs
    · have hreceive := stateOf_receive t { l with stream := rest } id item.content
      split
      · rename_i u hu
        rw [hu] at hreceive
        exact (ih u).trans hreceive
      · rename_i u hu
        rwa [hu] at hreceive
    · simp only [stateOf, List.filter_append, List.filter_singleton, Alarm.concerns, cond_false,
        List.append_nil]
      rfl

theorem stateOf_entered : (t.entered l).stateOf id = t.stateOf id := by
  unfold entered
  split
  · exact stateOf_failLink t l id _
  · exact (stateOf_follow _ l id _).trans (stateOf_emit _ _)

theorem stateOf_startLink : (t.startLink l).stateOf id = t.stateOf id := by
  unfold startLink
  split
  · exact stateOf_entered t l id
  · exact stateOf_setTimer_of_other _ _ rfl
  · rfl

theorem stateOf_runLink : t.runLink.stateOf id = t.stateOf id := by
  unfold runLink
  split
  · rfl
  · rename_i l _
    split_ifs
    · exact stateOf_endLink t l id
    · split
      · exact stateOf_startLink t l id
      · exact stateOf_entered t l id
      · exact stateOf_follow t l id _
      · exact stateOf_listen t l id _
      · rfl

theorem stateOf_arrive (item : Inbound) : (t.arrive item).stateOf id = t.stateOf id := by
  unfold arrive
  split
  · rfl
  · dsimp only
    split_ifs
    · exact stateOf_enqueue _ rfl
    · rfl

theorem stateOf_connect (c : Connection) (script : Script) :
    (t.connect c script).1.stateOf id = t.stateOf id := by
  unfold connect
  repeat' split
  all_goals first | rfl | exact stateOf_log t _ | skip
  exact (stateOf_enqueue _ rfl).trans (stateOf_built t _)

end Link

section Others

variable (t : Transport) {n id : Nat} {op : Operation}

theorem stateOf_callDirectly_of_other (h : op.id ≠ id) (attempt : Int) :
    (t.callDirectly op attempt).stateOf id = t.stateOf id := by
  have hcalled := stateOf_called_of_other t h op.task.call
  have halarm : (Alarm.operation op.id).concerns id = false := decide_eq_false h
  unfold callDirectly
  split
  · exact (stateOf_settle_of_other _ h _ _).trans hcalled
  · rw [stateOf_setTimer_of_other _ _ halarm, stateOf_updateOperation_of_other, hcalled]
    exact h
  · rw [stateOf_updateOperation_of_other, hcalled]
    exact h

theorem stateOf_callGuarded_of_other (h : op.id ≠ id) (attempt : Int) :
    (t.callGuarded op attempt).stateOf id = t.stateOf id := by
  have hcall : (Job.call op.id).concerns id = false := decide_eq_false h
  have hlimit : (Alarm.limit op.id).concerns id = false := decide_eq_false h
  unfold callGuarded
  split
  · rw [stateOf_enqueue _ hcall, stateOf_updateOperation_of_other]
    exact h
  · rw [stateOf_enqueue _ hcall, stateOf_setTimer_of_other _ _ hlimit,
      stateOf_updateOperation_of_other]
    exact h

theorem stateOf_startOperation_of_other (h : op.id ≠ id) :
    (t.startOperation op).stateOf id = t.stateOf id := by
  unfold startOperation
  split
  · exact stateOf_callDirectly_of_other t h 0
  · dsimp only
    split_ifs
    · exact stateOf_callDirectly_of_other _ h _
    · exact stateOf_callGuarded_of_other _ h _

theorem stateOf_giveUp_of_other (h : op.id ≠ id) (attempt : Int) (call : GuardedCall)
    (why : GivenUp) : (t.giveUp op attempt call why).stateOf id = t.stateOf id := by
  have hcall : (Job.call op.id).concerns id = false := decide_eq_false h
  have halarm : (Alarm.call op.id).concerns id = false := decide_eq_false h
  have hlimit : (Alarm.limit op.id).concerns id = false := decide_eq_false h
  unfold giveUp cancelCall
  dsimp only
  split_ifs
  · rw [stateOf_updateOperation_of_other, stateOf_enqueue _ hcall,
      stateOf_dropTimer_of_other _ halarm, stateOf_dropTimer_of_other _ hlimit]
    exact h
  · rw [stateOf_updateOperation_of_other, stateOf_dropTimer_of_other _ hlimit]
    exact h

theorem id_of_operation? (h : t.operation? n = some op) : op.id = n := by
  simpa using List.find?_some h

theorem stateOf_runOperation_of_other (h : n ≠ id) :
    (t.runOperation n).stateOf id = t.stateOf id := by
  unfold runOperation
  split
  · rfl
  · rename_i op hop
    have hid : op.id ≠ id := (id_of_operation? t hop).trans_ne h
    have hlimit : (Alarm.limit n).concerns id = false := decide_eq_false h
    split
    · split_ifs
      · exact stateOf_endOperation_of_other t hid _
      · exact stateOf_startOperation_of_other t hid
    · split_ifs
      · exact stateOf_endOperation_of_other t hid _
      · exact stateOf_settle_of_other t hid _ _
    · split
      · exact (stateOf_settle_of_other _ hid _ _).trans (stateOf_dropTimer_of_other t hlimit)
      · exact stateOf_giveUp_of_other t hid _ _ _
    · split_ifs
      · exact stateOf_endOperation_of_other t hid _
      · exact stateOf_settle_of_other t hid _ _

theorem stateOf_endCall_of_other (h : op.id ≠ id) (call : GuardedCall) (ending : Ending) :
    (t.endCall op call ending).stateOf id = t.stateOf id := by
  have hended : (Job.callEnded op.id).concerns id = false := decide_eq_false h
  have hkeeps (op' : Operation) (hid : op'.id = op.id) :
      ((t.updateOperation op').enqueue (.callEnded op.id)).stateOf id = t.stateOf id := by
    rw [stateOf_enqueue _ hended, stateOf_updateOperation_of_other _ (hid.trans_ne h)]
  unfold endCall
  dsimp only
  split
  · split_ifs <;> exact hkeeps _ rfl
  · exact hkeeps _ rfl

theorem stateOf_runCall_of_other (h : n ≠ id) : (t.runCall n).stateOf id = t.stateOf id := by
  unfold runCall
  split
  · rfl
  · rename_i op hop
    have hid : op.id ≠ id := (id_of_operation? t hop).trans_ne h
    have halarm : (Alarm.call n).concerns id = false := decide_eq_false h
    split
    · rfl
    · split
      · rfl
      · split_ifs
        · exact stateOf_endCall_of_other t hid _ _
        · dsimp only
          split
          · exact (stateOf_endCall_of_other _ hid _ _).trans (stateOf_called_of_other t h _)
          · rw [stateOf_setTimer_of_other _ _ halarm, stateOf_updateOperation_of_other,
              stateOf_called_of_other _ h]
            exact hid
          · rw [stateOf_updateOperation_of_other, stateOf_called_of_other _ h]
            exact hid
      · exact stateOf_endCall_of_other t hid _ _

theorem stateOf_countEnded : t.countEnded.stateOf id = t.stateOf id := by
  unfold countEnded
  dsimp only
  split_ifs
  · exact stateOf_enqueue _ rfl
  · rfl

theorem stateOf_runJob_of_other {job : Job} (h : job.concerns id = false) :
    (t.runJob job).stateOf id = t.stateOf id := by
  cases job with
  | host => rfl
  | link => exact stateOf_runLink t id
  | operation n => exact stateOf_runOperation_of_other t (of_decide_eq_false h)
  | call n => exact stateOf_runCall_of_other t (of_decide_eq_false h)
  | callEnded n => exact stateOf_wakeOperation_of_other t (of_decide_eq_false h)
  | taskEnded => exact stateOf_countEnded t
  | signal name => rfl

theorem stateOf_ring_of_other {alarm : Alarm} (h : alarm.concerns id = false) :
    (t.ring alarm).stateOf id = t.stateOf id := by
  cases alarm with
  | link => exact stateOf_enqueue t rfl
  | operation n => exact stateOf_wakeOperation_of_other t (of_decide_eq_false h)
  | call n => exact stateOf_enqueue t h
  | limit n => exact stateOf_wakeOperation_of_other t (of_decide_eq_false h)
  | signal name => exact stateOf_enqueue t rfl

theorem stateOf_spawn_of_other (h : t.nextId ≠ id) (task : Task) (reply : Reply) :
    (t.spawn task reply).stateOf id = t.stateOf id := by
  have hjob : (Job.operation t.nextId).concerns id = false := decide_eq_false h
  unfold spawn
  dsimp only
  rw [stateOf_enqueue _ hjob]
  simp only [stateOf, List.filter_append, List.filter_singleton, decide_eq_false h, cond_false,
    List.append_nil]
  rfl

theorem stateOf_sendSubscribe_of_other {topics : Subscription} {reply : Reply}
    (h : t.nextId = id → t.starts? (.subscribe topics reply) = none) :
    (t.sendSubscribe topics reply).1.stateOf id = t.stateOf id := by
  unfold sendSubscribe
  split_ifs with hc
  · refine stateOf_spawn_of_other t (fun hid => ?_) _ _
    simpa [starts?, sendSubscribe, hc] using h hid
  · exact stateOf_log t _

theorem stateOf_sendPublish_of_other {p : Publication} {chunk : List UInt8} {reply : Reply}
    (h : t.nextId = id → t.starts? (.publish p chunk reply) = none) :
    (t.sendPublish p chunk reply).1.stateOf id = t.stateOf id := by
  unfold sendPublish
  dsimp only
  split_ifs with hc ho hf hl
  · exact stateOf_log t _
  · exact stateOf_log _ _
  · rfl
  · exact stateOf_log _ _
  · refine stateOf_spawn_of_other _ (fun hid => ?_) _ _
    have hnone := h hid
    simp_all [starts?, sendPublish]

end Others

def Deed.concerns (id : Nat) : Deed → Bool
  | .job work => work.concerns id
  | .alarm timer => timer.alarm.concerns id
  | _ => false

section Deeds

variable (t : Transport) {id : Nat} {d : Deed}

theorem no_job_iff : (∀ job ∈ t.ready, job.concerns id = false) ↔
    (t.stateOf id).turns = 0 ∧ (t.stateOf id).callTurns = 0 ∧ (t.stateOf id).notices = 0 := by
  simp only [stateOf, List.count_eq_zero]
  constructor
  · intro h
    refine ⟨fun hmem => ?_, fun hmem => ?_, fun hmem => ?_⟩ <;>
      simpa [Job.concerns] using h _ hmem
  · rintro ⟨hturn, hcall, hnotice⟩ job hmem
    cases job with
    | operation n => simpa [Job.concerns] using fun h : n = id => hturn (h ▸ hmem)
    | call n => simpa [Job.concerns] using fun h : n = id => hcall (h ▸ hmem)
    | callEnded n => simpa [Job.concerns] using fun h : n = id => hnotice (h ▸ hmem)
    | _ => rfl

theorem no_timer_iff :
    (∀ timer ∈ t.timers, timer.alarm.concerns id = false) ↔ (t.stateOf id).timers = [] := by
  simp [stateOf, List.filter_eq_nil_iff]

theorem ring_now (alarm : Alarm) : (t.ring alarm).now = t.now := by
  have hwakes (n : Nat) : (t.wakeOperation n).now = t.now := by
    unfold wakeOperation
    split_ifs <;> rfl
  cases alarm with
  | operation n => exact hwakes n
  | limit n => exact hwakes n
  | _ => rfl

theorem fire_now (timer : Timer) :
    (t.fire timer).now = if t.now.le timer.due then timer.due else t.now := ring_now _ _

theorem le_fire_now (timer : Timer) : t.now.le (t.fire timer).now := by
  rw [fire_now]
  split_ifs with h
  · exact h
  · cases t.now <;> simp [Instant.le]

theorem stateOf_fire_of_other {timer : Timer} (h : timer.alarm.concerns id = false) :
    (t.fire timer).stateOf id = { t.stateOf id with now := (t.fire timer).now } := by
  have htimers : (t.timers.erase timer).filter (·.alarm.concerns id) =
      t.timers.filter (·.alarm.concerns id) := by
    rw [← List.erase_filter, List.erase_of_not_mem]
    intro hmem
    cases h.symm.trans (List.mem_filter.1 hmem).2
  rw [fire_now]
  refine (stateOf_ring_of_other _ h).trans ?_
  simp only [stateOf, htimers]
  rfl

/-- A deed that does not concern an operation changes nothing for it but the clock. -/
theorem stateOf_perform (hd : d.concerns id = false) (hclose : d ≠ .beginClose)
    (hid : t.nextId = id → t.starts? d = none) :
    (t.perform d).stateOf id = t.stateOf id ∨ ∃ timer ∈ t.timers, d = .alarm timer ∧
      (t.perform d).stateOf id = { t.stateOf id with now := (t.fire timer).now } := by
  cases d with
  | connect c script => exact .inl (stateOf_connect t id c script)
  | subscribe topics reply => exact .inl (stateOf_sendSubscribe_of_other t hid)
  | publish p chunk reply => exact .inl (stateOf_sendPublish_of_other t hid)
  | requestWrite => exact .inl (stateOf_emit t _)
  | cancelService => exact .inl (stateOf_emit t _)
  | log entry => exact .inl (stateOf_log t entry)
  | take => exact .inl rfl
  | await waits => exact .inl rfl
  | arrive item => exact .inl (stateOf_arrive t id item)
  | job job =>
    refine .inl ?_
    show (if job ∈ t.ready then { t with ready := t.ready.erase job }.runJob job else t).stateOf id
      = t.stateOf id
    split_ifs
    · exact (stateOf_runJob_of_other _ hd).trans (stateOf_erase t hd)
    · rfl
  | alarm timer =>
    by_cases htimer : timer ∈ t.timers
    · exact .inr ⟨timer, htimer, rfl, by rw [perform, if_pos htimer, stateOf_fire_of_other t hd]⟩
    · exact .inl (by rw [perform, if_neg htimer])
  | beginClose => exact absurd rfl hclose
  | finishClose => exact .inl (stateOf_log _ _)
  | recover =>
    refine .inl (stateOf_ready t id fun job hjob => List.count_filter ?_)
    cases job <;> simp_all [Job.concerns]

end Deeds

end Transport

end BrokerTrial

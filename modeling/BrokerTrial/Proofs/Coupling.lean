import BrokerTrial.Proofs.Simulation

/-! The session and the transport in step. `Coupled` ties the stage of the session to the events in
the queue, to the operations under way and to the bytes that were collected. Background work keeps
it (`Coupled.change`), and so does each of the few things that a session does. -/

namespace BrokerTrial

/-- A chunk together with its place in the payload. -/
structure Chunker.Piece (c : Chunker) (position : Int) (chunk : Chunk) : Prop where
  nonneg : 0 ≤ position
  le_total : position + chunk.data.length ≤ c.total
  joins : c.payload.take position.toNat ++ chunk.data =
    c.payload.take (position + chunk.data.length).toNat
  final_iff : chunk.final = true ↔ position + chunk.data.length = c.total

theorem Chunker.piece_of_chunkAt {c : Chunker} {position : Int} {chunk : Chunk}
    (h : c.chunkAt position = .ok chunk) : c.Piece position chunk := by
  unfold chunkAt at h
  split_ifs at h with hin
  obtain ⟨h0, ht⟩ := hin
  obtain ⟨n, rfl⟩ := Int.eq_ofNat_of_zero_le h0
  rw [Int.toNat_natCast] at h
  obtain rfl := Except.ok.inj h
  have hn : n < c.payload.length := by simpa [total] using ht
  have hlen : (cut c.size (c.payload.drop n)).data.length = min c.size (c.payload.length - n) := by
    simp [cut]
  have hpos := c.size_pos
  refine ⟨h0, ?_, ?_, ?_⟩
  · rw [hlen, total]
    omega
  · have hto : ((n : Int) + ((min c.size (c.payload.length - n) : Nat) : Int)).toNat =
        n + min c.size (c.payload.length - n) := by omega
    have hdata : (cut c.size (c.payload.drop n)).data =
        (c.payload.drop n).take (min c.size (c.payload.length - n)) := by
      rw [← List.length_drop]
      exact List.take_eq_take_min
    rw [hlen, hto, hdata, Int.toNat_natCast, List.take_add]
  · rw [hlen, total, cut, List.isEmpty_iff, List.drop_drop, List.drop_eq_nil_iff]
    omega

def Event.ofWorkflow : Event → Bool
  | .connectionEstablished | .writeOpportunity | .subscribed | .acknowledged
  | .resendRequested _ => true
  | _ => false

def Session.awaited? (plan : Session.Plan) (s : Session) : Option Task :=
  match s.stage with
  | .subscribe => if s.subscribePending then some (.subscribe plan.topics) else none
  | .waitAck0 => some (.publish plan.publishTopic 0 plan.chunker.payload)
  | .waitAck1 => some (.publish plan.publishTopic 1 plan.chunker.payload)
  | _ => none

theorem Session.payload_of_awaited {plan : Session.Plan} {s : Session} {topic : Value} {qos : Int}
    {payload : List UInt8} (h : s.awaited? plan = some (.publish topic qos payload)) :
    payload = plan.chunker.payload := by
  unfold awaited? at h
  split at h
  · split_ifs at h
    cases h
  · cases h
    rfl
  · cases h
    rfl
  · cases h

theorem Session.topics_of_awaited {plan : Session.Plan} {s : Session} {topics : Subscription}
    (h : s.awaited? plan = some (.subscribe topics)) : topics = plan.topics := by
  unfold awaited? at h
  split at h
  · split_ifs at h
    cases h
    rfl
  · cases h
  · cases h
  · cases h

/-- Behind the last chunk of a publish, the session waits for that publish. -/
theorem Session.awaited_of_publish {plan : Session.Plan} {s : Session} {stage : Stage} {qos : Int}
    (hq : stage.publishQos? = some qos) (hnext : stage.next? .advance = some s.stage) :
    s.awaited? plan = some (.publish plan.publishTopic qos plan.chunker.payload) := by
  unfold awaited?
  cases stage <;> simp_all [Stage.publishQos?, Stage.next?]
  all_goals rw [← hnext]

def Session.writes (s : Session) : Bool :=
  match s.stage with
  | .subscribe => !s.subscribePending
  | .publishQos0 | .publishQos1 => true
  | _ => false

theorem Session.awaited_of_writes {s : Session} (h : s.writes = true) (plan : Session.Plan) :
    s.awaited? plan = none := by
  unfold writes at h
  unfold awaited?
  cases hs : s.stage <;> simp_all

theorem Session.not_pending_of_writes {s : Session} (h : s.writes = true)
    (hs : s.stage = .subscribe) : s.subscribePending = false := by
  simpa [writes, hs] using h

def Event.Timely (s : Session) : Event → Prop
  | .connectionEstablished | .writeOpportunity => s.writes = true
  | .subscribed => s.stage = .subscribe ∧ s.subscribePending = true
  | .acknowledged | .resendRequested _ => s.stage = .waitAck0 ∨ s.stage = .waitAck1
  | _ => True

theorem Event.timely_of_not_ofWorkflow {e : Event} (h : e.ofWorkflow = false) (s : Session) :
    e.Timely s := by
  cases e <;> trivial

namespace Transport.View

/-- How many events that move the workflow on are there or still to come from an operation. -/
def outstanding (v : View) : Nat := v.events.countP Event.ofWorkflow + v.operations.length

@[simp] theorem outstanding_emit (v : View) (events : List Event) :
    (v.emit events).outstanding = v.outstanding + events.countP Event.ofWorkflow := by
  simp only [outstanding, emit, List.countP_append]
  omega

@[simp] theorem outstanding_record (v : View) (marks : List Mark) :
    (v.record marks).outstanding = v.outstanding := rfl

@[simp] theorem outstanding_replace (v : View) (op : Operation) :
    (v.replace op).outstanding = v.outstanding := by simp [outstanding, replace]

@[simp] theorem outstanding_withLink (v : View) (l : Link) :
    (v.withLink l).outstanding = v.outstanding := rfl

@[simp] theorem outstanding_start (v : View) (id : Nat) (task : Task) (reply : Reply) :
    (v.start id task reply).outstanding = v.outstanding + 1 := by
  simp [outstanding, start, Nat.add_assoc]

theorem outstanding_remove {v : View} {op : Operation} (h : op ∈ v.operations) :
    (v.remove op.id).outstanding + 1 ≤ v.outstanding := by
  have hlt : (v.operations.filter (·.id ≠ op.id)).length < v.operations.length :=
    List.length_filter_lt_length_iff_exists.2 ⟨op, h, by simp⟩
  simp only [outstanding, remove]
  omega

theorem outstanding_eq_zero {v : View} (h : v.outstanding = 0) :
    v.operations = [] ∧ ∀ e ∈ v.events, e.ofWorkflow = false := by
  obtain ⟨hevents, hops⟩ := Nat.add_eq_zero_iff.1 h
  refine ⟨List.length_eq_zero_iff.1 hops, fun e he => ?_⟩
  simpa using List.countP_eq_zero.1 hevents e he

def Unlinked (v : View) : Prop := ∀ l, v.link = some l → l.phase.opening

end Transport.View

open Transport (View)

/-- The session and the transport in step. -/
structure Coupled (plan : Session.Plan) (s : Session) (v : View) : Prop where
  at_most_one : v.outstanding ≤ 1
  timely : ∀ e ∈ v.events, e.Timely s
  tasks : ∀ op ∈ v.operations, s.awaited? plan = some op.task
  nonneg : 0 ≤ s.position
  inside : s.position < plan.chunker.total
  at_start : s.stage.publishQos? = none → s.position = 0
  collected : v.outgoing = plan.chunker.payload.take s.position.toNat
  whole : ∀ id topic qos data, .called id (.publish topic qos data) ∈ v.history →
    data = plan.chunker.payload
  up : ∀ l, v.link = some l → l.phase.up → v.connected = true

/-- What an operation reports is about the task that the session waits for. -/
theorem Operation.report_timely {plan : Session.Plan} {s : Session} {op : Operation}
    (h : s.awaited? plan = some op.task) (attempt : Int) (ending : Ending) :
    (op.report attempt ending).length ≤ 1 ∧ ∀ e ∈ op.report attempt ending, e.Timely s := by
  unfold Session.awaited? at h
  cases ht : op.task with
  | subscribe topics =>
    rw [ht] at h
    have hs : s.stage = .subscribe ∧ s.subscribePending = true := by
      split at h <;> simp_all
    rcases subscribeReport_cases topics op.reply.granted ending with
      hr | ⟨-, -, hr⟩ | ⟨message, hr⟩ <;>
    · rw [report_of_subscribe ht, hr]
      simp [Event.Timely, hs]
  | publish topic qos payload =>
    rw [ht] at h
    have hs : s.stage = .waitAck0 ∨ s.stage = .waitAck1 := by
      split at h <;> simp_all
    rcases publishReport_cases attempt ending with
      hr | ⟨-, hr⟩ | ⟨message, -, hr⟩ | ⟨message, hr⟩ <;>
    · rw [report_of_publish ht, hr]
      simp [Event.Timely, hs]

namespace Coupled

variable {plan : Session.Plan} {s : Session} {v : View}

theorem record (h : Coupled plan s v) {marks : List Mark}
    (hm : ∀ id call, .called id call ∈ marks → ∃ op ∈ v.operations, call = op.task.call) :
    Coupled plan s (v.record marks) := by
  refine { h with whole := ?_ }
  intro id topic qos data hcall
  rcases List.mem_append.1 hcall with hold | hnew
  · exact h.whole id topic qos data hold
  · obtain ⟨op, hop, hcall⟩ := hm id _ hnew
    have htask := h.tasks op hop
    cases ht : op.task with
    | subscribe topics => simp [ht, Task.call] at hcall
    | publish topic' qos' payload =>
      rw [ht] at hcall htask
      obtain ⟨-, -, rfl⟩ := ClientCall.publish.inj hcall
      exact Session.payload_of_awaited htask

/-- What happens in the queue beside the workflow does not matter. -/
theorem emit_other (h : Coupled plan s v) {events : List Event}
    (he : ∀ e ∈ events, e.ofWorkflow = false) : Coupled plan s (v.emit events) := by
  refine { h with at_most_one := ?_, timely := ?_ }
  · have hcount : events.countP Event.ofWorkflow = 0 :=
      List.countP_eq_zero.2 fun e hmem => by simp [he e hmem]
    rw [View.outstanding_emit, hcount]
    exact h.at_most_one
  · intro e hmem
    rcases List.mem_append.1 hmem with hold | hnew
    · exact h.timely e hold
    · exact Event.timely_of_not_ofWorkflow (he e hnew) s

theorem emit (h : Coupled plan s v) (h0 : v.outstanding = 0) {events : List Event}
    (hlen : events.length ≤ 1) (he : ∀ e ∈ events, e.Timely s) :
    Coupled plan s (v.emit events) := by
  refine { h with at_most_one := ?_, timely := ?_ }
  · rw [View.outstanding_emit, h0, Nat.zero_add]
    exact List.countP_le_length.trans hlen
  · intro e hmem
    rcases List.mem_append.1 hmem with hold | hnew
    · exact h.timely e hold
    · exact he e hnew

theorem write (h : Coupled plan s v) (h0 : v.outstanding = 0) (hw : s.writes = true) :
    Coupled plan s (v.emit [.writeOpportunity]) :=
  h.emit h0 le_rfl fun e he => by rwa [List.mem_singleton.1 he]

theorem cancel (h : Coupled plan s v) : Coupled plan s (v.emit [.serviceCancelled]) :=
  h.emit_other fun e he => by rw [List.mem_singleton.1 he]; rfl

theorem start (h : Coupled plan s v) (h0 : v.outstanding = 0) {task : Task}
    (ht : s.awaited? plan = some task) (id : Nat) (reply : Reply) :
    Coupled plan s (v.start id task reply) := by
  refine { h with at_most_one := ?_, tasks := ?_ }
  · rw [View.outstanding_start, h0]
  · intro op hop
    rcases List.mem_append.1 hop with hold | hnew
    · exact h.tasks op hold
    · rw [List.mem_singleton.1 hnew]
      exact ht

theorem replace (h : Coupled plan s v) {op op' : Operation} (hop : op ∈ v.operations)
    (ht : op'.task = op.task) : Coupled plan s (v.replace op') := by
  refine { h with at_most_one := ?_, tasks := ?_ }
  · rw [View.outstanding_replace]
    exact h.at_most_one
  · intro o ho
    obtain ⟨p, hp, rfl⟩ := List.mem_map.1 ho
    split_ifs
    · rw [ht]
      exact h.tasks op hop
    · exact h.tasks p hp

theorem remove (h : Coupled plan s v) {op : Operation} (hop : op ∈ v.operations) :
    Coupled plan s (v.remove op.id) ∧ (v.remove op.id).outstanding = 0 := by
  have hcount := View.outstanding_remove hop
  have h1 := h.at_most_one
  refine ⟨{ h with at_most_one := by omega, tasks := ?_ }, by omega⟩
  intro o ho
  exact h.tasks o (List.mem_of_mem_filter ho)

theorem withLink (h : Coupled plan s v) {l : Link} (hl : l.phase.up → v.connected = true) :
    Coupled plan s (v.withLink l) := by
  refine { h with up := ?_ }
  intro l' hl' hup
  obtain rfl := Option.some.inj hl'
  exact hl hup

theorem cut (h : Coupled plan s v) {l : Link} (hl : l.phase = .ended) :
    Coupled plan s (v.cut l) := by
  refine { h with up := ?_ }
  intro l' hl' hup
  obtain rfl := Option.some.inj hl'
  simp [hl, LinkPhase.up] at hup

/-- Besides an operation under way, there is nothing outstanding. -/
theorem only (h : Coupled plan s v) {op : Operation} (hop : op ∈ v.operations) :
    v.operations = [op] ∧ ∀ e ∈ v.events, e.ofWorkflow = false := by
  have hcount := h.at_most_one
  have hpos := List.length_pos_of_mem hop
  unfold View.outstanding at hcount
  refine ⟨?_, ?_⟩
  · obtain ⟨o, ho⟩ := List.length_eq_one_iff.1 (show v.operations.length = 1 by omega)
    rw [ho] at hop ⊢
    rw [List.mem_singleton.1 hop]
  · intro e he
    have hnone : v.events.countP Event.ofWorkflow = 0 := by omega
    simpa using List.countP_eq_zero.1 hnone e he

theorem unlink (h : Coupled plan s v) : Coupled plan s { v with link := none } := by
  refine { h with up := ?_ }
  intro l hl
  cases hl

theorem taken (h : Coupled plan s v) {e : Event} {rest : List Event} (he : v.events = e :: rest) :
    Coupled plan s { v with events := rest } := by
  have hcount : ({ v with events := rest } : View).outstanding ≤ v.outstanding := by
    simp only [View.outstanding, he, List.countP_cons]
    omega
  refine { h with at_most_one := hcount.trans h.at_most_one, timely := ?_ }
  intro e' hmem
  exact h.timely e' (by rw [he]; exact List.mem_cons_of_mem e hmem)

theorem taken_outstanding (h : Coupled plan s v) {e : Event} {rest : List Event}
    (he : v.events = e :: rest) (hw : e.ofWorkflow = true) :
    ({ v with events := rest } : View).outstanding = 0 := by
  have h1 := h.at_most_one
  simp only [View.outstanding, he, List.countP_cons, hw, if_true] at h1 ⊢
  omega

theorem move (h : Coupled plan s v) (h0 : v.outstanding = 0) {s' : Session}
    {outgoing : List UInt8} (hnonneg : 0 ≤ s'.position)
    (hinside : s'.position < plan.chunker.total)
    (hstart : s'.stage.publishQos? = none → s'.position = 0)
    (hcollected : outgoing = plan.chunker.payload.take s'.position.toNat) :
    Coupled plan s' { v with outgoing } := by
  obtain ⟨hops, hevents⟩ := View.outstanding_eq_zero h0
  refine ⟨h.at_most_one, ?_, ?_, hnonneg, hinside, hstart, hcollected, h.whole, h.up⟩
  · intro e hmem
    exact Event.timely_of_not_ofWorkflow (hevents e hmem) s'
  · intro op hop
    simp [hops] at hop

theorem move_stage (h : Coupled plan s v) (h0 : v.outstanding = 0) {s' : Session}
    (hpos : s'.position = s.position) (hstart : s'.stage.publishQos? = none → s.position = 0) :
    Coupled plan s' v := by
  have hcollected : v.outgoing = plan.chunker.payload.take s'.position.toNat := by
    rw [hpos]
    exact h.collected
  refine h.move h0 ?_ ?_ ?_ hcollected
  · exact hpos ▸ h.nonneg
  · exact hpos ▸ h.inside
  · exact hpos ▸ hstart

/-- Background work keeps session and transport in step, as long as the session has not started
before the connection has come up. -/
theorem change (h : Coupled plan s v) (hu : v.Unlinked → s = {} ∧ v.outstanding = 0) {w : View}
    (hc : v.Change w) : Coupled plan s w ∧ (w.Unlinked → s = {} ∧ w.outstanding = 0) := by
  cases hc with
  | act hop hact =>
    rename_i op op' marks
    refine ⟨(h.replace hop hact.task_eq).record fun id call hm => ?_, fun hw => ?_⟩
    · refine ⟨op', View.mem_replace hop hact.id_eq.symm, ?_⟩
      rw [hact.task_eq]
      exact hact.call_eq hm
    · simpa using hu hw
  | ends hop hends =>
    rename_i op attempt ending
    obtain ⟨hremove, h0⟩ := h.remove hop
    obtain ⟨hlen, htimely⟩ := Operation.report_timely (h.tasks op hop) attempt ending
    have hrecord : Coupled plan s ((v.remove op.id).record [.ended op.id ending]) :=
      hremove.record (by simp)
    refine ⟨hrecord.emit h0 hlen htimely, fun hw => ?_⟩
    have hnone := (View.outstanding_eq_zero (hu hw).2).1
    simp [hnone] at hop
  | connecting hl hp =>
    refine ⟨h.withLink nofun, fun _ => ?_⟩
    refine hu fun l' hl' => ?_
    obtain rfl := Option.some.inj (hl.symm.trans hl')
    rw [hp]
    rfl
  | established hl ho hcancelled hfault hup =>
    rename_i l l'
    have hv : v.Unlinked := by
      intro k hk
      obtain rfl := Option.some.inj (hl.symm.trans hk)
      exact ho
    obtain ⟨rfl, h0⟩ := hu hv
    have hconnected : Coupled plan {} { v.withLink l' with connected := true } :=
      { h with up := fun _ _ _ => rfl }
    have htimely : ∀ e ∈ [Event.connectionEstablished], e.Timely {} := by
      simp [Event.Timely, Session.writes]
    refine ⟨hconnected.emit h0 le_rfl htimely, fun hw => ?_⟩
    exact absurd (hw l' rfl) (LinkPhase.not_opening_of_up hup)
  | message topic payload hl hup =>
    refine ⟨h.emit_other (by simp [Event.ofWorkflow]), fun hw => ?_⟩
    simpa [Event.ofWorkflow] using hu hw
  | parked hl hup hup' =>
    refine ⟨h.withLink fun _ => h.up _ hl hup, fun hw => ?_⟩
    exact absurd (hw _ rfl) (LinkPhase.not_opening_of_up hup')
  | failed message hl hp =>
    refine ⟨(h.cut hp).emit_other (by simp [Event.ofWorkflow]), fun hw => ?_⟩
    exact absurd (hw _ rfl) (LinkPhase.not_opening_of_ended hp)
  | closed hl hup hp =>
    refine ⟨(h.cut hp).emit_other (by simp [Event.ofWorkflow]), fun hw => ?_⟩
    exact absurd (hw _ rfl) (LinkPhase.not_opening_of_ended hp)
  | stopped hl hp _ =>
    refine ⟨h.cut hp, fun hw => ?_⟩
    exact absurd (hw _ rfl) (LinkPhase.not_opening_of_ended hp)

theorem cancelled (h : Coupled plan s v) {w : View} (hw : v.Cancelled w) : Coupled plan s w := by
  obtain ⟨hlen, hops, hlink, hothers⟩ := hw
  have hevents : w.events = v.events := by rw [hothers]
  have hhistory : w.history = v.history := by rw [hothers]
  have hconnected : w.connected = v.connected := by rw [hothers]
  have hcount : w.outstanding = v.outstanding := by rw [View.outstanding, hlen, hevents]; rfl
  refine ⟨hcount.trans_le h.at_most_one, hevents ▸ h.timely, ?_, h.nonneg, h.inside, h.at_start,
    ?_, hhistory ▸ h.whole, ?_⟩
  · intro op hop
    obtain ⟨o, ho, rfl | rfl⟩ := hops op hop
    · exact h.tasks op ho
    · exact h.tasks o ho
  · rw [hothers]
    exact h.collected
  · intro l hl hup
    rw [hconnected]
    rcases hlink with hsame | ⟨l', hl', hcancelled⟩
    · exact h.up l (hsame ▸ hl) hup
    · obtain rfl := Option.some.inj (hcancelled.symm.trans hl)
      exact h.up l' hl' hup

/-- What the session writes is taken as long as the connection is there. -/
theorem accepts_publish (h : Coupled plan s v) {chunk : Chunk}
    (hc : plan.chunker.chunkAt s.position = .ok chunk) (topic : Value) (qos : Int) :
    v.accepts (.publish ⟨topic, qos, plan.chunker.total, chunk.final⟩ chunk.data) =
      v.connected := by
  have hp := Chunker.piece_of_chunkAt hc
  have hpos := h.nonneg
  have hin := h.inside
  have hle := hp.le_total
  have hlen : (v.outgoing.length : Int) = s.position := by
    rw [h.collected, List.length_take]
    simp only [Chunker.total] at hin
    omega
  cases hf : chunk.final with
  | true =>
    have hend := hp.final_iff.1 hf
    simp [View.accepts, hlen, hend]
  | false => simp [View.accepts, hlen, hle]

theorem accepts_events (v : View) (events : List Event) (r : Request) :
    ({ v with events } : View).accepts r = v.accepts r := by
  cases r <;> rfl

end Coupled

end BrokerTrial

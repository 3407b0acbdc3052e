import BrokerTrial.Proofs.Simulation

/-! A transport in use. A `Deed` is one thing that happens to it: a request, a turn of its host, a
job or a timer. Jobs and timers come in any order, so a course of deeds (`Course`) is any
interleaving of the tasks with each other and with the host. `perform_performs` says what a deed can
do, and `Course.fifo` that the host takes what is queued in the order in which it is said. -/

namespace BrokerTrial

namespace Link

/-- A link that was told to stop; one that has ended does not hear it. -/
def told (l : Link) : Link := if l.phase = .ended then l else { l with cancelled := true }

def joined (l : Link) (item : Inbound) : Link := { l with inbound := l.inbound ++ [item] }

end Link

namespace Transport

/-- One thing that happens to a transport. -/
inductive Deed
  | connect (c : Connection) (script : Script)
  | subscribe (topics : Subscription) (reply : Reply)
  | publish (p : Publication) (chunk : List UInt8) (reply : Reply)
  | requestWrite
  | cancelService
  | log (entry : Log.Entry)
  /-- The host takes the next event. -/
  | take
  /-- The host begins to wait for an event, or it no longer does. -/
  | await (waits : Bool)
  /-- The client receives something out of turn. -/
  | arrive (item : Inbound)
  | job (job : Job)
  | alarm (timer : Timer)
  | beginClose
  | finishClose
  /-- The host lets a fault pass that no task caught. -/
  | recover

/-- A job runs if it is ready, and a timer rings if it is set. -/
def perform (t : Transport) : Deed → Transport
  | .connect c script => (t.connect c script).1
  | .subscribe topics reply => (t.sendSubscribe topics reply).1
  | .publish p chunk reply => (t.sendPublish p chunk reply).1
  | .requestWrite => t.requestWrite
  | .cancelService => t.cancelService
  | .log entry => t.log entry
  | .take => { t with events := t.events.tail }
  | .await waits => { t with hostWaits := waits }
  | .arrive item => t.arrive item
  | .job job => if job ∈ t.ready then { t with ready := t.ready.erase job }.runJob job else t
  | .alarm timer => if timer ∈ t.timers then t.fire timer else t
  | .beginClose => t.beginClose
  | .finishClose => t.finishClose
  | .recover => { t with breakdown := none, ready := t.ready.filter (· ≠ .host) }

def Deed.source : Deed → Source
  | .job work => work.source
  | _ => .host

/-- What the host itself puts on the queue. -/
def Deed.word? : Deed → Option Event
  | .requestWrite => some .writeOpportunity
  | .cancelService => some .serviceCancelled
  | _ => none

def Deed.offers : Deed → List Inbound
  | .arrive item => [item]
  | _ => []

theorem Deed.source_of_word? {d : Deed} {e : Event} (h : d.word? = some e) : d.source = .host := by
  cases d <;> first | rfl | cases h

/-- The task that a request starts: a subscription that is accepted, or a publish whose last chunk
is. -/
def starts? (t : Transport) : Deed → Option (Task × Reply)
  | .subscribe topics reply =>
    if (t.sendSubscribe topics reply).2 then some (.subscribe topics, reply) else none
  | .publish p chunk reply =>
    if (t.sendPublish p chunk reply).2 && p.final then
      some (.publish p.topic p.qos (t.outgoing ++ chunk), reply)
    else none
  | _ => none

theorem starts?_of_word? {t : Transport} {d : Deed} {e : Event} (h : d.word? = some e) :
    t.starts? d = none := by
  cases d <;> first | rfl | cases h

structure Transition where
  before : Transport
  deed : Deed
  after : Transport

def Transition.said (m : Transition) : List Event :=
  match m.deed with
  | .take => []
  | _ => m.after.events.drop m.before.events.length

def Transition.taken (m : Transition) : List Event :=
  match m.deed with
  | .take => m.before.events.take 1
  | _ => []

def Transition.punctual (m : Transition) : Bool :=
  match m.deed with
  | .alarm timer => m.before.ready = [] ∧ m.before.nextTimer? = some timer
  | _ => true

theorem Transition.of_punctual {m : Transition} {timer : Timer} (h : m.punctual)
    (hd : m.deed = .alarm timer) : m.before.ready = [] ∧ m.before.nextTimer? = some timer := by
  simpa [punctual, hd] using h

/-- What happens to a transport, deed after deed. -/
inductive Course (start : Transport) : List Transition → Transport → Prop
  | nil : Course start [] start
  | snoc {course : List Transition} {t : Transport} (d : Deed) : Course start course t →
      Course start (course ++ [⟨t, d, t.perform d⟩]) (t.perform d)

def transitions (start : Transport) : List Deed → List Transition
  | [] => []
  | d :: rest => ⟨start, d, start.perform d⟩ :: transitions (start.perform d) rest

/-- The clock only jumps when nothing is ready, and then to the next timer. -/
def Punctual (course : List Transition) : Prop := ∀ m ∈ course, m.punctual

theorem Punctual.append {first rest : List Transition} (h : Punctual first) (h' : Punctual rest) :
    Punctual (first ++ rest) := fun m hm => (List.mem_append.1 hm).elim (h m) (h' m)

def saidBy (source : Source) (course : List Transition) : List Event :=
  course.flatMap fun m => if m.deed.source = source then m.said else []

/-- What it has become of a transport, as far as its tasks are concerned. -/
structure Becomes (t u : Transport) (view : View) : Prop where
  view_eq : u.view = view
  nextId_eq : u.nextId = t.nextId
  lastAttempt_eq : u.lastAttempt = t.lastAttempt

/-- All that a deed can do. -/
inductive Performs (t : Transport) : Deed → List Event → Transport → Prop
  | works {job : Job} {said : List Event} {u : Transport} :
      t.ledger.Works job.source said u.ledger → Performs t (.job job) said u
  | rests {d : Deed} {u : Transport} (outgoing : List UInt8) : d ≠ .take → t.starts? d = none →
      d.offers = [] → t.Becomes u { t.view with outgoing } → Performs t d [] u
  | speaks {d : Deed} {e : Event} {u : Transport} : d.word? = some e →
      t.Becomes u (t.view.emit [e]) → Performs t d [e] u
  | takes {u : Transport} : t.Becomes u { t.view with events := t.view.events.tail } →
      Performs t .take [] u
  | starts {d : Deed} {u : Transport} {task : Task} {reply : Reply} (outgoing : List UInt8) :
      t.starts? d = some (task, reply) → t.connected = true →
      u.view = { t.view with outgoing }.start t.nextId task reply → u.nextId = t.nextId + 1 →
      u.lastAttempt = t.lastAttempt → Performs t d [] u
  | connects {c : Connection} {script : Script} {u : Transport} : t.link = none →
      t.Becomes u (t.view.withLink script.link) → Performs t (.connect c script) [] u
  | arrives {item : Inbound} {u : Transport} :
      t.Becomes u { t.view with link := t.link.map (Link.joined · item) } →
      Performs t (.arrive item) [] u
  | closes {view : View} {u : Transport} : t.view.Cancelled view →
      view.operations.map Operation.id = t.view.operations.map Operation.id →
      view.link = t.link.map Link.told → t.Becomes u view → Performs t .beginClose [] u
  | closed {u : Transport} : t.Becomes u { t.view with link := none } → Performs t .finishClose [] u

theorem Becomes.events_eq {t u : Transport} {view : View} (h : t.Becomes u view) :
    u.events = view.events :=
  congrArg View.events h.view_eq

section Requests

variable (t : Transport)

theorem Becomes.refl : t.Becomes t t.view := ⟨rfl, rfl, rfl⟩

theorem becomes_of_ledger {t u : Transport} (h : u.ledger = t.ledger) : t.Becomes u t.view :=
  ⟨congrArg Ledger.view h, congrArg Ledger.nextId h, congrArg Ledger.lastAttempt h⟩

theorem Becomes.rests {t u : Transport} {d : Deed} (h : t.Becomes u t.view) (htake : d ≠ .take)
    (hd : t.starts? d = none) (hoffers : d.offers = []) : t.Performs d [] u :=
  .rests t.outgoing htake hd hoffers h

theorem becomes_emit (e : Event) : t.Becomes (t.emit e) (t.view.emit [e]) := by
  have h := ledger_emit t e
  exact ⟨congrArg Ledger.view h, congrArg Ledger.nextId h, congrArg Ledger.lastAttempt h⟩

theorem connect_numbers (c : Connection) (script : Script) :
    (t.connect c script).1.nextId = t.nextId ∧
      (t.connect c script).1.lastAttempt = t.lastAttempt := by
  unfold connect
  repeat' split
  all_goals exact ⟨rfl, rfl⟩

theorem connect_performs (c : Connection) (script : Script) :
    t.Performs (.connect c script) [] (t.connect c script).1 := by
  obtain ⟨hid, hlast⟩ := t.connect_numbers c script
  obtain ⟨haccepted, hother⟩ := Trial.connect_view t c script
  by_cases h : (t.connect c script).2 = .accepted
  · obtain ⟨hlink, hview⟩ := haccepted h
    exact .connects hlink ⟨hview, hid, hlast⟩
  · exact Becomes.rests ⟨hother h, hid, hlast⟩ nofun rfl rfl

theorem subscribe_performs (topics : Subscription) (reply : Reply) :
    t.Performs (.subscribe topics reply) [] (t.sendSubscribe topics reply).1 := by
  cases hc : t.connected with
  | true =>
    have hsend : t.sendSubscribe topics reply = (t.spawn (.subscribe topics) reply, true) := by
      simp [sendSubscribe, hc]
    have hstarts : t.starts? (.subscribe topics reply) = some (.subscribe topics, reply) := by
      simp [starts?, hsend]
    rw [hsend]
    exact .starts t.outgoing hstarts hc rfl rfl rfl
  | false =>
    have hsend : t.sendSubscribe topics reply =
        (t.log (Log.warning "Subscribe requested while not connected."), false) := by
      simp [sendSubscribe, hc]
    rw [hsend]
    exact (becomes_of_ledger (ledger_log t _)).rests nofun (by simp [starts?, hsend]) rfl

/-- One write of a publish starts the task of a complete payload, or it only changes what is
collected. -/
theorem sendPublish_cases (p : Publication) (chunk : List UInt8) (reply : Reply) :
    (∃ outgoing, t.Becomes (t.sendPublish p chunk reply).1 { t.view with outgoing } ∧
      ((t.sendPublish p chunk reply).2 && p.final) = false) ∨
    t.connected = true ∧ p.final = true ∧ t.sendPublish p chunk reply =
      ({ t with outgoing := [] }.spawn (.publish p.topic p.qos (t.outgoing ++ chunk)) reply,
        true) := by
  have hlogged (outgoing : List UInt8) (entry : Log.Entry) :
      t.Becomes ({ t with outgoing }.log entry) { t.view with outgoing } :=
    ⟨view_log _ entry, rfl, rfl⟩
  unfold sendPublish
  dsimp only
  split_ifs with hc ho hf hl
  · exact .inl ⟨t.outgoing, hlogged t.outgoing _, rfl⟩
  · exact .inl ⟨[], hlogged [] _, rfl⟩
  · exact .inl ⟨t.outgoing ++ chunk, ⟨rfl, rfl, rfl⟩, by simpa using hf⟩
  · exact .inl ⟨[], hlogged [] _, rfl⟩
  · exact .inr ⟨by simpa using hc, by simpa using hf, rfl⟩

theorem publish_performs (p : Publication) (chunk : List UInt8) (reply : Reply) :
    t.Performs (.publish p chunk reply) [] (t.sendPublish p chunk reply).1 := by
  rcases t.sendPublish_cases p chunk reply with ⟨outgoing, hu, hb⟩ | ⟨hc, hf, hsend⟩
  · exact .rests outgoing nofun (by simp only [starts?, hb]; rfl) rfl hu
  · have hstarts : t.starts? (.publish p chunk reply) =
        some (.publish p.topic p.qos (t.outgoing ++ chunk), reply) := by
      simp [starts?, hsend, hf]
    rw [hsend]
    exact .starts [] hstarts hc rfl rfl rfl

theorem arrive_performs (item : Inbound) : t.Performs (.arrive item) [] (t.arrive item) := by
  refine .arrives ?_
  unfold arrive
  cases hl : t.link with
  | none =>
    refine ⟨?_, rfl, rfl⟩
    simp [view, hl]
  | some l =>
    dsimp only
    split_ifs <;> exact ⟨rfl, rfl, rfl⟩

theorem ledger_cancelOperation (op : Operation) :
    (t.cancelOperation op).ledger =
      t.ledger.withView (t.view.replace { op with cancelled := true }) := by
  unfold cancelOperation
  dsimp only
  split_ifs <;> simp

theorem ledger_foldl_cancel (ops : List Operation) :
    (ops.foldl cancelOperation t).ledger =
      t.ledger.withView (ops.foldl cancelOperation t).view := by
  induction ops generalizing t with
  | nil => rfl
  | cons op rest ih =>
    rw [List.foldl_cons, ih, ledger_cancelOperation]
    rfl

theorem ledger_cancelLink (l : Link) :
    (t.cancelLink l).ledger = t.ledger.withView (t.cancelLink l).view := by
  unfold cancelLink
  dsimp only
  split_ifs
  · rfl
  · rfl
  · rw [ledger_enqueue _ (by simp) (by simp)]
    rfl

theorem ledger_enqueue_taskEnded :
    (t.enqueue .taskEnded).ledger = { t.ledger with uncounted := t.ledger.uncounted + 1 } := by
  simp [ledger, enqueue, view, history]

def dismissLink (t : Transport) : Transport :=
  match t.link with
  | none => t
  | some l => if l.phase = .ended then t.enqueue .taskEnded else t.cancelLink l

def endedLinks (link : Option Link) : Nat :=
  match link with
  | none => 0
  | some l => if l.phase = .ended then 1 else 0

theorem ledger_dismissLink : t.dismissLink.ledger =
    { t.ledger.withView t.dismissLink.view with
      uncounted := t.ledger.uncounted + endedLinks t.link } := by
  unfold dismissLink endedLinks
  cases t.link with
  | none => rfl
  | some l =>
    dsimp only
    split_ifs
    · exact t.ledger_enqueue_taskEnded
    · exact t.ledger_cancelLink l

theorem ledger_beginClose : t.beginClose.ledger = { t.ledger.withView t.beginClose.view with
    closing := t.operations.length + if t.link.isSome then 1 else 0
    uncounted := t.ledger.uncounted + endedLinks t.link } := by
  let u := t.operations.foldl cancelOperation t
  have hfold : u.ledger = t.ledger.withView u.view := ledger_foldl_cancel t t.operations
  have hlink : u.link = t.link :=
    (foldl_cancelled t.operations (fun _ h => h) t (.refl t.view)).2
  let v := { u with closing := t.operations.length + if t.link.isSome then 1 else 0 }
  have hv : v.ledger = { t.ledger.withView u.view with closing := v.closing } := by
    rw [← hfold]
    rfl
  have hdismiss := ledger_dismissLink v
  rw [hv, show v.link = t.link from hlink] at hdismiss
  exact hdismiss

theorem foldl_cancel_ids (ops : List Operation) :
    (ops.foldl cancelOperation t).view.operations.map Operation.id =
      t.view.operations.map Operation.id := by
  induction ops generalizing t with
  | nil => rfl
  | cons op rest ih => rw [List.foldl_cons, ih, view_cancelOperation, View.replace_ids]

theorem dismissLink_operations : t.dismissLink.view.operations = t.view.operations := by
  unfold dismissLink
  split
  · rfl
  · split_ifs
    · rfl
    · rw [view_cancelLink]
      split_ifs
      rfl

theorem dismissLink_link : t.dismissLink.link = t.link.map Link.told := by
  unfold dismissLink
  split
  · rename_i hl
    rw [hl]
    rfl
  · rename_i l hl
    rw [hl, Option.map_some, Link.told]
    split_ifs with hended
    · exact hl
    · have hview := congrArg View.link (view_cancelLink t l)
      rwa [if_neg hended] at hview

theorem beginClose_link : t.beginClose.link = t.link.map Link.told := by
  have hfold : (t.operations.foldl cancelOperation t).link = t.link :=
    (foldl_cancelled t.operations (fun _ h => h) t (.refl t.view)).2
  rw [← hfold]
  exact dismissLink_link _

theorem beginClose_performs : t.Performs .beginClose [] t.beginClose := by
  have h := t.ledger_beginClose
  have hids : t.beginClose.view.operations.map Operation.id =
      t.view.operations.map Operation.id :=
    (congrArg (List.map Operation.id) (dismissLink_operations _)).trans
      (foldl_cancel_ids t t.operations)
  exact .closes t.beginClose_cancelled hids t.beginClose_link
    ⟨rfl, congrArg Ledger.nextId h, congrArg Ledger.lastAttempt h⟩

theorem job_performs (job : Job) : ∃ said, t.Performs (.job job) said (t.perform (.job job)) := by
  show ∃ said, t.Performs (.job job) said
    (if job ∈ t.ready then { t with ready := t.ready.erase job }.runJob job else t)
  split_ifs
  · by_cases hended : job = .taskEnded
    · subst hended
      have h := ledger_countEnded { t with ready := t.ready.erase .taskEnded }
      have hbecomes : t.Becomes _ t.view :=
        ⟨congrArg Ledger.view h, congrArg Ledger.nextId h, congrArg Ledger.lastAttempt h⟩
      exact ⟨[], hbecomes.rests nofun rfl rfl⟩
    · by_cases hhost : job = .host
      · subst hhost
        exact ⟨[], Becomes.rests ⟨rfl, rfl, rfl⟩ nofun rfl rfl⟩
      · obtain ⟨said, hworks⟩ := runJob_works { t with ready := t.ready.erase job } hended
        rw [ledger_erase t hhost hended] at hworks
        exact ⟨said, .works hworks⟩
  · exact ⟨[], (Becomes.refl t).rests nofun rfl rfl⟩

/-- Nothing happens to a transport that is not listed. -/
theorem perform_performs (d : Deed) : ∃ said, t.Performs d said (t.perform d) := by
  cases d with
  | connect c script => exact ⟨[], t.connect_performs c script⟩
  | subscribe topics reply => exact ⟨[], t.subscribe_performs topics reply⟩
  | publish p chunk reply => exact ⟨[], t.publish_performs p chunk reply⟩
  | requestWrite => exact ⟨_, .speaks rfl (t.becomes_emit _)⟩
  | cancelService => exact ⟨_, .speaks rfl (t.becomes_emit _)⟩
  | log entry => exact ⟨[], (becomes_of_ledger (ledger_log t entry)).rests nofun rfl rfl⟩
  | take => exact ⟨[], .takes ⟨rfl, rfl, rfl⟩⟩
  | await waits => exact ⟨[], .rests t.outgoing nofun rfl rfl ⟨rfl, rfl, rfl⟩⟩
  | arrive item => exact ⟨[], t.arrive_performs item⟩
  | job job => exact t.job_performs job
  | alarm timer =>
    refine ⟨[], Becomes.rests ?_ nofun rfl rfl⟩
    show t.Becomes (if timer ∈ t.timers then t.fire timer else t) t.view
    split_ifs
    · exact becomes_of_ledger (ledger_fire t timer)
    · exact .refl t
  | beginClose => exact ⟨[], t.beginClose_performs⟩
  | finishClose => exact ⟨[], .closed ⟨t.view_finishClose, rfl, rfl⟩⟩
  | recover => exact ⟨[], .rests t.outgoing nofun rfl rfl ⟨rfl, rfl, rfl⟩⟩

end Requests

section Course

variable {t u : Transport} {d : Deed} {said : List Event}

theorem events_of_adds (hd : d ≠ .take) (h : u.events = t.events ++ said) :
    (Transition.mk t d u).said = said ∧
      t.events ++ said = (Transition.mk t d u).taken ++ u.events := by
  unfold Transition.said Transition.taken
  cases d <;> simp_all

/-- What a deed says is put on the queue, and what it takes comes from there. -/
theorem Performs.events_eq (h : t.Performs d said u) : (Transition.mk t d u).said = said ∧
    t.events ++ said = (Transition.mk t d u).taken ++ u.events := by
  cases h with
  | works h => exact events_of_adds nofun h.events_eq
  | rests outgoing hd _ _ hu =>
    refine events_of_adds hd ?_
    rw [hu.events_eq, List.append_nil]
    rfl
  | speaks hd hu => exact events_of_adds (by rintro rfl; cases hd) hu.events_eq
  | takes hu =>
    refine ⟨rfl, ?_⟩
    rw [hu.events_eq, List.append_nil]
    show t.events = t.events.take 1 ++ t.events.tail
    rw [← List.drop_one, List.take_append_drop]
  | starts outgoing hd _ hview _ _ =>
    refine events_of_adds (by rintro rfl; cases hd) ?_
    rw [List.append_nil]
    exact congrArg View.events hview
  | connects _ hu =>
    refine events_of_adds nofun ?_
    rw [hu.events_eq, List.append_nil]
    rfl
  | arrives hu =>
    refine events_of_adds nofun ?_
    rw [hu.events_eq, List.append_nil]
    rfl
  | closes hc _ _ hu =>
    refine events_of_adds nofun ?_
    rw [hu.events_eq, hc.others, List.append_nil]
    rfl
  | closed hu =>
    refine events_of_adds nofun ?_
    rw [hu.events_eq, List.append_nil]
    rfl

theorem Course.performs {course : List Transition} (h : Course t course u) {m : Transition}
    (hm : m ∈ course) : m.before.Performs m.deed m.said m.after := by
  induction h with
  | nil => exact absurd hm List.not_mem_nil
  | @snoc course v d _ ih =>
    rcases List.mem_append.1 hm with hold | hnew
    · exact ih hold
    · obtain rfl := List.mem_singleton.1 hnew
      obtain ⟨said, hperforms⟩ := v.perform_performs d
      rw [hperforms.events_eq.1]
      exact hperforms

theorem Course.append {first rest : List Transition} {v : Transport} (h : Course t first u)
    (h' : Course u rest v) : Course t (first ++ rest) v := by
  induction h' with
  | nil => simpa using h
  | snoc d _ ih =>
    rw [← List.append_assoc]
    exact ih.snoc d

theorem Course.of_nil (h : Course t [] u) : u = t := by
  generalize hall : ([] : List Transition) = all at h
  cases h with
  | nil => rfl
  | snoc => simp at hall

theorem Course.of_snoc {course : List Transition} {m : Transition}
    (h : Course t (course ++ [m]) u) :
    Course t course m.before ∧ m.after = m.before.perform m.deed ∧ u = m.after := by
  generalize hall : course ++ [m] = all at h
  cases h with
  | nil => simp at hall
  | @snoc course' v d hcourse =>
    obtain ⟨rfl, hm⟩ := List.append_inj' hall rfl
    obtain rfl := List.singleton_inj.1 hm
    exact ⟨hcourse, rfl, rfl⟩

theorem Course.split {first : List Transition} (rest : List Transition)
    (h : Course t (first ++ rest) u) :
    ∃ v, Course t first v ∧ Course v rest u := by
  induction rest using List.reverseRecOn generalizing u with
  | nil => exact ⟨u, by simpa using h, .nil⟩
  | append_singleton rest m ih =>
    rw [← List.append_assoc] at h
    obtain ⟨hbefore, hafter, rfl⟩ := h.of_snoc
    obtain ⟨v, hfirst, hrest⟩ := ih hbefore
    have hsnoc := hrest.snoc m.deed
    rw [← hafter] at hsnoc
    exact ⟨v, hfirst, hsnoc⟩

theorem Course.of_cons {m : Transition} {rest : List Transition} (h : Course t (m :: rest) u) :
    t = m.before ∧ m.after = m.before.perform m.deed ∧ Course m.after rest u := by
  have hsplit : Course t ([m] ++ rest) u := h
  obtain ⟨v, hfirst, hrest⟩ := hsplit.split rest
  have hone : Course t ([] ++ [m]) v := hfirst
  obtain ⟨hnil, hafter, rfl⟩ := hone.of_snoc
  exact ⟨hnil.of_nil.symm, hafter, hrest⟩

theorem course_transitions (t : Transport) (deeds : List Deed) :
    Course t (t.transitions deeds) (deeds.foldl perform t) := by
  induction deeds generalizing t with
  | nil => exact .nil
  | cons d rest ih =>
    have hfirst : Course t [⟨t, d, t.perform d⟩] (t.perform d) := Course.nil.snoc d
    exact hfirst.append (ih (t.perform d))

@[simp] theorem saidBy_append (source : Source) (first rest : List Transition) :
    saidBy source (first ++ rest) = saidBy source first ++ saidBy source rest :=
  List.flatMap_append

theorem saidBy_transition (source : Source) (h : t.Performs d said u) :
    saidBy source [⟨t, d, u⟩] = if d.source = source then said else [] := by
  rw [saidBy, List.flatMap_singleton, h.events_eq.1]

end Course

end Transport

end BrokerTrial

import BrokerTrial.Proofs.Runs
import BrokerTrial.Proofs.LinkReports

/-! Messages on their way. They come from the link alone and pass the queue in their order, so what
a run gives to whoever listens are the first messages of its stream, in their order and once each
(`Run.delivers_prefix`). A message without payload fails the run, so none comes behind it. -/

namespace BrokerTrial

def Event.message? : Event → Option (String × Option (List UInt8))
  | .messageReceived topic payload => some (topic, payload)
  | _ => none

def Event.messages (events : List Event) : List (String × Option (List UInt8)) :=
  events.filterMap Event.message?

/-- The messages that a stream yields before it ends. -/
def Inbound.messages : List Inbound → List (String × Option (List UInt8))
  | .message topic payload :: rest => (topic.text, payload.bytes?) :: messages rest
  | _ => []

namespace Link

theorem report_messages (ending : Ending) : Event.messages (report ending) = [] := by
  cases ending with
  | returned => rfl
  | cancelled => rfl
  | failed f =>
    rcases report_failed f with ⟨-, hreport⟩ | ⟨-, message, hreport⟩ <;> rw [hreport] <;> rfl

theorem streamReports_messages (offered : List Inbound) :
    Event.messages (streamReports offered) = Inbound.messages offered := by
  induction offered with
  | nil => rfl
  | cons item rest ih =>
    cases item with
    | message topic payload => exact congrArg ((topic.text, payload.bytes?) :: ·) ih
    | ends => exact report_messages .returned
    | fails f => exact report_messages (.failed f)

theorem reports_messages (enter : Reply) (offered : List Inbound) :
    Event.messages (reports enter offered) <+: Inbound.messages offered := by
  unfold reports
  cases enter.fault with
  | none => exact (streamReports_messages offered).symm ▸ List.prefix_rfl
  | some f => rw [report_messages]; exact List.nil_prefix

end Link

theorem Operation.report_messages (op : Operation) (attempt : Int) (ending : Ending) :
    Event.messages (op.report attempt ending) = [] := by
  cases ht : op.task with
  | subscribe topics =>
    rw [report_of_subscribe ht]
    rcases subscribeReport_cases topics op.reply.granted ending with
      h | ⟨-, -, h⟩ | ⟨message, h⟩ <;> rw [h] <;> rfl
  | publish topic qos payload =>
    rw [report_of_publish ht]
    rcases publishReport_cases attempt ending with h | ⟨-, h⟩ | ⟨message, -, h⟩ | ⟨message, h⟩ <;>
      rw [h] <;> rfl

namespace Transport

variable {source : Source} {events said : List Event} {l m : Ledger} {t u : Transport} {d : Deed}
  {course : List Transition}

/-- Only the link reports messages. -/
theorem Ledger.Change.messages (h : l.Change source events m) (hs : source ≠ .link) :
    Event.messages events = [] := by
  cases h with
  | ends => exact Operation.report_messages _ _ _
  | starts => rfl
  | goesOn => rfl
  | broken => rfl
  | _ => exact absurd rfl hs

theorem Ledger.Works.messages (h : l.Works source said m) (hs : source ≠ .link) :
    Event.messages said = [] := by
  induction h with
  | refl => rfl
  | tail _ hchange ih =>
    rw [Event.messages, List.filterMap_append, ← Event.messages, ← Event.messages, ih,
      hchange.messages hs]
    rfl

theorem Performs.messages (h : t.Performs d said u) (hs : d.source ≠ .link) :
    Event.messages said = [] := by
  cases h with
  | works hworks => exact hworks.messages hs
  | speaks hword _ => cases d <;> cases hword <;> rfl
  | _ => rfl

/-- The messages that come to the queue are those that the link reports. -/
theorem Course.messages (h : Course t course u) :
    Event.messages (course.flatMap Transition.said) = Event.messages (saidBy .link course) := by
  induction h with
  | nil => rfl
  | @snoc course v d _ ih =>
    obtain ⟨said, hp⟩ := v.perform_performs d
    simp only [Event.messages, List.flatMap_append, List.filterMap_append, saidBy_append] at ih ⊢
    rw [ih, saidBy_transition _ hp, List.flatMap_singleton, hp.events_eq.1]
    split_ifs with hs
    · rfl
    · exact congrArg (_ ++ ·) (hp.messages hs)

theorem Ledger.Works.unlinked (h : l.Works source said m) (hl : l.view.link = none) :
    m.view.link = none ∧ (source = .link → said = []) := by
  induction h with
  | refl => exact ⟨hl, fun _ => rfl⟩
  | @tail said events m n _ hchange ih =>
    obtain ⟨hm, hsaid⟩ := ih
    have hother {id : Nat} (hn : n.view.link = m.view.link) :
        n.view.link = none ∧ (Source.operation id = .link → said ++ events = []) :=
      ⟨hn.trans hm, nofun⟩
    cases hchange with
    | starts => exact hother rfl
    | goesOn => exact hother rfl
    | ends =>
      refine hother ?_
      rw [emit_view, strike_view]
      rfl
    | broken => exact ⟨hm, fun hs => by rw [hsaid hs, List.append_nil]⟩
    | connecting hlink => cases hlink.symm.trans hm
    | established hlink => cases hlink.symm.trans hm
    | message hlink => cases hlink.symm.trans hm
    | parked hlink => cases hlink.symm.trans hm
    | cut hlink => cases hlink.symm.trans hm

theorem Performs.unlinked (h : t.Performs d said u) (ht : t.link = none) (hd : d.plain) :
    u.link = none ∧ (d.source = .link → said = []) := by
  have hkeeps {view : View} (hview : view.link = none) (hu : t.Becomes u view) : u.link = none :=
    (congrArg View.link hu.view_eq).trans hview
  cases h with
  | works hworks => exact hworks.unlinked ht
  | rests _ _ _ _ hu => exact ⟨hkeeps ht hu, fun _ => rfl⟩
  | speaks hword hu =>
    exact ⟨hkeeps ht hu, fun hs => by cases (Deed.source_of_word? hword).symm.trans hs⟩
  | takes hu => exact ⟨hkeeps ht hu, fun _ => rfl⟩
  | starts _ _ _ hview _ _ => exact ⟨(congrArg View.link hview).trans ht, fun _ => rfl⟩
  | connects => cases hd
  | arrives => cases hd
  | closes _ _ hlink hu => exact ⟨hkeeps (by rw [hlink, ht]; rfl) hu, fun _ => rfl⟩
  | closed hu => exact ⟨hkeeps rfl hu, fun _ => rfl⟩

theorem Course.unlinked (h : Course t course u) (ht : t.link = none)
    (hplain : ∀ m ∈ course, m.deed.plain) : u.link = none ∧ saidBy .link course = [] := by
  induction h with
  | nil => exact ⟨ht, rfl⟩
  | @snoc course v d _ ih =>
    obtain ⟨said, hp⟩ := v.perform_performs d
    obtain ⟨hv, hsaid⟩ := ih fun m hm => hplain m (List.mem_append_left _ hm)
    have hd : d.plain := hplain _ (List.mem_append_right _ (List.mem_singleton_self _))
    obtain ⟨hu, hquiet⟩ := hp.unlinked hv hd
    refine ⟨hu, ?_⟩
    rw [saidBy_append, hsaid, saidBy_transition _ hp]
    split_ifs with hs
    · exact hquiet hs
    · rfl

theorem offersOf_plain (h : ∀ m ∈ course, m.deed.plain) : offersOf course = [] := by
  refine List.flatMap_eq_nil_iff.2 fun m hm => ?_
  have hplain := h m hm
  cases hd : m.deed <;> first | rfl | rw [hd] at hplain; cases hplain

/-- The messages that the link of a single connection reports. -/
theorem Once.messages {script : Script} (hcourse : Course t course u) (h : Once script course)
    (ht : t.link = none) : Event.messages (saidBy .link course) <+:
      Inbound.messages (script.stream.map (·.content)) := by
  cases h with
  | never hplain =>
    rw [(hcourse.unlinked ht hplain).2]
    exact List.nil_prefix
  | @once first rest c v hplain hplain' =>
    obtain ⟨w, hfirst, htail⟩ := Course.split _ hcourse
    obtain ⟨rfl, -, hrest⟩ := htail.of_cons
    obtain ⟨hw, hquiet⟩ := hfirst.unlinked ht hplain
    have hsaid : saidBy .link
        (first ++ ⟨w, .connect c script, (w.connect c script).1⟩ :: rest) = saidBy .link rest := by
      rw [saidBy_append, hquiet]
      rfl
    rw [hsaid]
    by_cases ha : (w.connect c script).2 = .accepted
    · have hreported := hrest.reported (fun m hm c script hd => by
        have hplain := hplain' m hm
        rw [hd] at hplain
        cases hplain) (reported_of_connect ha)
      rw [offersOf_plain hplain', List.append_nil, List.nil_append] at hreported
      have hfirst := hreported.said_prefix []
      rw [List.append_nil] at hfirst
      exact (hfirst.filterMap Event.message?).trans (Link.reports_messages _ _)
    · have hview := (Trial.connect_view w c script).2 ha
      have hlink : (w.connect c script).1.link = none := (congrArg View.link hview).trans hw
      rw [(hrest.unlinked hlink hplain').2]
      exact List.nil_prefix

end Transport

namespace Effect

def delivery? : Effect → Option (String × List UInt8)
  | .deliver topic payload => some (topic, payload)
  | _ => none

/-- The messages that are given to whoever listens. -/
def deliveries (effects : List Effect) : List (String × List UInt8) :=
  effects.filterMap delivery?

@[simp] theorem deliveries_nil : deliveries [] = [] := rfl

@[simp] theorem deliveries_log (entry : Log.Entry) (effects : List Effect) :
    deliveries (.log entry :: effects) = deliveries effects := rfl

@[simp] theorem deliveries_request (r : Request) (effects : List Effect) :
    deliveries (.request r :: effects) = deliveries effects := rfl

@[simp] theorem deliveries_append (first rest : List Effect) :
    deliveries (first ++ rest) = deliveries first ++ deliveries rest := List.filterMap_append

@[simp] theorem deliveries_map_log (entries : List Log.Entry) :
    deliveries (entries.map .log) = [] := by
  induction entries with
  | nil => rfl
  | cons entry rest ih => exact ih

end Effect

namespace Session

open Effect (deliveries)

section Deliveries

variable (plan : Plan) (accepts : Request → Bool) (s : Standing)

@[simp] theorem deliveries_after (r : Reaction) (effects : List Effect) :
    deliveries (r.after effects).effects = deliveries effects ++ deliveries r.effects :=
  Effect.deliveries_append effects r.effects

@[simp] theorem abort_deliveries (reason : String) : deliveries (abort s reason).effects = [] := by
  unfold abort
  split_ifs <;> simp

end Deliveries

end Session

namespace Trial

open Transport (Course Once saidBy)

def HandledEvent.deliveries (h : HandledEvent) : List (String × List UInt8) :=
  Effect.deliveries
    (Session.handle h.trial.plan h.trial.accepts h.trial.standing h.event).effects

variable {start t u : Trial} {handled : List HandledEvent}

end Trial

end BrokerTrial

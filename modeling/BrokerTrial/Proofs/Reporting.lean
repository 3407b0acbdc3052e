import BrokerTrial.Proofs.Progress
import BrokerTrial.Proofs.Timing

/-! What operations report. An operation that goes on has said nothing, and one that has ended has
said exactly one event, which tells how its client ended; a cancelled one says nothing at all. And
whatever is said of an operation comes from one that was started (`reports_exact`). -/

namespace BrokerTrial

namespace Transport

/-- What an operation says that ended by itself. Its attempt has the given number. -/
def Answered (task : Task) (reply : Reply) (number : Int) (ending : Ending) (e : Event) : Prop :=
  match task with
  | .publish .. =>
    (e = .acknowledged ↔ ending = .returned) ∧
    (∀ attempt, e = .resendRequested attempt ↔
      number = attempt ∧ ∃ message, ending = .failed ⟨.timeout, message⟩) ∧
    ((∃ message, e = .connectionFailed message) ↔ ∃ f, ending = .failed f ∧ f.kind ≠ .timeout)
  | .subscribe topics => ∀ codes, (ending = .returned → reply.granted.Carries codes) →
    (e = .subscribed ↔ ending = .returned ∧ topics.refused codes = []) ∧
    (ending = .returned → topics.refused codes ≠ [] →
      e = .connectionFailed s!"subscribe refused for {shownTopics (topics.refused codes)}") ∧
    ((∃ f, ending = .failed f) → ∃ message, e = .connectionFailed message)

section Answered

open Operation (audibleEnding publishReport subscribeReport)

variable {reply : Reply} {attempt : Int} {ending : Ending}

theorem publish_answered (topic : Value) (qos : Int) (payload : List UInt8)
    (h : audibleEnding ending) : ∃ e, publishReport attempt ending = [e] ∧
      Answered (.publish topic qos payload) reply attempt ending e := by
  cases ending with
  | returned => exact ⟨_, rfl, by simp [Answered]⟩
  | cancelled => exact h.elim
  | failed f =>
    obtain ⟨kind, message⟩ := f
    have hsilent : kind.silent = false := h
    cases kind <;> simp_all [publishReport, Answered, FaultKind.silent]

theorem subscribe_answered (topics : Subscription) (h : audibleEnding ending)
    (hread : ending = .returned → reply.granted.Readable) :
    ∃ e, subscribeReport topics reply.granted ending = [e] ∧
      Answered (.subscribe topics) reply attempt ending e := by
  cases ending with
  | cancelled => exact h.elim
  | failed f =>
    have hsilent : f.kind.silent = false := h
    cases hk : f.kind <;> simp_all [subscribeReport, Answered, FaultKind.silent]
  | returned =>
    obtain ⟨codes, hcodes⟩ := hread rfl
    have hrefused := refusedTopics_of_carries topics hcodes
    -- the numbers that an answer carries are its own
    have hsame (codes' : List Int) (hcodes' : reply.granted.Carries codes') :
        topics.refused codes' = topics.refused codes :=
      Except.ok.inj ((refusedTopics_of_carries topics hcodes').symm.trans hrefused)
    cases hr : topics.refused codes with
    | nil =>
      rw [hr] at hrefused hsame
      refine ⟨.subscribed, by simp [subscribeReport, hrefused], fun codes' hcodes' => ?_⟩
      simp [hsame codes' (hcodes' rfl)]
    | cons topic rest =>
      rw [hr] at hrefused hsame
      refine ⟨.connectionFailed s!"subscribe refused for {shownTopics (topic :: rest)}",
        by simp [subscribeReport, hrefused], fun codes' hcodes' => ?_⟩
      simp [hsame codes' (hcodes' rfl)]

theorem report_answered (id : Nat) {task : Task} (attempt : Int) (h : audibleEnding ending)
    (hread : ∀ topics, task = .subscribe topics → ending = .returned → reply.granted.Readable) :
    ∃ e, ({ id, task, reply } : Operation).report attempt ending = [e] ∧
      Answered task reply attempt ending e := by
  cases task with
  | subscribe topics => exact subscribe_answered topics h (hread topics rfl)
  | publish topic qos payload => exact publish_answered topic qos payload h

end Answered

section Operations

variable {patience : Patience} {course : List Transition} {t u : Transport} {d : Deed}
  {said : List Event} {e : Event} {source : Source} {l m : Ledger}

/-- Nobody but an operation speaks of operations. -/
theorem Ledger.Change.of_operation (h : l.Change source said m) (he : e ∈ said)
    (ho : e.ofOperation) : ∃ id, source = .operation id := by
  cases h with
  | ends => exact ⟨_, rfl⟩
  | @cut _ _ ending =>
    cases ending with
    | returned => simp_all [Link.report, Event.ofOperation]
    | cancelled => cases he
    | failed f =>
      rcases Link.report_failed f with ⟨-, hreport⟩ | ⟨-, message, hreport⟩ <;>
        simp_all [Event.ofOperation]
  | established => simp_all [Event.ofOperation]
  | message => simp_all [Event.ofOperation]
  | _ => cases he

theorem Ledger.Works.of_operation (h : l.Works source said m) (he : e ∈ said)
    (ho : e.ofOperation) : ∃ id, source = .operation id := by
  induction h with
  | refl => cases he
  | tail _ hchange ih =>
    rcases List.mem_append.1 he with hold | hnew
    · exact ih hold
    · exact hchange.of_operation hnew ho

theorem Performs.of_operation (h : t.Performs d said u) (he : e ∈ said) (ho : e.ofOperation) :
    ∃ id, d.source = .operation id := by
  cases h with
  | works hworks => exact hworks.of_operation he ho
  | speaks hword _ =>
    obtain rfl := List.mem_singleton.1 he
    cases d <;> cases hword <;> cases ho
  | _ => cases he

/-- Each operation says exactly one event, when it ends, and it says how its client ended; one that
is cancelled says nothing. Unless somebody tells the tasks to stop, an operation has made its call
and ends with the answer, or its limit is over by the clock; it only goes on for ever if its client
never answers and there is no limit. -/
theorem reports_exact (h : Course { patience } course t) :
    (∀ m ∈ course, ∀ task reply, m.before.starts? m.deed = some (task, reply) →
      let id := m.before.nextId
      let said := saidBy (.operation id) course
      let limit := patience.acknowledgement.limit
      ((∃ op ∈ t.operations, op.id = id) → said = [] ∧ t.view.endings id = [] ∧
        (¬ Told course → (∀ job ∈ t.ready, job.concerns id = false) →
          (∀ timer ∈ t.timers, timer.alarm.concerns id = false) →
          task.limited = false ∧ reply.wait = .forever)) ∧
      ((∀ op ∈ t.operations, op.id ≠ id) → ∃ ending, t.view.endings id = [ending] ∧
        (ending = reply.ending ∨ task.limited ∧ ending = .failed ⟨.timeout, none⟩ ∨
          Told course ∧ ending = .cancelled) ∧
        (¬ Told course → ∃ start, begunAt id course = some start ∧
          Settled task reply (Punctual course) start t.now limit (t.view.calls id) ending ∧
          (Punctual course → ending = task.outcome reply limit start ∧
            t.view.calls id = task.callsMade limit)) ∧
        (ending = .cancelled → said = []) ∧
        (reply.Audible → ending ≠ .cancelled →
          (∀ topics, task = .subscribe topics → ending = .returned → reply.granted.Readable) →
          ∃ e number, said = [e] ∧ Answered task reply number ending e ∧
            (task.publishes → numberOf id course = some number)))) ∧
    started course = List.range t.nextId ∧
    (∀ id ∉ started course, saidBy (.operation id) course = []) ∧
    ∀ m ∈ course, ∀ e ∈ m.said, e.ofOperation → ∃ id, m.deed.source = .operation id := by
  have haccounts := h.accounts
  refine ⟨?_, haccounts.born, ?_, fun m hm e he ho => (h.performs hm).of_operation he ho⟩
  · intro m hm task reply hstarts id said limit
    obtain ⟨-, number, haccount, hnumber⟩ := haccounts.accounts m hm task reply hstarts
    generalize hsaid : saidBy (.operation m.before.nextId) course = said' at haccount
    have hid : id = m.before.nextId := rfl
    cases haccount with
    | @runs op _ hop hoid _ _ _ _ _ hnone =>
      refine ⟨fun hthere => ⟨hsaid, hnone, fun hcalm hjobs htimers =>
        h.of_idle hcalm hm hstarts hthere hjobs htimers⟩, fun hgone => ?_⟩
      exact absurd hoid (hgone op hop)
    | @ended ending attempt hgone hone hways =>
      refine ⟨?_, fun _ => ⟨ending, hone, hways, fun hcalm => ?_, ?_, ?_⟩⟩
      · rintro ⟨op, hop, hoid⟩
        exact absurd hoid (hgone op hop)
      · obtain ⟨start, hstart, hsettled⟩ := h.settled hcalm hm hstarts hgone hone
        exact ⟨start, hstart, hsettled, hsettled.of_punctual⟩
      · rintro rfl
        exact hsaid.trans (Operation.report_cancelled _ _)
      · intro haudible hne hread
        have hending : Operation.audibleEnding ending := by
          rcases hways with rfl | ⟨-, rfl⟩ | ⟨-, rfl⟩
          · exact Operation.audibleEnding_of_reply haudible
          · exact rfl
          · exact absurd rfl hne
        obtain ⟨e, hreport, hanswered⟩ := report_answered m.before.nextId attempt hending hread
        exact ⟨e, attempt, hsaid.trans hreport, hanswered, hnumber⟩
  · intro id hid
    rw [haccounts.born, List.mem_range, Nat.not_lt] at hid
    exact (haccounts.unborn id hid).2.1

theorem told_transitions (t : Transport) (deeds : List Deed) :
    Told (transitions t deeds) ↔ .beginClose ∈ deeds := by
  induction deeds generalizing t with
  | nil => simp [Told, transitions]
  | cons d rest ih =>
    rw [List.mem_cons, ← ih (t.perform d)]
    simp [Told, transitions, eq_comm]

def partlyGranted : Reply := { granted := .codes [.plain (.int 0), .reason (.int 128)] }

/-- A subscription to two topics, a publish at QoS 0 and two at QoS 1. Of these, the first is
answered after a second, and the second never. -/
def severalAtOnce : List Deed :=
  let will : Will := { topic := .str "bye", message := .str "over", qos := 0, retain := false }
  let connection : Connection :=
    { host := .str "localhost", port := 1883, clientId := .str "probe", keepAlive := 60
      cleanStart := true, will, username := .null, password := .null, protocol := "3.1.1"
      useTls := false, allowSelfSigned := false, caFile := .null }
  [.connect connection {}, .job .link, .subscribe [("a", 0), ("b", 1)] partlyGranted,
    .publish ⟨.str "a", 0, 1, true⟩ [7] {},
    .publish ⟨.str "a", 1, 1, true⟩ [7] { wait := .span (.finite 1) },
    .publish ⟨.str "a", 1, 1, true⟩ [7] { wait := .forever },
    .job (.operation 1), .job (.operation 0), .job (.operation 2), .job (.operation 3),
    .job (.call 2), .job (.call 3), .alarm ⟨.finite 1, .call 2⟩, .job (.call 2),
    .job (.callEnded 2), .job (.operation 2), .alarm ⟨.finite 20, .limit 3⟩,
    .job (.operation 3), .job (.call 3), .job (.callEnded 3), .job (.operation 3)]

/-- The second topic was refused. The publish that was not answered asks for a resend, under the
number of its attempt. -/
theorem several_report :
    let course := transitions {} severalAtOnce
    let refused := ["b"]
    Punctual course ∧ ¬ Told course ∧
      saidBy (.operation 0) course =
        [.connectionFailed s!"subscribe refused for {shownTopics refused}"] ∧
      saidBy (.operation 1) course = [.acknowledged] ∧
      saidBy (.operation 2) course = [.acknowledged] ∧
      saidBy (.operation 3) course = [.resendRequested 3] := by
  intro course refused
  let at' (n : Nat) : Transport := (severalAtOnce.take n).foldl perform {}
  have hpunctual : Punctual course :=
    List.all_eq_true.1 (by decide +kernel : course.all Transition.punctual = true)
  have hcalm : ¬ Told course := by
    rw [told_transitions]
    simp [severalAtOnce]
  have hgone (id : Nat) : ∀ op ∈ (severalAtOnce.foldl perform {}).operations, op.id ≠ id := by
    have hnone : (severalAtOnce.foldl perform {}).operations.length = 0 := by decide +kernel
    rw [List.length_eq_zero_iff.1 hnone]
    exact fun op hop => absurd hop List.not_mem_nil
  have hends {m : Transition} {task : Task} {reply : Reply} (hm : m ∈ course)
      (hstarts : m.before.starts? m.deed = some (task, reply)) :
      ∃ start, begunAt m.before.nextId course = some start ∧
        let ending := task.outcome reply (.after (.finite 20)) start
        (reply.Audible → ending ≠ .cancelled →
          (∀ topics, task = .subscribe topics → ending = .returned → reply.granted.Readable) →
          ∃ e number, saidBy (.operation m.before.nextId) course = [e] ∧
            Answered task reply number ending e ∧
            (task.publishes → numberOf m.before.nextId course = some number)) := by
    obtain ⟨ending, -, -, htimed, -, hsays⟩ :=
      ((reports_exact (course_transitions {} severalAtOnce)).1 m hm task reply hstarts).2 (hgone _)
    obtain ⟨start, hstart, -, houtcome⟩ := htimed hcalm
    obtain ⟨rfl, -⟩ := houtcome hpunctual
    exact ⟨start, hstart, hsays⟩
  refine ⟨hpunctual, hcalm, ?_, ?_, ?_, ?_⟩
  · have hsubscribe : ⟨at' 2, .subscribe [("a", 0), ("b", 1)] partlyGranted, at' 3⟩ ∈ course :=
      .tail _ (.tail _ (.head _))
    have hcarries : partlyGranted.granted.Carries [0, 128] :=
      ⟨[.plain (.int 0), .reason (.int 128)], rfl, .cons rfl (.cons rfl .nil)⟩
    obtain ⟨start, -, hsays⟩ := hends hsubscribe rfl
    obtain ⟨e, _, hsaid, hanswered, -⟩ := hsays nofun nofun fun _ _ _ => ⟨_, hcarries⟩
    exact hsaid.trans (congrArg ([·]) ((hanswered [0, 128] fun _ => hcarries).2.1 rfl (by decide)))
  · have hpublish : ⟨at' 3, .publish ⟨.str "a", 0, 1, true⟩ [7] {}, at' 4⟩ ∈ course :=
      .tail _ (.tail _ (.tail _ (.head _)))
    obtain ⟨start, -, hsays⟩ := hends hpublish rfl
    obtain ⟨e, _, hsaid, hanswered, -⟩ := hsays nofun nofun nofun
    exact hsaid.trans (congrArg ([·]) (hanswered.1.2 rfl))
  · have hpublish : ⟨at' 4, .publish ⟨.str "a", 1, 1, true⟩ [7] { wait := .span (.finite 1) },
        at' 5⟩ ∈ course := .tail _ (.tail _ (.tail _ (.tail _ (.head _))))
    obtain ⟨start, hstart, hsays⟩ := hends hpublish rfl
    have hbegun : begunAt 2 course = some .zero := by decide +kernel
    obtain rfl : start = .zero := Option.some.inj (hstart.symm.trans hbegun)
    have hwithin : Wait.within .zero (.finite 20) (.span (.finite 1)) = true := by decide +kernel
    have hending : Task.outcome (.publish (.str "a") 1 [7]) { wait := .span (.finite 1) }
        (.after (.finite 20)) .zero = .returned := if_pos hwithin
    obtain ⟨e, _, hsaid, hanswered, -⟩ :=
      hsays nofun (fun hcancelled => absurd (hending.symm.trans hcancelled) nofun) nofun
    exact hsaid.trans (congrArg ([·]) (hanswered.1.2 hending))
  · have hpublish : ⟨at' 5, .publish ⟨.str "a", 1, 1, true⟩ [7] { wait := .forever }, at' 6⟩ ∈
        course := .tail _ (.tail _ (.tail _ (.tail _ (.tail _ (.head _)))))
    obtain ⟨start, -, hsays⟩ := hends hpublish rfl
    obtain ⟨e, number, hsaid, hanswered, hnumber⟩ := hsays nofun nofun nofun
    have hthird : numberOf 3 course = some 3 := by decide +kernel
    obtain rfl : number = 3 := Option.some.inj ((hnumber rfl).symm.trans hthird)
    exact hsaid.trans (congrArg ([·]) ((hanswered.2.1 3).2 ⟨rfl, none, rfl⟩))

end Operations

end Transport

end BrokerTrial

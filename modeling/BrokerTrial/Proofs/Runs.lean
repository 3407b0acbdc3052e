import BrokerTrial.Proofs.Finality
import BrokerTrial.Proofs.Usage

/-! Runs of a trial. A `Run` is a sequence of moves, with the events that the run loop hands to the
session. What the host does with the transport in a run is a course of deeds (`Run.course`): it
takes from the queue just what it hands over, and it requests a connection once at most. A trial
that goes by its own clock has a punctual course (`runFor_punctual`). -/

namespace BrokerTrial

namespace Transport

/-- A deed that neither requests a connection nor gives the link anything to receive. -/
def Deed.plain : Deed → Bool
  | .connect .. | .arrive _ => false
  | _ => true

/-- A plain deed that lets no time go by. -/
def Deed.prompt : Deed → Bool
  | .connect .. | .arrive _ | .alarm _ => false
  | _ => true

theorem Deed.plain_of_prompt {d : Deed} (h : d.prompt) : d.plain := by
  cases d <;> first | rfl | cases h

theorem Transition.punctual_of_prompt {m : Transition} (h : m.deed.prompt) : m.punctual := by
  obtain ⟨t, d, u⟩ := m
  cases d <;> first | rfl | cases h

/-- A connection is requested once at most, and then from the client that follows the script. -/
inductive Once (script : Script) : List Transition → Prop
  | never {course : List Transition} : (∀ m ∈ course, m.deed.plain) → Once script course
  | once {first rest : List Transition} {c : Connection} {t : Transport} :
      (∀ m ∈ first, m.deed.plain) → (∀ m ∈ rest, m.deed.plain) →
      Once script (first ++ ⟨t, .connect c script, (t.connect c script).1⟩ :: rest)

theorem Once.append {script : Script} {course more : List Transition} (h : Once script course)
    (hmore : ∀ m ∈ more, m.deed.plain) : Once script (course ++ more) := by
  cases h with
  | never hplain =>
    exact .never fun m hm => (List.mem_append.1 hm).elim (hplain m) (hmore m)
  | once hfirst hrest =>
    rw [List.append_assoc, List.cons_append]
    exact .once hfirst fun m hm => (List.mem_append.1 hm).elim (hrest m) (hmore m)

theorem Once.cons {script : Script} {course first : List Transition} (h : Once script course)
    (hfirst : ∀ m ∈ first, m.deed.plain) : Once script (first ++ course) := by
  cases h with
  | never hplain =>
    exact .never fun m hm => (List.mem_append.1 hm).elim (hfirst m) (hplain m)
  | once hfirst' hrest =>
    rw [← List.append_assoc]
    exact .once (fun m hm => (List.mem_append.1 hm).elim (hfirst m) (hfirst' m)) hrest

end Transport

namespace Trial

open Transport (Course Transition Deed Once Punctual)

def Phase.over : Phase → Bool
  | .closing _ | .ended _ => true
  | _ => false

/-- An event that the run loop hands to the session. -/
structure HandledEvent where
  trial : Trial
  event : Event

def nextHandled (t : Trial) : List HandledEvent := (t.transport.events.take 1).map (⟨t, ·⟩)

/-- One move of a trial, with what it hands to the session. -/
inductive Handles (t : Trial) : List HandledEvent → Trial → Prop
  | serve : t.phase = .serving →
      Handles t (if t.standing.verdict.interrupted then [] else t.nextHandled) t.serve
  | host : t.phase.live → .host ∈ t.transport.ready →
      Handles t (if t.phase = .waiting then t.nextHandled else [])
        ((t.mapTransport fun r => { r with ready := r.ready.erase .host }).runJob .host)
  | job {job : Job} : t.phase.live → job ≠ .host → job ∈ t.transport.ready →
      Handles t [] ((t.mapTransport fun r => { r with ready := r.ready.erase job }).runJob job)
  | alarm {timer : Timer} : t.phase.live → timer ∈ t.transport.timers →
      Handles t [] (t.mapTransport (·.fire timer))

inductive Run (start : Trial) : List HandledEvent → Trial → Prop
  | refl : Run start [] start
  | tail {handled more : List HandledEvent} {t u : Trial} : Run start handled t → t.Handles more u →
      Run start (handled ++ more) u

theorem Handles.move {t u : Trial} {handled : List HandledEvent} (h : t.Handles handled u) :
    t.Move u := by
  cases h with
  | serve hp => exact .serve hp
  | host hl hjob => exact .job hl hjob
  | job hl _ hjob => exact .job hl hjob
  | alarm hl htimer => exact .alarm hl htimer

theorem Move.handles {t u : Trial} (h : t.Move u) : ∃ handled, t.Handles handled u := by
  cases h with
  | serve hp => exact ⟨_, .serve hp⟩
  | @job job hl hjob =>
    by_cases hhost : job = .host
    · subst hhost
      exact ⟨_, .host hl hjob⟩
    · exact ⟨_, .job hl hhost hjob⟩
  | alarm hl htimer => exact ⟨_, .alarm hl htimer⟩

theorem Run.possible {start t : Trial} {handled : List HandledEvent} (h : start.Run handled t) :
    start.Possible t := by
  induction h with
  | refl => exact .refl
  | tail _ hhandles ih => exact ih.tail hhandles.move

theorem Possible.run {start t : Trial} (h : start.Possible t) : ∃ handled, start.Run handled t := by
  induction h with
  | refl => exact ⟨[], .refl⟩
  | tail _ hmove ih =>
    obtain ⟨handled, hrun⟩ := ih
    obtain ⟨more, hhandles⟩ := hmove.handles
    exact ⟨_, hrun.tail hhandles⟩

/-- What a part of the host that does not start it does with its transport, and the events that it
takes. Nothing but an alarm lets time go by. -/
def Uses (t u : Trial) (taken : List Event) : Prop :=
  ∃ course, Course t.transport course u.transport ∧ course.flatMap Transition.taken = taken ∧
    ∀ m ∈ course, m.deed.prompt

section Uses

variable {t u v : Trial} {taken more : List Event}

theorem Uses.refl (t : Trial) : t.Uses t [] := ⟨[], .nil, rfl, fun _ h => absurd h List.not_mem_nil⟩

theorem Uses.of_eq (h : u.transport = t.transport) : t.Uses u [] := by
  obtain ⟨course, hcourse, hrest⟩ := Uses.refl t
  exact ⟨course, h ▸ hcourse, hrest⟩

theorem Uses.trans (h : t.Uses u taken) (h' : u.Uses v more) : t.Uses v (taken ++ more) := by
  obtain ⟨first, hfirst, rfl, hprompt⟩ := h
  obtain ⟨rest, hrest, rfl, hprompt'⟩ := h'
  refine ⟨first ++ rest, hfirst.append hrest, List.flatMap_append, fun m hm => ?_⟩
  exact (List.mem_append.1 hm).elim (hprompt m) (hprompt' m)

theorem Uses.silent (h : t.Uses u taken) (h' : u.Uses v []) : t.Uses v taken := by
  simpa using h.trans h'

theorem uses_deed (d : Deed) (hd : d.prompt)
    (h : u.transport = t.transport.perform d) :
    t.Uses u (Transition.taken ⟨t.transport, d, u.transport⟩) := by
  refine ⟨[⟨t.transport, d, u.transport⟩], ?_, List.flatMap_singleton .., ?_⟩
  · rw [h]
    exact Course.nil.snoc d
  · intro m hm
    rw [List.mem_singleton.1 hm]
    exact hd

theorem log_uses (t : Trial) (entry : Log.Entry) : t.Uses (t.log entry) [] :=
  uses_deed (.log entry) rfl rfl

theorem logAll_uses (t : Trial) (entries : List Log.Entry) : t.Uses (t.logAll entries) [] := by
  induction entries generalizing t with
  | nil => exact .refl t
  | cons entry rest ih => exact (t.log_uses entry).silent (ih (t.log entry))

theorem pass_uses (t : Trial) (r : Request) : t.Uses (t.pass r) [] := by
  cases r with
  | write => exact uses_deed .requestWrite rfl rfl
  | cancel => exact uses_deed .cancelService rfl rfl
  | subscribe topics =>
    exact uses_deed (.subscribe topics t.script.drawSubscribe.1) rfl rfl
  | publish p chunk =>
    exact uses_deed (.publish p chunk t.script.drawPublish.1) rfl rfl

theorem perform_uses (t : Trial) (effects : List Effect) :
    t.Uses (effects.foldl perform t) [] := by
  induction effects generalizing t with
  | nil => exact .refl t
  | cons effect rest ih =>
    refine Uses.silent ?_ (ih (t.perform effect))
    cases effect with
    | log entry => exact t.log_uses entry
    | request r => exact t.pass_uses r
    | deliver topic payload => exact t.logAll_uses _

theorem finish_uses (t : Trial) (escape : Option Escape) : t.Uses (t.finish escape) [] := by
  have hclose : t.Uses (t.mapTransport (·.finishClose)) [] := uses_deed .finishClose rfl rfl
  unfold finish
  cases escape with
  | some e => exact hclose.silent (.of_eq rfl)
  | none => exact (hclose.silent (log_uses _ _)).silent (.of_eq rfl)

theorem beginClosing_uses (t : Trial) (escape : Option Escape) :
    t.Uses (t.beginClosing escape) [] := by
  have hbegin : t.Uses (t.mapTransport (·.beginClose)) [] := uses_deed .beginClose rfl rfl
  have hawait : (t.mapTransport (·.beginClose)).Uses { t.mapTransport
      ({ ·.beginClose with hostWaits := false }) with handlesSignals := false } [] :=
    uses_deed (.await false) rfl rfl
  unfold beginClosing
  dsimp only
  split_ifs
  · exact (hbegin.silent hawait).silent (finish_uses _ escape)
  · exact (hbegin.silent hawait).silent (.of_eq rfl)

theorem handleError_uses (t : Trial) (error : Session.Error) : t.Uses (t.handleError error) [] := by
  have hfails : t.Uses ((t.log (Log.error s!"Session handler failed: {error.message}")).logAll
      (t.standing.verdict.failEntries error.message)) [] :=
    (t.log_uses _).silent (logAll_uses _ _)
  cases error with
  | chunk e => exact t.beginClosing_uses _
  | noPayload topic => exact hfails
  | noTransition edge stage => exact hfails

theorem handleEvent_uses (t : Trial) (e : Event) : t.Uses (t.handleEvent e) [] := by
  unfold handleEvent
  dsimp only
  have hperform : t.Uses ((Session.handle t.plan t.accepts t.standing e).effects.foldl perform
      { t with standing := (Session.handle t.plan t.accepts t.standing e).standing }) [] :=
    perform_uses { t with standing := (Session.handle t.plan t.accepts t.standing e).standing } _
  split
  · exact hperform
  · exact hperform.silent (handleError_uses _ _)

theorem takeEvent_uses (t : Trial) : t.Uses t.takeEvent (t.transport.events.take 1) := by
  unfold takeEvent
  cases he : t.transport.events with
  | nil => exact uses_deed (.await true) rfl rfl
  | cons e rest =>
    have htake := uses_deed (t := t)
      (u := ({ t with phase := .serving } : Trial).mapTransport ({ · with events := rest })) .take
      rfl (by simp [mapTransport, Transport.perform, he])
    rw [Transition.taken, he] at htake
    exact htake.silent (handleEvent_uses _ e)

theorem receiveSignal_uses (t : Trial) (name : String) : t.Uses (t.receiveSignal name) [] := by
  unfold receiveSignal
  split_ifs
  · have hlog := t.log_uses (Log.info s!"Received exit signal {name}...")
    exact hlog.silent (uses_deed .cancelService rfl rfl)
  · exact .refl t

theorem breakDown_uses (t : Trial) (b : Breakdown) : t.Uses (t.breakDown b) [] := by
  have hrecover : t.Uses (t.mapTransport fun r =>
      { r with breakdown := none, ready := r.ready.filter (· ≠ .host) }) [] :=
    uses_deed .recover rfl rfl
  unfold breakDown
  dsimp only
  split
  · exact .of_eq rfl
  · exact .of_eq rfl
  · exact hrecover.silent (beginClosing_uses _ _)

theorem job_uses (t : Trial) {job : Job} (hjob : job ∈ t.transport.ready) :
    t.Uses (t.mapTransport fun r => { r with ready := r.ready.erase job }.runJob job) [] :=
  uses_deed (.job job) rfl (if_pos hjob).symm

theorem alarm_course (t : Trial) {timer : Timer} (htimer : timer ∈ t.transport.timers) :
    Course t.transport [⟨t.transport, .alarm timer, t.transport.fire timer⟩]
      (t.transport.fire timer) := by
  have hfire : t.transport.perform (.alarm timer) = t.transport.fire timer := if_pos htimer
  rw [← hfire]
  exact Course.nil.snoc (.alarm timer)

theorem serve_uses (t : Trial) : t.Uses t.serve
    (if t.standing.verdict.interrupted then [] else t.transport.events.take 1) := by
  unfold serve
  split_ifs
  · exact t.beginClosing_uses none
  · exact t.takeEvent_uses

theorem hostTurn_uses (hp : t.phase ≠ .starting) : t.Uses t.hostTurn
    (if t.phase = .waiting then t.transport.events.take 1 else []) := by
  unfold hostTurn
  cases hphase : t.phase with
  | starting => exact absurd hphase hp
  | closing escape => exact finish_uses t escape
  | waiting => exact t.takeEvent_uses
  | serving => exact .refl t
  | ended result => exact .refl t

theorem runJob_uses (t : Trial) {job : Job} (hhost : job ≠ .host) (hjob : job ∈ t.transport.ready) :
    t.Uses ((t.mapTransport fun r => { r with ready := r.ready.erase job }).runJob job) [] := by
  have hwork := t.job_uses hjob
  cases job with
  | host => exact absurd rfl hhost
  | signal name => exact hwork.silent (receiveSignal_uses _ name)
  | _ =>
    unfold runJob
    dsimp only
    split
    · exact hwork
    · exact hwork.silent (breakDown_uses _ _)

end Uses

section Start

/-- What the host does to start: it requests the connection, once at most. -/
def Begins (t u : Trial) : Prop :=
  ∃ course, Course t.transport course u.transport ∧ course.flatMap Transition.taken = [] ∧
    Once t.script course ∧ Punctual course

variable {t u v : Trial}

theorem Uses.begins (h : t.Uses u []) : t.Begins u := by
  obtain ⟨course, hcourse, htaken, hprompt⟩ := h
  exact ⟨course, hcourse, htaken, .never fun m hm => Deed.plain_of_prompt (hprompt m hm),
    fun m hm => Transition.punctual_of_prompt (hprompt m hm)⟩

theorem Begins.silent (h : t.Begins u) (h' : u.Uses v []) : t.Begins v := by
  obtain ⟨course, hcourse, htaken, honce, hpunctual⟩ := h
  obtain ⟨more, hmore, htaken', hprompt⟩ := h'
  refine ⟨course ++ more, hcourse.append hmore, by simp [htaken, htaken'],
    honce.append fun m hm => Deed.plain_of_prompt (hprompt m hm), hpunctual.append ?_⟩
  exact fun m hm => Transition.punctual_of_prompt (hprompt m hm)

theorem Begins.cons (h : t.Uses u []) (h' : u.Begins v) (hscript : u.script = t.script) :
    t.Begins v := by
  obtain ⟨first, hfirst, htaken, hprompt⟩ := h
  obtain ⟨course, hcourse, htaken', honce, hpunctual⟩ := h'
  rw [hscript] at honce
  refine ⟨first ++ course, hfirst.append hcourse, by simp [htaken, htaken'],
    honce.cons fun m hm => Deed.plain_of_prompt (hprompt m hm), .append ?_ hpunctual⟩
  exact fun m hm => Transition.punctual_of_prompt (hprompt m hm)

theorem connect_begins (t : Trial) : t.Begins
    { t with transport := (t.transport.connect t.connection t.script).1 } := by
  have hnone : ∀ m ∈ ([] : List Transport.Transition), m.deed.plain :=
    fun _ h => absurd h List.not_mem_nil
  refine ⟨_, Course.nil.snoc (.connect t.connection t.script), rfl, .once hnone hnone, ?_⟩
  intro m hm
  rw [List.mem_singleton.1 hm]
  rfl

theorem requestConnection_begins (t : Trial) :
    t.Begins t.requestConnection.1 ∧ t.requestConnection.1.gate = t.gate := by
  have hconnect := Begins.cons (t.log_uses t.connection.announcement)
    (connect_begins (t.log t.connection.announcement)) rfl
  unfold requestConnection
  dsimp only
  split
  · exact ⟨hconnect, rfl⟩
  · refine ⟨hconnect.silent ?_, ?_⟩
    · exact Uses.silent (.of_eq rfl) (logAll_uses _ _)
    · rfl
  · exact ⟨hconnect, rfl⟩

theorem follow_uses (notices : List (Lifecycle.Notice Unit)) (t : Trial) (h : t.gate.opened) :
    t.Uses (t.follow notices).1 [] := by
  induction notices generalizing t with
  | nil => exact .refl t
  | cons notice rest ih =>
    cases notice with
    | log entry => exact (t.log_uses entry).silent (ih _ h)
    | tell listener current target =>
      have hshut : ¬ t.gate.opensAt current target := by simp [Gate.opensAt, h]
      rw [follow, if_neg hshut]
      exact ih t h

theorem follow_begins (notices : List (Lifecycle.Notice Unit)) (t : Trial) :
    t.Begins (t.follow notices).1 := by
  induction notices generalizing t with
  | nil => exact (Uses.refl t).begins
  | cons notice rest ih =>
    cases notice with
    | log entry => exact Begins.cons (t.log_uses entry) (ih _) rfl
    | tell listener current target =>
      unfold follow
      split_ifs with hopen
      · have hnotify : (t.gate.notify current target).opened = true := by
          rw [Gate.notify, if_pos hopen]
        obtain ⟨hrequest, hgate⟩ :=
          requestConnection_begins { t with gate := t.gate.notify current target }
        generalize hr : ({ t with gate := t.gate.notify current target } : Trial).requestConnection
          = requested at hrequest hgate
        obtain ⟨r, answer⟩ := requested
        have hopened : r.gate.opened = true := by
          rw [show r.gate = _ from hgate]
          exact hnotify
        cases answer with
        | none => exact Begins.silent hrequest (follow_uses rest r hopened)
        | some e => exact hrequest
      · exact ih t

theorem start_begins (t : Trial) : t.Begins t.start := by
  have hfollow := follow_begins startNotices { t with handlesSignals := true }
  unfold start
  generalize ({ t with handlesSignals := true } : Trial).follow startNotices = followed at hfollow
  obtain ⟨u, escape⟩ := followed
  cases escape with
  | none => exact hfollow
  | some e => exact Begins.silent hfollow (beginClosing_uses u _)

end Start

/-- Once it is interrupted, a trial stays so, and its session has come to an end. -/
theorem Scene.Change.calm {s s' : Scene} (h : s.Change s')
    (hi : s.standing.verdict.interrupted = true) : Session.Calm s.standing s'.standing [] := by
  cases h with
  | refuse => exact ⟨rfl, rfl, nofun, nofun⟩
  | interrupt => exact ⟨rfl, rfl, id, nofun⟩
  | spoil => exact ⟨rfl, rfl, nofun, nofun⟩
  | handle _ _ hreacts hpasses =>
    rw [hpasses.keeps.standing]
    exact (hreacts.of_interrupted hi).silent
  | _ => exact .refl hi

theorem Move.calm {t u : Trial} (h : t.Move u) (hi : t.standing.verdict.interrupted = true) :
    Session.Calm t.standing u.standing [] :=
  h.changes.holds (P := fun s => Session.Calm t.standing s.standing [])
    (fun _ _ hs hc => hs.trans (hc.calm hs.interrupted)) (.refl hi)

theorem Scene.Change.of_starting {s s' : Scene} (h : s.Change s') (hp : s'.phase = .starting) :
    s.phase = .starting ∧ s'.script = s.script := by
  cases h with
  | work => exact ⟨hp, rfl⟩
  | interrupt => exact ⟨hp, rfl⟩
  | handle _ _ _ hpasses =>
    have hphase := hpasses.keeps.phase
    cases hphase.symm.trans hp
  | _ => cases hp

theorem Scene.Changes.of_starting {s s' : Scene} (h : s.Changes s') (hp : s'.phase = .starting) :
    s.phase = .starting ∧ s'.script = s.script := by
  induction h with
  | refl => exact ⟨hp, rfl⟩
  | tail _ hchange ih =>
    obtain ⟨hphase, hscript⟩ := hchange.of_starting hp
    obtain ⟨hphase', hscript'⟩ := ih hphase
    exact ⟨hphase', hscript.trans hscript'⟩

section Runs

variable {start t u : Trial} {handled : List HandledEvent}

theorem beginClosing_over (t : Trial) (escape : Option Escape) :
    (t.beginClosing escape).phase.over := by
  unfold beginClosing
  dsimp only
  split_ifs
  · cases escape <;> rfl
  · rfl

theorem start_phase (t : Trial) : t.start.phase = .serving ∨ t.start.phase.over := by
  unfold start
  split
  · exact .inl rfl
  · exact .inr (beginClosing_over _ _)

theorem breakDown_over (t : Trial) (b : Breakdown) : (t.breakDown b).phase.over := by
  unfold breakDown
  dsimp only
  split
  · rfl
  · rfl
  · exact beginClosing_over _ _

theorem runJob_phase (t : Trial) {job : Job} (hhost : job ≠ .host) :
    (t.runJob job).phase = t.phase ∨ (t.runJob job).phase.over := by
  unfold runJob
  split
  · exact absurd rfl hhost
  · refine .inl ?_
    unfold receiveSignal
    split_ifs <;> rfl
  · dsimp only
    split
    · exact .inl rfl
    · exact .inr (breakDown_over _ _)

theorem Phase.ne_waiting_of_over {p : Phase} (h : p.over) : p ≠ .waiting := by
  rintro rfl
  cases h

/-- An interrupted run loop hands nothing over, unless it has been waiting. -/
theorem Handles.of_interrupted (h : t.Handles handled u)
    (hi : t.standing.verdict.interrupted = true) (hp : t.phase ≠ .waiting) :
    handled = [] ∧ u.phase ≠ .waiting := by
  cases h with
  | serve hserving =>
    refine ⟨if_pos hi, ?_⟩
    rw [show t.serve = t.beginClosing none from if_pos hi]
    exact Phase.ne_waiting_of_over (t.beginClosing_over none)
  | host hl hjob =>
    refine ⟨if_neg hp, ?_⟩
    let e := t.mapTransport fun r => { r with ready := r.ready.erase .host }
    show e.hostTurn.phase ≠ .waiting
    unfold hostTurn
    rw [show e.phase = t.phase from rfl]
    cases hphase : t.phase with
    | starting =>
      rcases e.start_phase with hserving | hover
      · exact hserving ▸ nofun
      · exact Phase.ne_waiting_of_over hover
    | closing escape => cases escape <;> exact nofun
    | waiting => exact absurd hphase hp
    | serving => exact hp
    | ended result => exact hp
  | job hl hhost hjob =>
    refine ⟨rfl, ?_⟩
    rcases runJob_phase _ hhost with hsame | hover
    · rw [hsame]
      exact hp
    · exact Phase.ne_waiting_of_over hover
  | alarm => exact ⟨rfl, hp⟩

/-- A move that hands something over takes the event from the queue and handles it. -/
theorem Handles.takes (h : t.Handles handled u) : handled = [] ∨
    ∃ (v : Trial) (e : Event) (rest : List Event), handled = [⟨t, e⟩] ∧ u = v.takeEvent ∧
      v.transport.events = e :: rest ∧ v.scene = t.scene ∧ t.phase.looping := by
  have htakes {v : Trial} (hv : v.scene = t.scene) (hloop : t.phase.looping)
      (hu : u = v.takeEvent) : t.nextHandled = [] ∨
        ∃ (v : Trial) (e : Event) (rest : List Event), t.nextHandled = [⟨t, e⟩] ∧
          u = v.takeEvent ∧ v.transport.events = e :: rest ∧ v.scene = t.scene ∧
          t.phase.looping := by
    have hevents : v.transport.events = t.transport.events :=
      congrArg (fun s : Scene => s.view.events) hv
    cases he : t.transport.events with
    | nil => exact .inl (by simp [nextHandled, he])
    | cons e rest =>
      exact .inr ⟨v, e, rest, by simp [nextHandled, he], hu, hevents.trans he, hv, hloop⟩
  cases h with
  | serve hserving =>
    split_ifs with hi
    · exact .inl rfl
    · exact htakes rfl (by rw [hserving]; rfl) (if_neg hi)
  | host hl hjob =>
    split_ifs with hwaiting
    · let v := t.mapTransport fun r => { r with ready := r.ready.erase .host }
      have hturn : v.hostTurn = v.takeEvent := by
        rw [hostTurn, show v.phase = .waiting from hwaiting]
      exact htakes (v := v) rfl (by rw [hwaiting]; rfl) hturn
    · exact .inl rfl
  | job => exact .inl rfl
  | alarm => exact .inl rfl

theorem nextHandled_events (t : Trial) :
    t.nextHandled.map HandledEvent.event = t.transport.events.take 1 := by
  rw [nextHandled, List.map_map]
  exact List.map_id _

theorem hostJob_uses (hp : t.phase ≠ .starting) (hjob : .host ∈ t.transport.ready) :
    t.Uses ((t.mapTransport fun r => { r with ready := r.ready.erase .host }).runJob .host)
      (if t.phase = .waiting then t.transport.events.take 1 else []) := by
  let e := t.mapTransport fun r => { r with ready := r.ready.erase .host }
  have hturn : e.Uses e.hostTurn (if t.phase = .waiting then t.transport.events.take 1 else []) :=
    hostTurn_uses hp
  exact (t.job_uses hjob).trans hturn

theorem hostJob_begins (hp : t.phase = .starting) (hjob : .host ∈ t.transport.ready) :
    let u := (t.mapTransport fun r => { r with ready := r.ready.erase .host }).runJob .host
    t.Begins u ∧ u.phase ≠ .starting := by
  let e := t.mapTransport fun r => { r with ready := r.ready.erase .host }
  have hturn : e.runJob .host = e.start := by
    show e.hostTurn = e.start
    rw [hostTurn, show e.phase = .starting from hp]
  show t.Begins (e.runJob .host) ∧ (e.runJob .host).phase ≠ .starting
  rw [hturn]
  refine ⟨Begins.cons (t.job_uses hjob) e.start_begins rfl, ?_⟩
  rcases e.start_phase with hserving | hover
  · rw [hserving]
    nofun
  · rintro hstarting
    rw [hstarting] at hover
    cases hover

theorem Handles.course (h : t.Handles handled u) : ∃ course,
    Course t.transport course u.transport ∧
      course.flatMap Transition.taken = handled.map HandledEvent.event ∧
      Once t.script course ∧
      (t.phase ≠ .starting ∨ u.phase = .starting → ∀ m ∈ course, m.deed.plain) := by
  have hplain {taken : List Event} (huses : t.Uses u taken)
      (htaken : taken = handled.map HandledEvent.event) : ∃ course,
        Course t.transport course u.transport ∧
          course.flatMap Transition.taken = handled.map HandledEvent.event ∧
          Once t.script course ∧
          (t.phase ≠ .starting ∨ u.phase = .starting → ∀ m ∈ course, m.deed.plain) := by
    obtain ⟨course, hcourse, hall, hprompt⟩ := huses
    have hplain := fun m hm => Deed.plain_of_prompt (hprompt m hm)
    exact ⟨course, hcourse, hall.trans htaken, .never hplain, fun _ => hplain⟩
  cases h with
  | serve hserving =>
    refine hplain t.serve_uses ?_
    split_ifs
    · rfl
    · exact (nextHandled_events t).symm
  | host hl hjob =>
    by_cases hp : t.phase = .starting
    · obtain ⟨⟨course, hcourse, htaken, honce, -⟩, hstarted⟩ := hostJob_begins hp hjob
      refine ⟨course, hcourse, ?_, honce, fun h => (h.elim (absurd hp) (absurd · hstarted))⟩
      rw [htaken, if_neg (by rw [hp]; nofun)]
      rfl
    · refine hplain (hostJob_uses hp hjob) ?_
      split_ifs
      · exact (nextHandled_events t).symm
      · rfl
  | job _ hhost hjob => exact hplain (t.runJob_uses hhost hjob) rfl
  | @alarm timer _ htimer =>
    have hplain : ∀ m ∈ [(⟨t.transport, .alarm timer, t.transport.fire timer⟩ : Transition)],
        m.deed.plain := fun m hm => by rw [List.mem_singleton.1 hm]; rfl
    exact ⟨_, t.alarm_course htimer, rfl, .never hplain, fun _ => hplain⟩

/-- What happens to the transport in a run. What is taken from its queue is what is handed to the
session. -/
theorem Run.course (h : start.Run handled t) : ∃ course,
    Course start.transport course t.transport ∧
      course.flatMap Transition.taken = handled.map HandledEvent.event ∧
      Once start.script course := by
  suffices hall : ∃ course, Course start.transport course t.transport ∧
      course.flatMap Transition.taken = handled.map HandledEvent.event ∧ Once start.script course ∧
      (t.phase = .starting → t.script = start.script ∧ ∀ m ∈ course, m.deed.plain) by
    obtain ⟨course, hcourse, htaken, honce, -⟩ := hall
    exact ⟨course, hcourse, htaken, honce⟩
  induction h with
  | refl =>
    exact ⟨[], .nil, rfl, .never fun _ h => absurd h List.not_mem_nil,
      fun _ => ⟨rfl, fun _ h => absurd h List.not_mem_nil⟩⟩
  | @tail handled more t u _ hhandles ih =>
    obtain ⟨course, hcourse, htaken, honce, hstarting⟩ := ih
    have hback (hp : u.phase = .starting) : t.phase = .starting ∧ u.script = t.script :=
      hhandles.move.changes.of_starting hp
    obtain ⟨rest, hrest, htaken', honce', hplain'⟩ := hhandles.course
    refine ⟨course ++ rest, hcourse.append hrest, by simp [htaken, htaken'], ?_, fun hu => ?_⟩
    · by_cases hp : t.phase = .starting
      · obtain ⟨hscript, hplain⟩ := hstarting hp
        exact (hscript ▸ honce').cons hplain
      · exact honce.append (hplain' (.inl hp))
    · obtain ⟨hp, hscript⟩ := hback hu
      obtain ⟨hscript', hplain⟩ := hstarting hp
      exact ⟨hscript.trans hscript', fun m hm =>
        (List.mem_append.1 hm).elim (hplain m) (hplain' (.inr hu) m)⟩

theorem step_punctual (h : t.step = some u) :
    ∃ course, Course t.transport course u.transport ∧ Punctual course := by
  have hprompt {v : Trial} {taken : List Event} (huses : t.Uses v taken) :
      ∃ course, Course t.transport course v.transport ∧ Punctual course := by
    obtain ⟨course, hcourse, -, hprompt⟩ := huses
    exact ⟨course, hcourse, fun m hm => Transition.punctual_of_prompt (hprompt m hm)⟩
  unfold step at h
  split at h
  · cases h
  · obtain rfl := Option.some.inj h
    exact hprompt t.serve_uses
  · unfold Transport.nextJob? at h
    cases hready : t.transport.ready with
    | nil =>
      rw [hready] at h
      obtain ⟨timer, htimer, rfl⟩ := Option.map_eq_some_iff.1 h
      refine ⟨_, t.alarm_course (nextTimer?_mem htimer), fun m hm => ?_⟩
      rw [List.mem_singleton.1 hm]
      simp [Transition.punctual, hready, htimer]
    | cons job rest =>
      have hjob : job ∈ t.transport.ready := hready ▸ List.mem_cons_self
      rw [hready] at h
      obtain rfl := Option.some.inj h
      have herase : ({ t with transport := { t.transport with ready := rest } } : Trial) =
          t.mapTransport fun r => { r with ready := r.ready.erase job } := by
        simp [mapTransport, hready]
      rw [herase]
      by_cases hhost : job = .host
      · subst hhost
        by_cases hp : t.phase = .starting
        · obtain ⟨⟨course, hcourse, -, -, hpunctual⟩, -⟩ := hostJob_begins hp hjob
          exact ⟨course, hcourse, hpunctual⟩
        · exact hprompt (hostJob_uses hp hjob)
      · exact hprompt (t.runJob_uses hhost hjob)

/-- A trial that goes by its own clock lets a timer ring only when nothing else is to be done. -/
theorem runFor_punctual (n : Nat) (t : Trial) :
    ∃ course, Course t.transport course (t.runFor n).transport ∧ Punctual course := by
  induction n generalizing t with
  | zero => exact ⟨[], .nil, fun _ hm => absurd hm List.not_mem_nil⟩
  | succ n ih =>
    unfold runFor
    cases hstep : t.step with
    | none => exact ⟨[], .nil, fun _ hm => absurd hm List.not_mem_nil⟩
    | some u =>
      obtain ⟨first, hfirst, hpunctual⟩ := step_punctual hstep
      obtain ⟨rest, hrest, hpunctual'⟩ := ih u
      exact ⟨first ++ rest, hfirst.append hrest, hpunctual.append hpunctual'⟩

end Runs

end Trial

end BrokerTrial

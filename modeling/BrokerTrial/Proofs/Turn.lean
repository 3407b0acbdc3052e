import BrokerTrial.Proofs.Coupling

/-! The turns of a trial: what becomes of its scene when the session reacts to an event. With the
session and the transport in step there are fewer cases than the session has (`turn_of_reacts`), and
each of them keeps them in step, so they are in every state that a trial can come to
(`Possible.inStep`). So at most one thing is outstanding, and what is collected is what the session
has written. -/

namespace BrokerTrial

open Transport (View)

namespace Trial.Scene

open Session (Reacts)

/-- The scene when the next event has been handled, up to the requests. -/
def turned (s : Scene) (rest : List Event) (standing : Standing) : Scene :=
  { s.taken rest with standing }

def launched (s : Scene) (id : Nat) (task : Task) (reply : Reply) (script : Script) : Scene :=
  { s with view := s.view.start id task reply, script }

/-- What becomes of a scene in step when the session reacts to an event: no publish is rejected
but for the lack of a connection, and no acknowledgement comes out of turn. -/
inductive Turn (s : Scene) (rest : List Event) : Event → Scene → Prop
  | noted {e : Event} : e.Idle s.standing → Turn s rest e (s.taken rest)
  | established : Turn s rest .connectionEstablished ((s.taken rest).emit .writeOpportunity)
  | lost {e : Event} {reason : String} : e.loss? = some reason →
      s.standing.session.stage ≠ .finish →
      Turn s rest e ((s.turned rest (s.standing.failed reason)).emit .serviceCancelled)
  | rejected {reason : String} : s.standing.terminated = false → s.view.connected = false →
      Turn s rest .writeOpportunity
        ((s.turned rest (s.standing.failed reason)).emit .serviceCancelled)
  | subscribes (id : Nat) : s.standing.terminated = false → s.standing.session.stage = .subscribe →
      Turn s rest .writeOpportunity
        ((s.turned rest (s.standing.withSession
          { s.standing.session with subscribePending := true })).launched id
            (.subscribe s.plan.topics) s.script.drawSubscribe.1 s.script.drawSubscribe.2)
  | confirmed : s.standing.terminated = false → s.standing.session.stage = .subscribe →
      Turn s rest .subscribed
        ((s.turned rest (s.standing.withSession
          { s.standing.session with subscribePending := false, stage := .publishQos0 })).emit
            .writeOpportunity)
  | collects {qos : Int} {chunk : Chunk} : s.standing.terminated = false →
      s.standing.session.stage.publishQos? = some qos →
      s.plan.chunker.Piece s.standing.session.position chunk → chunk.final = false →
      Turn s rest .writeOpportunity
        ({ s.turned rest (s.standing.withSession { s.standing.session with
            position := s.standing.session.position + chunk.data.length }) with
          view := { s.view with events := rest, outgoing := s.view.outgoing ++ chunk.data } }.emit
            .writeOpportunity)
  | completes {qos : Int} {stage : Stage} (id : Nat) : s.standing.terminated = false →
      s.standing.session.stage.publishQos? = some qos →
      s.standing.session.stage.next? .advance = some stage →
      Turn s rest .writeOpportunity
        ({ s.turned rest (s.standing.withSession { s.standing.session with
            position := 0, stage }) with
          view := { s.view with events := rest, outgoing := [] } }.launched id
            (.publish s.plan.publishTopic qos s.plan.chunker.payload) s.script.drawPublish.1
            s.script.drawPublish.2)
  | acknowledged : s.standing.terminated = false → s.standing.session.stage = .waitAck0 →
      Turn s rest .acknowledged
        ((s.turned rest (s.standing.withSession { s.standing.session with
          stage := .publishQos1, resends := 0, position := 0 })).emit .writeOpportunity)
  | finished : s.standing.terminated = false → s.standing.session.stage = .waitAck1 →
      Turn s rest .acknowledged
        ((s.turned rest ⟨{ s.standing.session with stage := .finish },
          s.standing.verdict.succeed⟩).emit .serviceCancelled)
  | resends {attempt : Int} : s.standing.terminated = false →
      s.standing.session.stage = .waitAck1 →
      s.plan.limit.allows (s.standing.session.resends + 1) →
      Turn s rest (.resendRequested attempt)
        ((s.turned rest (s.standing.withSession { s.standing.session with
          resends := s.standing.session.resends + 1, stage := .publishQos1, position := 0 })).emit
            .writeOpportunity)
  | givesUp {attempt : Int} {reason : String} : s.standing.terminated = false →
      s.standing.session.stage = .waitAck1 →
      Turn s rest (.resendRequested attempt)
        ((s.turned rest ((s.standing.withSession { s.standing.session with
          resends := s.standing.session.resends + 1 }).failed reason)).emit .serviceCancelled)

variable {s s' : Scene}

/-- A chunk that is written joins what was collected, or completes the payload. -/
theorem publishes_turn {rest : List Event} {standing : Standing} {chunk : Chunk} {qos : Int}
    {requests : List Request} (h : Coupled s.plan s.standing.session s.view)
    (hc : s.plan.chunker.chunkAt s.standing.session.position = .ok chunk)
    (hpass : (s.turned rest standing).PassesAll
      (.publish ⟨s.plan.publishTopic, qos, s.plan.chunker.total, chunk.final⟩ chunk.data ::
        requests) s') :
    (s.view.connected = false ∧ (s.turned rest standing).PassesAll requests s') ∨
    (s.view.connected = true ∧ chunk.final = false ∧ PassesAll { s.turned rest standing with
      view := { s.view with events := rest, outgoing := s.view.outgoing ++ chunk.data } }
        requests s') ∨
    ∃ id, s.view.connected = true ∧ chunk.final = true ∧ PassesAll ({ s.turned rest standing with
      view := { s.view with events := rest, outgoing := [] } }.launched id
        (.publish s.plan.publishTopic qos s.plan.chunker.payload) s.script.drawPublish.1
          s.script.drawPublish.2) requests s' := by
  have hp := Chunker.piece_of_chunkAt hc
  have haccepts : (s.turned rest standing).view.accepts
      (.publish ⟨s.plan.publishTopic, qos, s.plan.chunker.total, chunk.final⟩ chunk.data) =
        s.view.connected :=
    (Coupled.accepts_events s.view rest _).trans (h.accepts_publish hc s.plan.publishTopic qos)
  obtain ⟨u, hpasses, hrest⟩ := hpass.of_cons
  cases hpasses with
  | publish hpub =>
    have haccepted := hpub.accepted.trans haccepts
    cases hpub with
    | refused hn => exact .inl ⟨hn, hrest⟩
    | overflows hy _ => exact absurd (haccepted.trans hy) nofun
    | short hy _ _ => exact absurd (haccepted.trans hy) nofun
    | collects hy _ hf =>
      have hf : chunk.final = false := hf
      simp only [hf, Bool.and_false, Bool.false_eq_true, if_false] at hrest
      exact .inr (.inl ⟨hy, hf, hrest⟩)
    | starts id hy hf _ =>
      have hf : chunk.final = true := hf
      have hpayload : s.view.outgoing ++ chunk.data = s.plan.chunker.payload := by
        rw [h.collected, hp.joins, hp.final_iff.1 hf]
        exact List.take_length
      have hview : (s.turned rest standing).view.outgoing ++ chunk.data = s.plan.chunker.payload :=
        hpayload
      simp only [hf, hview, Bool.and_true, if_true] at hrest
      exact .inr (.inr ⟨id, hy, hf, hrest⟩)

/-- A reaction of the session to the next event is a turn of the scene. -/
theorem turn_of_reacts {e : Event} {rest : List Event} {standing : Standing}
    {requests : List Request} (h : Coupled s.plan s.standing.session s.view)
    (he : s.view.events = e :: rest)
    (hr : Reacts s.plan s.view.accepts s.standing e standing requests)
    (hpass : (s.turned rest standing).PassesAll requests s') : s.Turn rest e s' := by
  have htimely : e.Timely s.standing.session := h.timely e (by simp [he])
  cases hr with
  | idle hidle =>
    rw [hpass.of_nil]
    exact .noted hidle
  | established =>
    rw [hpass.of_singleton.of_write]
    exact .established
  | lost hloss hstage =>
    rw [hpass.of_singleton.of_cancel]
    exact .lost hloss hstage
  | subscribes ht hs hp ha =>
    have hpasses := hpass.of_singleton
    cases hpasses with
    | subscribe hsub =>
      cases hsub with
      | refused hn => exact absurd (ha.symm.trans hn) nofun
      | starts id hy => exact .subscribes id ht hs
  | subscribeRejected ht hs hp ha =>
    obtain ⟨u, hpasses, hrest⟩ := hpass.of_cons
    cases hpasses with
    | subscribe hsub =>
      cases hsub with
      | refused hn =>
        rw [hrest.of_singleton.of_cancel]
        exact .rejected ht hn
      | starts id hy => exact absurd (ha.symm.trans hy) nofun
  | confirmed ht hs hp =>
    rw [hpass.of_singleton.of_write]
    exact .confirmed ht hs
  | publishes ht hq hc ha hne =>
    have hp := Chunker.piece_of_chunkAt hc
    rw [h.accepts_publish hc] at ha
    rcases publishes_turn h hc hpass with
      ⟨hn, -⟩ | ⟨-, hf, hrest⟩ | ⟨id, -, hf, -⟩
    · exact absurd (ha.symm.trans hn) nofun
    · rw [hrest.of_singleton.of_write]
      exact .collects ht hq hp hf
    · exact absurd (hp.final_iff.1 hf) hne
  | completes ht hq hc ha hend hnext =>
    have hp := Chunker.piece_of_chunkAt hc
    rw [h.accepts_publish hc] at ha
    rcases publishes_turn h hc hpass with
      ⟨hn, -⟩ | ⟨-, hf, -⟩ | ⟨id, -, hf, hrest⟩
    · exact absurd (ha.symm.trans hn) nofun
    · exact absurd (hf.symm.trans (hp.final_iff.2 hend)) nofun
    · rw [hrest.of_nil]
      exact .completes id ht hq hnext
  | publishRejected ht hq hc ha =>
    rw [h.accepts_publish hc] at ha
    rcases publishes_turn h hc hpass with
      ⟨-, hrest⟩ | ⟨hy, -, -⟩ | ⟨id, hy, -, -⟩
    · rw [hrest.of_singleton.of_cancel]
      exact .rejected ht ha
    · exact absurd (ha.symm.trans hy) nofun
    · exact absurd (ha.symm.trans hy) nofun
  | acknowledged ht hnext hq =>
    rw [hpass.of_singleton.of_write]
    rcases htimely with hs | hs
    · rw [hs] at hnext
      obtain rfl := Option.some.inj hnext
      exact .acknowledged ht hs
    · rw [hs] at hnext
      obtain rfl := Option.some.inj hnext
      simp [Stage.publishQos?] at hq
  | skipped ht hnext hne hq =>
    rcases htimely with hs | hs
    · rw [hs] at hnext
      obtain rfl := Option.some.inj hnext
      simp [Stage.publishQos?] at hq
    · rw [hs] at hnext
      exact absurd (Option.some.inj hnext).symm hne
  | finished ht hs =>
    rw [hpass.of_singleton.of_cancel]
    exact .finished ht hs
  | resends ht hs ha =>
    rw [hpass.of_singleton.of_write]
    exact .resends ht hs ha
  | givesUp ht hs ha =>
    rw [hpass.of_singleton.of_cancel]
    exact .givesUp ht hs

theorem turn_coupled {e : Event} {rest : List Event}
    (h : Coupled s.plan s.standing.session s.view) (he : s.view.events = e :: rest)
    (ht : s.Turn rest e s') : Coupled s'.plan s'.standing.session s'.view := by
  have htaken := h.taken he
  have h0 : e.ofWorkflow = true → ({ s.view with events := rest } : View).outstanding = 0 :=
    h.taken_outstanding he
  have htimely : e.Timely s.standing.session := h.timely e (by simp [he])
  have hstart : s.standing.session.stage.publishQos? = none → s.standing.session.position = 0 :=
    h.at_start
  have hpos := h.nonneg
  have hin := h.inside
  cases ht with
  | noted _ => exact htaken
  | established => exact htaken.write (h0 rfl) htimely
  | lost _ _ => exact htaken.cancel
  | rejected _ _ => exact htaken.cancel
  | subscribes id hn hs =>
    have hmoved : Coupled s.plan { s.standing.session with subscribePending := true }
        { s.view with events := rest } := htaken.move_stage (h0 rfl) rfl hstart
    exact hmoved.start (h0 rfl) (by simp [Session.awaited?, hs]) id s.script.drawSubscribe.1
  | confirmed hn hs =>
    have hmoved : Coupled s.plan
        { s.standing.session with subscribePending := false, stage := .publishQos0 }
        { s.view with events := rest } := htaken.move_stage (h0 rfl) rfl nofun
    exact hmoved.write (h0 rfl) rfl
  | collects hn hq hp hf =>
    rename_i qos chunk
    have hne : ¬ s.standing.session.position + chunk.data.length = s.plan.chunker.total :=
      fun hend => absurd (hf.symm.trans (hp.final_iff.2 hend)) nofun
    have hle := hp.le_total
    have hjoins : s.view.outgoing ++ chunk.data = s.plan.chunker.payload.take
        (s.standing.session.position + chunk.data.length).toNat := by
      rw [h.collected]
      exact hp.joins
    have hmoved : Coupled s.plan
        { s.standing.session with position := s.standing.session.position + chunk.data.length }
        { s.view with events := rest, outgoing := s.view.outgoing ++ chunk.data } := by
      refine htaken.move (h0 rfl) ?_ ?_ ?_ hjoins
      · exact Int.add_nonneg hpos (Int.natCast_nonneg _)
      · exact lt_of_le_of_ne hle hne
      · intro hnone
        exact absurd (hnone.symm.trans hq) nofun
    exact hmoved.write (h0 rfl) htimely
  | completes id hn hq hnext =>
    rename_i qos stage
    have hmoved : Coupled s.plan { s.standing.session with position := 0, stage }
        { s.view with events := rest, outgoing := [] } :=
      htaken.move (h0 rfl) le_rfl (hpos.trans_lt hin) (fun _ => rfl) rfl
    have hawaited : ({ s.standing.session with position := 0, stage } : Session).awaited? s.plan =
        some (.publish s.plan.publishTopic qos s.plan.chunker.payload) :=
      Session.awaited_of_publish hq hnext
    exact hmoved.start (h0 rfl) hawaited id s.script.drawPublish.1
  | acknowledged hn hs =>
    have hzero := hstart (by rw [hs]; rfl)
    have hmoved : Coupled s.plan
        { s.standing.session with stage := .publishQos1, resends := 0, position := 0 }
        { s.view with events := rest } := htaken.move_stage (h0 rfl) hzero.symm fun _ => hzero
    exact hmoved.write (h0 rfl) rfl
  | finished hn hs =>
    have hzero := hstart (by rw [hs]; rfl)
    have hmoved : Coupled s.plan { s.standing.session with stage := .finish }
        { s.view with events := rest } := htaken.move_stage (h0 rfl) rfl fun _ => hzero
    exact hmoved.cancel
  | resends hn hs ha =>
    have hzero := hstart (by rw [hs]; rfl)
    have hmoved : Coupled s.plan { s.standing.session with
          resends := s.standing.session.resends + 1, stage := .publishQos1, position := 0 }
        { s.view with events := rest } := htaken.move_stage (h0 rfl) hzero.symm fun _ => hzero
    exact hmoved.write (h0 rfl) rfl
  | givesUp hn hs =>
    have hmoved : Coupled s.plan
        { s.standing.session with resends := s.standing.session.resends + 1 }
        { s.view with events := rest } := htaken.move_stage (h0 rfl) rfl hstart
    exact hmoved.cancel

theorem Turn.link_eq {e : Event} {rest : List Event} (h : s.Turn rest e s') :
    s'.view.link = s.view.link := by
  cases h <;> rfl

/-- Before the connection has come up, an event can only be noted or end the run. -/
theorem turn_untouched {e : Event} {rest : List Event} (he : s.view.events = e :: rest)
    (h0 : s.standing.session = {} ∧ s.view.outstanding = 0) (ht : s.Turn rest e s') :
    s'.standing.session = {} ∧ s'.view.outstanding = 0 := by
  obtain ⟨hsession, hcount⟩ := h0
  have hplain : e.ofWorkflow = false := (View.outstanding_eq_zero hcount).2 e (by simp [he])
  have hrest : ({ s.view with events := rest } : View).outstanding = 0 := by
    simp only [View.outstanding, he, List.countP_cons] at hcount ⊢
    omega
  cases ht with
  | noted _ => exact ⟨hsession, hrest⟩
  | lost _ _ => exact ⟨hsession, (View.outstanding_emit _ _).trans hrest⟩
  | _ => cases hplain

structure InStep (s : Scene) : Prop where
  coupled : Coupled s.plan s.standing.session s.view
  untouched : s.phase.live → s.view.Unlinked → s.standing.session = {} ∧ s.view.outstanding = 0

theorem InStep.close (h : s.InStep) {w : View} (hw : s.view.Cancelled w) (hl : s.phase.live)
    (phase : Phase) : InStep { s with phase, view := w } := by
  refine ⟨h.coupled.cancelled hw, fun _ hu => ?_⟩
  have hv : s.view.Unlinked := by
    intro l hlink
    rcases hw.link with hsame | ⟨l', hl', hcancelled⟩
    · exact hu l (hsame.trans hlink)
    · obtain rfl := Option.some.inj (hl'.symm.trans hlink)
      exact hu { l' with cancelled := true } hcancelled
  obtain ⟨hsession, hcount⟩ := h.untouched hl hv
  refine ⟨hsession, ?_⟩
  rw [← hcount, View.outstanding, hw.length_eq, hw.others]
  rfl

theorem InStep.taken (h : s.InStep) {e : Event} {rest : List Event}
    (he : s.view.events = e :: rest) (hl : s.phase.live) : InStep (s.taken rest) := by
  refine ⟨h.coupled.taken he, fun _ hu => ?_⟩
  obtain ⟨hsession, hcount⟩ := h.untouched hl hu
  refine ⟨hsession, ?_⟩
  simp only [View.outstanding, he, List.countP_cons] at hcount
  simp only [Scene.taken, View.outstanding]
  omega

theorem InStep.change (h : s.InStep) (hc : s.Change s') : s'.InStep := by
  cases hc with
  | work hl hwork =>
    obtain ⟨hcoupled, huntouched⟩ := h.coupled.change (h.untouched hl) hwork
    exact ⟨hcoupled, fun _ => huntouched⟩
  | connect hp hgate hnone =>
    refine ⟨h.coupled.withLink nofun, fun _ _ => ?_⟩
    exact h.untouched (by rw [hp]; rfl) (by simp [View.Unlinked, hnone])
  | refuse hp hgate => exact ⟨h.coupled, fun _ => h.untouched (by rw [hp]; rfl)⟩
  | raise hp hgate => exact ⟨h.coupled, fun _ => h.untouched (by rw [hp]; rfl)⟩
  | skip hp hgate => exact ⟨h.coupled, fun _ => h.untouched (by rw [hp]; rfl)⟩
  | interrupt hl =>
    refine ⟨h.coupled.cancel, fun _ hu => ?_⟩
    obtain ⟨hsession, hcount⟩ := h.untouched hl hu
    exact ⟨hsession, (View.outstanding_emit _ _).trans hcount⟩
  | wait hp he => exact ⟨h.coupled, fun _ => h.untouched (Phase.live_of_looping hp)⟩
  | handle hp he hr hpass =>
    have hturn := turn_of_reacts h.coupled he hr hpass
    refine ⟨turn_coupled h.coupled he hturn, fun _ hu => ?_⟩
    have hlink := hturn.link_eq
    refine turn_untouched he (h.untouched (Phase.live_of_looping hp) ?_) hturn
    intro l hl
    exact hu l (hlink.trans hl)
  | spoil hp he =>
    have htaken := h.taken he (Phase.live_of_looping hp)
    exact ⟨htaken.coupled, fun _ => htaken.untouched rfl⟩
  | overrun hp he hraises =>
    have htaken := h.taken he (Phase.live_of_looping hp)
    exact ⟨htaken.coupled, fun _ => htaken.untouched rfl⟩
  | close hl hw => exact h.close hw hl _
  | finish hp => exact ⟨h.coupled.unlink, nofun⟩
  | crash hl => exact ⟨h.coupled, nofun⟩

end Trial.Scene

namespace Trial

theorem Scene.inStep_initial (plan : Session.Plan) (script : Script) :
    (Scene.initial plan script).InStep := by
  have hpos := List.length_pos_iff.2 plan.chunker.payload_ne_nil
  refine ⟨?_, fun _ _ => ⟨rfl, rfl⟩⟩
  exact {
    at_most_one := Nat.zero_le 1
    timely := by simp [Scene.initial]
    tasks := by simp [Scene.initial]
    nonneg := le_rfl
    inside := Int.natCast_pos.2 hpos
    at_start := fun _ => rfl
    collected := rfl
    whole := by simp [Scene.initial]
    up := by simp [Scene.initial] }

theorem Scene.Change.plan_eq {s s' : Scene} (h : s.Change s') : s'.plan = s.plan := by
  cases h with
  | handle _ _ _ hpass => exact hpass.keeps.plan
  | _ => rfl

section Possible

variable {settings : Settings} {script : Script} {signals : List Signal} {t : Trial}

theorem Possible.plan_eq (h : (ofSettings settings script signals).Possible t) :
    t.plan = settings.plan :=
  h.scene_of (P := fun s => s.plan = settings.plan) (fun _ _ hs hc => hc.plan_eq.trans hs) rfl

/-- What holds of a scene that is about to start, and behind each change of a scene in step if it
held before, holds in every state that a trial can come to. -/
theorem Possible.scene_of_inStep {P : Scene → Prop}
    (h : (ofSettings settings script signals).Possible t)
    (hstep : ∀ s s' : Scene, s.InStep → P s → s.Change s' → P s')
    (hinitial : P (Scene.initial settings.plan script)) : t.scene.InStep ∧ P t.scene := by
  have hstart := And.intro (Scene.inStep_initial settings.plan script) hinitial
  rw [← scene_ofSettings settings script signals] at hstart
  refine h.scene_of (P := fun s => s.InStep ∧ P s) ?_ hstart
  rintro s s' ⟨hs, hp⟩ hc
  exact ⟨hs.change hc, hstep s s' hs hp hc⟩

/-- Session and transport are in step in every state that a trial can come to. -/
theorem Possible.inStep (h : (ofSettings settings script signals).Possible t) :
    t.scene.InStep :=
  (h.scene_of_inStep (P := fun _ => True) (fun _ _ _ _ _ => trivial) trivial).1

/-- In whatever order jobs and timers come: of all events that move the workflow on, queued or to
come from an operation under way, there is at most one. So an acknowledgement and a request to
resend are taken while the session waits for a publish, and a confirmation while it subscribes. -/
theorem at_most_one_outstanding (h : (ofSettings settings script signals).Possible t) :
    t.transport.events.countP Event.ofWorkflow + t.transport.operations.length ≤ 1 ∧
      ∀ e rest, t.transport.events = e :: rest →
        (e = .acknowledged → t.standing.stage = .waitAck0 ∨ t.standing.stage = .waitAck1) ∧
        (∀ attempt, e = .resendRequested attempt →
          t.standing.stage = .waitAck0 ∨ t.standing.stage = .waitAck1) ∧
        (e = .subscribed →
          t.standing.stage = .subscribe ∧ t.standing.session.subscribePending = true) := by
  have hcoupled := h.inStep.coupled
  refine ⟨hcoupled.at_most_one, ?_⟩
  intro e rest he
  have htimely : e.Timely t.standing.session :=
    hcoupled.timely e (by rw [show t.scene.view.events = e :: rest from he]; simp)
  refine ⟨?_, ?_, ?_⟩
  · rintro rfl
    exact htimely
  · rintro attempt rfl
    exact htimely
  · rintro rfl
    exact htimely

/-- The acknowledgement of the first publish has come, and nothing else is outstanding. -/
theorem one_acknowledgement_outstanding :
    ∃ settings t, Settings.ofConfig [1, 2, 3] (.mapping []) false = .ok settings ∧
      (ofSettings settings {} []).Possible t ∧ t.transport.events = [.acknowledged] ∧
      t.transport.events.countP Event.ofWorkflow + t.transport.operations.length ≤ 1 ∧
      (t.standing.stage = .waitAck0 ∨ t.standing.stage = .waitAck1) := by
  refine ⟨_, _, rfl, possible_runFor 11 (ofSettings _ {} []), rfl, ?_, ?_⟩
  · exact (at_most_one_outstanding (possible_runFor 11 _)).1
  · exact ((at_most_one_outstanding (possible_runFor 11 _)).2 _ _ rfl).1 rfl

theorem mem_history_of_mem_calls {r : Transport} {call : ClientCall} (h : call ∈ r.calls) :
    ∃ id, .called id call ∈ r.history := by
  obtain ⟨m, hm, hcall⟩ := List.mem_filterMap.1 h
  cases m with
  | called id c =>
    obtain rfl := Option.some.inj hcall
    exact ⟨id, List.mem_filter.2 ⟨hm, rfl⟩⟩
  | _ => cases hcall

/-- While a session publishes, the connection has come up; without it, it has been lost. -/
theorem Scene.InStep.lost {s : Scene} (h : s.InStep) (hl : s.phase.live) {qos : Int}
    (hq : s.standing.session.stage.publishQos? = some qos) (hc : s.view.connected = false) :
    ∃ l, s.view.link = some l ∧ l.phase = .ended := by
  have hlinked : ¬ s.view.Unlinked := by
    intro hu
    rw [(h.untouched hl hu).1] at hq
    cases hq
  obtain ⟨l, hlink, hopening⟩ : ∃ l, s.view.link = some l ∧ ¬ l.phase.opening := by
    simpa [View.Unlinked] using hlinked
  have hup : ¬ l.phase.up := fun hup => absurd (hc.symm.trans (h.coupled.up l hlink hup)) nofun
  refine ⟨l, hlink, ?_⟩
  cases hp : l.phase <;> simp_all [LinkPhase.opening, LinkPhase.up]

/-- What is collected for a publish is what the session has written of it, for every payload and
every size of chunks. So every publish has the whole payload, and as long as the trial goes on, what
a session writes is taken unless the connection has been lost. -/
theorem collected_as_written (h : (ofSettings settings script signals).Possible t) :
    0 ≤ t.standing.session.position ∧
    t.transport.outgoing = settings.chunker.payload.take t.standing.session.position.toNat ∧
    (∀ topic qos data, .publish topic qos data ∈ t.transport.calls →
      data = settings.chunker.payload) ∧
    ∀ e p data, t.phase.live →
      .request (.publish p data) ∈ (Session.handle t.plan t.accepts t.standing e).effects →
      t.accepts (.publish p data) = t.transport.connected ∧
      (t.accepts (.publish p data) = false →
        ∃ l, t.transport.link = some l ∧ l.phase = .ended) := by
  have hstep := h.inStep
  have hcoupled := hstep.coupled
  have hpayload : t.plan.chunker.payload = settings.chunker.payload := by
    rw [h.plan_eq]
    rfl
  refine ⟨hcoupled.nonneg, ?_, ?_, ?_⟩
  · rw [← hpayload]
    exact hcoupled.collected
  · intro topic qos data hcall
    obtain ⟨id, hid⟩ := mem_history_of_mem_calls hcall
    rw [← hpayload]
    exact hcoupled.whole id topic qos data hid
  · intro e p data hl hrequest
    obtain ⟨qos, chunk, hq, hc, rfl, rfl⟩ := Session.publish_of_handle hrequest
    have haccepts := (accepts_eq t _).trans (hcoupled.accepts_publish hc t.plan.publishTopic qos)
    refine ⟨haccepts, fun hrejected => ?_⟩
    exact hstep.lost hl hq (haccepts.symm.trans hrejected)

/-- One of two chunks has been written, and the other one will be taken. -/
theorem half_collected :
    ∃ settings t, Settings.ofConfig [1, 2, 3]
        (.mapping [(.str "publish", .mapping [(.str "chunk_size", .int 2)])]) false = .ok settings ∧
      (ofSettings settings {} []).Possible t ∧ t.standing.session.position = 2 ∧
      t.transport.outgoing = settings.chunker.payload.take t.standing.session.position.toNat ∧
      t.accepts (.publish ⟨t.plan.publishTopic, 0, 3, true⟩ [3]) = t.transport.connected := by
  refine ⟨_, _, rfl, possible_runFor 9 (ofSettings _ {} []), rfl, ?_, ?_⟩
  · exact (collected_as_written (possible_runFor 9 _)).2.1
  · exact ((collected_as_written (possible_runFor 9 _)).2.2.2 .writeOpportunity _ _ rfl
      (.tail _ (.head _))).1

end Possible

end Trial

end BrokerTrial

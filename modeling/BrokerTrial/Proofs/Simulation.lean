import BrokerTrial.Proofs.Scene
import BrokerTrial.Proofs.Work

/-! Every move of a trial is a sequence of changes of its scene (`Move.changes`). The host's part is
followed function by function; what the background does comes from `runJob_changes`. -/

namespace BrokerTrial

namespace Trial

open Transport (View)

section Requests

variable (t : Trial)

@[simp] theorem scene_log (entry : Log.Entry) : (t.log entry).scene = t.scene := by
  simp [scene, log, mapTransport]

@[simp] theorem scene_logAll (entries : List Log.Entry) :
    (t.logAll entries).scene = t.scene := by
  simp [scene, logAll, mapTransport]

theorem accepts_eq (r : Request) : t.accepts r = t.transport.view.accepts r := by
  cases r with
  | write => rfl
  | cancel => rfl
  | subscribe topics => exact (t.transport.sendSubscribe_sends topics {}).accepted
  | publish p chunk => exact (t.transport.sendPublish_sends p chunk {}).accepted

theorem pass_passes (r : Request) : t.scene.Passes r (t.pass r).scene := by
  cases r with
  | write =>
    have h : (t.pass .write).scene = t.scene.emit .writeOpportunity := by
      simp [scene, pass, mapTransport, Transport.requestWrite, Scene.emit]
    rw [h]
    exact .write
  | cancel =>
    have h : (t.pass .cancel).scene = t.scene.emit .serviceCancelled := by
      simp [scene, pass, mapTransport, Transport.cancelService, Scene.emit]
    rw [h]
    exact .cancel
  | subscribe topics =>
    exact .subscribe (t.transport.sendSubscribe_sends topics t.script.drawSubscribe.1)
  | publish p chunk =>
    exact .publish (t.transport.sendPublish_sends p chunk t.script.drawPublish.1)

/-- Of the effects of a reaction, the scene shows the requests. -/
theorem perform_passes (effects : List Effect) :
    t.scene.PassesAll (Effect.requests effects) (effects.foldl perform t).scene := by
  induction effects generalizing t with
  | nil => exact .nil
  | cons effect rest ih =>
    rw [List.foldl_cons]
    have h := ih (t.perform effect)
    cases effect with
    | log entry => exact scene_log t entry ▸ h
    | deliver topic payload => exact scene_logAll t (messageEntries topic payload) ▸ h
    | request r => exact .cons (pass_passes t r) h

end Requests

namespace Scene

theorem work_changes {s : Scene} {view : View} (hl : s.phase.live) (h : s.view.Changes view) :
    s.Changes { s with view } :=
  Relation.ReflTransGen.lift (p := Change) (fun view => { s with view })
    (fun _ _ hc => Change.work hl hc) _ _ h

end Scene

section Host

variable {t : Trial}

theorem finish_changes {escape : Option Escape} (hp : t.phase = .closing escape) :
    t.scene.Changes (t.finish escape).scene := by
  have h := (Scene.Change.finish (s := t.scene) hp).changes
  unfold finish
  cases escape with
  | some e => simpa [scene, mapTransport, Scene.outcome] using h
  | none => simpa [scene, log, mapTransport, Scene.outcome] using h

theorem beginClosing_changes (hl : t.phase.live) (escape : Option Escape) :
    t.scene.Changes (t.beginClosing escape).scene := by
  have hclose : t.scene.Changes
      { t.scene with phase := .closing escape, view := t.transport.beginClose.view } :=
    (Scene.Change.close hl t.transport.beginClose_cancelled).changes
  unfold beginClosing
  dsimp only
  split_ifs
  · let u : Trial := { t.mapTransport ({ ·.beginClose with hostWaits := false }) with
      phase := .closing escape, handlesSignals := false }
    have hfinish : u.scene.Changes (u.finish escape).scene := finish_changes rfl
    exact hclose.trans hfinish
  · exact hclose

/-- Notices that cannot open the gate are only logged. -/
theorem follow_shut (t : Trial) {notices : List (Lifecycle.Notice Unit)}
    (h : ∀ current target, .tell () current target ∈ notices → current ≠ .operational)
    (rest : List (Lifecycle.Notice Unit)) :
    ∃ u : Trial, u.scene = t.scene ∧ t.follow (notices ++ rest) = u.follow rest := by
  induction notices generalizing t with
  | nil => exact ⟨t, rfl, rfl⟩
  | cons notice more ih =>
    have hmore (current target : BrokerTrial.Phase) (hm : .tell () current target ∈ more) :
        current ≠ .operational :=
      h current target (List.mem_cons_of_mem _ hm)
    cases notice with
    | log entry =>
      obtain ⟨u, hu, hfollow⟩ := ih (t.log entry) hmore
      exact ⟨u, hu.trans (scene_log t entry), hfollow⟩
    | tell listener current target =>
      obtain ⟨u, hu, hfollow⟩ := ih t hmore
      have hshut : ¬ t.gate.opensAt current target := by
        simp [Gate.opensAt, h current target List.mem_cons_self]
      refine ⟨u, hu, ?_⟩
      rw [List.cons_append, follow, if_neg hshut, hfollow]

theorem startNotices_eq : ∃ notices : List (Lifecycle.Notice Unit),
    startNotices = notices ++ [.tell () .operational .operational] ∧
      ∀ current target, .tell () current target ∈ notices → current ≠ .operational := by
  refine ⟨startNotices.dropLast, rfl, ?_⟩
  intro current target h hcurrent
  subst hcurrent
  simp [startNotices, Phase.all, Lifecycle.noticesIn] at h

theorem connect_view (r : Transport) (c : Connection) (script : Script) :
    ((r.connect c script).2 = .accepted → r.link = none ∧
        (r.connect c script).1.view = r.view.withLink script.link) ∧
      ((r.connect c script).2 ≠ .accepted → (r.connect c script).1.view = r.view) := by
  unfold Transport.connect
  split_ifs with hlink
  · simp
  · have hnone : r.link = none := by simpa using hlink
    split
    · simp
    · split
      · simp
      · simp
      · split
        · simp
        · split
          · split_ifs <;> simp
          · refine ⟨fun _ => ⟨hnone, ?_⟩, fun h => absurd rfl h⟩
            exact congrArg (View.withLink · script.link) (Transport.view_built r _)

theorem requestConnection_scene (t : Trial) :
    (∃ u, t.requestConnection = (u, none) ∧ t.transport.link = none ∧
        u.scene = { t.scene with view := t.transport.view.withLink t.script.link }) ∨
      (∃ u reason, t.requestConnection = (u, none) ∧
        u.scene = { t.scene with standing := t.standing.failed reason }) ∨
      ∃ u e, t.requestConnection = (u, some e) ∧ u.scene = t.scene := by
  let l := t.log t.connection.announcement
  have hl : l.transport.view = t.transport.view := Transport.view_log _ _
  obtain ⟨haccepted, hother⟩ := connect_view l.transport l.connection l.script
  unfold requestConnection
  cases hr : l.transport.connect l.connection l.script with
  | mk transport answer =>
    rw [hr, hl] at haccepted hother
    have hscene {view : View} (h : transport.view = view) :
        { l with transport : Trial }.scene = { t.scene with view } :=
      congrArg (fun view => { t.scene with view }) h
    dsimp only [l] at hr
    simp only [hr]
    cases answer with
    | accepted =>
      obtain ⟨hnone, hview⟩ := haccepted rfl
      exact .inl ⟨_, rfl, hnone, hscene hview⟩
    | rejected =>
      let failed : Standing := t.standing.failed "connect request rejected by transport"
      refine .inr (.inl ⟨_, "connect request rejected by transport", rfl, ?_⟩)
      rw [scene_logAll]
      exact congrArg (fun view => (⟨t.plan, t.script, failed, t.gate, t.phase, view⟩ : Scene))
        (hother nofun)
    | raised e => exact .inr (.inr ⟨_, _, rfl, hscene (hother nofun)⟩)

theorem start_changes (hp : t.phase = .starting) : t.scene.Changes t.start.scene := by
  obtain ⟨notices, hnotices, hshut⟩ := startNotices_eq
  obtain ⟨u, hu, hfollow⟩ := follow_shut { t with handlesSignals := true } hshut
    [.tell () .operational .operational]
  have hscene : u.scene = t.scene := hu
  have hup : u.scene.phase = .starting := by rw [hscene]; exact hp
  rw [← hscene]
  unfold start
  rw [hnotices, hfollow]
  unfold follow
  split_ifs with hgate
  · have hshut : u.gate.opened = false := by simpa [Gate.opensAt] using hgate
    have hopen : u.gate.notify .operational .operational = ⟨true⟩ := by
      simp only [Gate.notify, if_pos hgate]
    rw [hopen]
    rcases requestConnection_scene { u with gate := ⟨true⟩ } with
      ⟨v, hv, hnone, hscene⟩ | ⟨v, reason, hv, hscene⟩ | ⟨v, e, hv, hscene⟩
    · have h := (Scene.Change.connect hup hshut hnone).changes
      have hv' := congrArg (fun s : Scene => { s with phase := .serving }) hscene
      rw [hv]
      exact Eq.subst (motive := u.scene.Changes) hv'.symm h
    · have h : u.scene.Changes { u.scene with
          phase := .serving, gate := ⟨true⟩, standing := u.scene.standing.failed reason } :=
        (Scene.Change.refuse hup hshut).changes
      have hv' := congrArg (fun s : Scene => { s with phase := .serving }) hscene
      rw [hv]
      exact Eq.subst (motive := u.scene.Changes) hv'.symm h
    · have hraise := (Scene.Change.raise (e := e) hup hshut).changes
      let w : Trial := { v with phase := .closing (some e) }
      have hw : w.scene = { u.scene with phase := .closing (some e), gate := ⟨true⟩ } :=
        congrArg (fun s : Scene => { s with phase := .closing (some e) }) hscene
      have hclose : w.scene.Changes (w.beginClosing (some e)).scene := beginClosing_changes rfl _
      rw [hv]
      exact hraise.trans (hw ▸ hclose)
  · have hopened : u.gate.opened := by simpa [Gate.opensAt] using hgate
    exact (Scene.Change.skip hup hopened).changes

theorem handleError_changes {s : Scene} {e : Event} {rest : List Event} {error : Session.Error}
    (hp : s.phase.looping) (he : s.view.events = e :: rest) (ht : t.scene = s.taken rest)
    (h : Session.Raises s.plan s.standing e error) :
    s.Changes (t.handleError error).scene := by
  cases h with
  | noPayload =>
    rename_i topic
    let reason := (Session.Error.noPayload topic).message
    have hspoil : s.Changes { s.taken rest with standing := s.standing.failed reason } :=
      (Scene.Change.spoil hp he).changes
    have hscene : (t.handleError (.noPayload topic)).scene =
        { t.scene with standing := t.standing.failed reason } := by
      unfold handleError
      rw [scene_logAll]
      exact congrArg (fun s : Scene => { s with standing := t.standing.failed reason })
        (scene_log t _)
    have hstanding : t.standing = s.standing := congrArg Scene.standing ht
    rw [hscene, ht, hstanding]
    exact hspoil
  | chunk hn hq hc =>
    rename_i error
    let u : Trial := { t with phase := .closing (some (.session (.chunk error))) }
    have hover := (Scene.Change.overrun hp he (.chunk hn hq hc)).changes
    have hu : u.scene = { s.taken rest with phase := .closing (some (.session (.chunk error))) } :=
      congrArg (fun s : Scene => { s with phase := .closing (some (.session (.chunk error))) }) ht
    have hclose : u.scene.Changes (u.beginClosing (some (.session (.chunk error)))).scene :=
      beginClosing_changes rfl _
    exact hover.trans (hu ▸ hclose)

theorem handleEvent_changes {e : Event} {rest : List Event} (hp : t.phase.looping)
    (he : t.transport.events = e :: rest) (u : Trial) (hu : u.scene = t.scene.taken rest) :
    t.scene.Changes (u.handleEvent e).scene := by
  have haccepts : u.accepts = t.scene.view.accepts := by
    funext r
    rw [accepts_eq]
    exact congrArg (fun s : Scene => s.view.accepts r) hu
  have hhandle : Session.handle u.plan u.accepts u.standing e =
      Session.handle t.scene.plan t.scene.view.accepts t.scene.standing e := by
    rw [haccepts]
    exact congrArg (fun s : Scene => Session.handle s.plan _ s.standing e) hu
  unfold handleEvent
  rw [hhandle]
  generalize hr : Session.handle t.scene.plan t.scene.view.accepts t.scene.standing e = reaction
  have hperform (standing : Standing) : Scene.PassesAll { t.scene.taken rest with standing }
      reaction.requests (reaction.effects.foldl perform { u with standing }).scene := by
    have h := perform_passes { u with standing } reaction.effects
    have hscene : ({ u with standing } : Trial).scene = { t.scene.taken rest with standing } :=
      congrArg (fun s : Scene => { s with standing }) hu
    exact hscene ▸ h
  cases herror : reaction.error with
  | none =>
    have hreacts := Session.handle_reacts (hr ▸ herror)
    rw [hr] at hreacts
    simp only [herror]
    exact (Scene.Change.handle hp he hreacts (hperform reaction.standing)).changes
  | some error =>
    obtain ⟨hraises, hs, hrequests⟩ := Session.handle_error (hr ▸ herror)
    rw [hr] at hs hrequests
    simp only [herror]
    have hpass := hperform reaction.standing
    rw [hrequests, hs] at hpass
    refine handleError_changes hp he ?_ hraises
    rw [hs]
    exact hpass.of_nil

theorem takeEvent_changes (hp : t.phase.looping) : t.scene.Changes t.takeEvent.scene := by
  unfold takeEvent
  cases he : t.transport.events with
  | nil => exact (Scene.Change.wait (s := t.scene) hp he).changes
  | cons e rest => exact handleEvent_changes hp he _ rfl

theorem serve_changes (hp : t.phase = .serving) : t.scene.Changes t.serve.scene := by
  unfold serve
  split_ifs
  · exact beginClosing_changes (by rw [hp]; rfl) none
  · exact takeEvent_changes (by rw [hp]; rfl)

theorem hostTurn_changes : t.scene.Changes t.hostTurn.scene := by
  unfold hostTurn
  cases hp : t.phase with
  | starting => exact start_changes hp
  | closing escape => exact finish_changes hp
  | waiting => exact takeEvent_changes (by rw [hp]; rfl)
  | serving => exact .refl _
  | ended result => exact .refl _

theorem receiveSignal_changes (hl : t.phase.live) (name : String) :
    t.scene.Changes (t.receiveSignal name).scene := by
  have h := (Scene.Change.interrupt (s := t.scene) hl).changes
  unfold receiveSignal
  split_ifs
  · simpa [scene, log, mapTransport, Transport.cancelService, Scene.emit] using h
  · exact .refl _

theorem breakDown_changes (hl : t.phase.live) (b : Breakdown) :
    t.scene.Changes (t.breakDown b).scene := by
  have hcrash := (Scene.Change.crash (s := t.scene) (e := .transport (.fault b.fault)) hl).changes
  have hclose := beginClosing_changes (t := t.mapTransport fun r =>
    { r with breakdown := none, ready := r.ready.filter (· ≠ .host) }) hl
    (some (.transport (.fault b.fault)))
  unfold breakDown
  dsimp only
  split
  · exact hcrash
  · exact hcrash
  · exact hclose

theorem runJob_changes (hl : t.phase.live) (job : Job) : t.scene.Changes (t.runJob job).scene := by
  have hwork : t.scene.Changes (t.mapTransport (·.runJob job)).scene :=
    Scene.work_changes hl (t.transport.runJob_changes job)
  have hbroken (b : Breakdown) :
      t.scene.Changes ((t.mapTransport (·.runJob job)).breakDown b).scene :=
    hwork.trans (breakDown_changes (t := t.mapTransport (·.runJob job)) hl b)
  unfold runJob
  split
  · exact hostTurn_changes
  · exact receiveSignal_changes hl _
  · dsimp only
    split
    · exact hwork
    · exact hbroken _

end Host

/-- Every move is a sequence of changes of the scene. -/
theorem Move.changes {t u : Trial} (h : t.Move u) : t.scene.Changes u.scene := by
  cases h with
  | serve hp => exact serve_changes hp
  | job hl hjob =>
    rename_i job
    let u := t.mapTransport fun r => { r with ready := r.ready.erase job }
    have hrun : u.scene.Changes (u.runJob job).scene := runJob_changes (t := u) hl job
    exact hrun
  | alarm hl htimer =>
    have hscene {timer : Timer} : (t.mapTransport (·.fire timer)).scene = t.scene := by
      simp [scene, mapTransport]
    rw [hscene]

theorem Scene.Changes.holds {P : Scene → Prop} (hstep : ∀ s s' : Scene, P s → s.Change s' → P s')
    {s s' : Scene} (h : s.Changes s') (hs : P s) : P s' := by
  induction h with
  | refl => exact hs
  | tail _ hchange ih => exact hstep _ _ ih hchange

/-- What holds in the first scene, and behind each change if it held before, holds always. -/
theorem Possible.scene_of {P : Scene → Prop} (hstep : ∀ s s' : Scene, P s → s.Change s' → P s')
    {start t : Trial} (h : start.Possible t) (hstart : P start.scene) : P t.scene := by
  induction h with
  | refl => exact hstart
  | tail _ hmove ih => exact hmove.changes.holds hstep ih

end Trial

end BrokerTrial

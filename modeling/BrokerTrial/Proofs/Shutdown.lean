import BrokerTrial.Proofs.Counting
import BrokerTrial.Proofs.Runs

/-! The end of a trial. In every phase the host has just the turns that it needs (`Poised`), and
each move keeps that (`Move.comes`): a run loop that waits is woken by the first event, and a
transport that closes gives the host its turn when the last task has been counted. So nothing is
left behind by a trial that has ended, and an interrupt is never missed. -/

namespace BrokerTrial

namespace Trial

open Transport (Course OperationAccounts)

/-- The transport holds nothing any more, and signals are left to the system. -/
structure Released (t : Trial) : Prop where
  operations : t.transport.operations = []
  connected : t.transport.connected = false
  signals : t.handlesSignals = false

/-- Whose turn it is in each phase of a trial, and what there is to wait for. -/
inductive Poised (t : Trial) : Prop
  | starting : t.phase = .starting → t.transport.breakdown = none → t.transport.link = none →
      t.transport.ledger.Ready 1 → Poised t
  | serving : t.phase = .serving → t.transport.breakdown = none →
      t.transport.ledger.Ready 0 → Poised t
  | waiting : t.phase = .waiting → t.transport.breakdown = none → t.transport.ledger.Parked →
      (t.standing.verdict.interrupted = true → t.transport.events ≠ []) → Poised t
  | closing {escape : Option Escape} : t.phase = .closing escape → t.transport.breakdown = none →
      t.transport.ledger.Draining → t.handlesSignals = false → Poised t
  | ended {result : Result} : t.phase = .ended result → t.transport.breakdown = none →
      t.Released → Poised t
  /-- A fault has torn the event loop down. -/
  | torn {b : Breakdown} : t.phase = .ended (.escaped (.transport (.fault b.fault))) →
      t.transport.breakdown = some b → b.fault.kind = .interrupted → Poised t

/-- What becomes of a trial that has this link: if it ends, the link has ended before. -/
structure Comes (link : Option Link) (u : Trial) : Prop where
  poised : u.Poised
  last : ∀ result, u.phase = .ended result → u.transport.breakdown = none →
    ∀ l, link = some l → l.phase = .ended

structure Serving (linked : Bool) (t : Trial) : Prop where
  phase : t.phase = .serving
  whole : t.transport.breakdown = none
  ready : t.transport.ledger.Ready 0
  linked : t.transport.link.isSome = linked

variable {t u : Trial} {link : Option Link} {linked : Bool} {said : List Event}

theorem not_live_of_ended {result : Result} (h : t.phase = .ended result) : ¬ t.phase.live := by
  rw [h]
  nofun

theorem Poised.whole (h : t.Poised) (hl : t.phase.live) : t.transport.breakdown = none := by
  cases h with
  | torn hp => exact absurd hl (not_live_of_ended hp)
  | _ => assumption

theorem Poised.comes (h : u.Poised) (hl : u.phase.live) (link : Option Link) : Comes link u where
  poised := h
  last _ hp := absurd hl (not_live_of_ended hp)

theorem Poised.torn_comes {b : Breakdown}
    (hp : u.phase = .ended (.escaped (.transport (.fault b.fault))))
    (hb : u.transport.breakdown = some b) (hk : b.fault.kind = .interrupted)
    (link : Option Link) : Comes link u where
  poised := .torn hp hb hk
  last _ _ hnone := by cases hnone.symm.trans hb

theorem Serving.comes (h : Serving linked u) (link : Option Link) : Comes link u :=
  Poised.comes (.serving h.phase h.whole h.ready) (by rw [h.phase]; rfl) link

theorem Serving.steady (h : Serving linked t) (hp : u.phase = t.phase)
    (hu : t.transport.Steady u.transport) : Serving linked u where
  phase := hp.trans h.phase
  whole := hu.breakdown.trans h.whole
  ready := hu.ready h.ready
  linked := hu.linked.trans h.linked

theorem pass_serving (h : Serving linked t) (r : Request) : Serving linked (t.pass r) := by
  cases r with
  | write => exact h.steady rfl (t.transport.emit_steady _)
  | cancel => exact h.steady rfl (t.transport.emit_steady _)
  | subscribe topics => exact h.steady rfl (t.transport.sendSubscribe_steady topics _)
  | publish p chunk => exact h.steady rfl (t.transport.sendPublish_steady p chunk _)

theorem perform_serving (h : Serving linked t) (effects : List Effect) :
    Serving linked (effects.foldl perform t) := by
  induction effects generalizing t with
  | nil => exact h
  | cons effect rest ih =>
    refine ih ?_
    cases effect with
    | log entry => exact h.steady rfl (t.transport.log_steady entry)
    | request r => exact pass_serving h r
    | deliver topic payload => exact h.steady rfl (t.transport.logAll_steady _)

theorem finish_comes (escape : Option Escape) (hpending : t.transport.ledger.pending = 0)
    (ht : t.transport.view.Tied) (hb : t.transport.breakdown = none)
    (hsignals : t.handlesSignals = false) : Comes t.transport.link (t.finish escape) := by
  obtain ⟨hops, hconnected, hlink⟩ := Transport.Ledger.of_pending hpending ht
  refine ⟨?_, fun _ _ _ => hlink⟩
  cases escape with
  | some e => exact .ended rfl hb ⟨hops, hconnected, hsignals⟩
  | none => exact .ended rfl hb ⟨hops, hconnected, hsignals⟩

theorem beginClosing_comes (escape : Option Escape) (hopen : t.transport.ledger.Open)
    (hturns : t.transport.ledger.turns = 0) (hb : t.transport.breakdown = none)
    (hlink : t.transport.link.isSome = link.isSome) :
    Comes link (t.beginClosing escape) := by
  let w : Trial := { t.mapTransport ({ ·.beginClose with hostWaits := false }) with
    handlesSignals := false }
  have hledger := t.transport.ledger_beginClose
  have hpending : w.transport.closing = w.transport.ledger.pending :=
    Transport.beginClose_pending hopen.uncounted
  have htied : w.transport.view.Tied := Transport.beginClose_tied hopen.tied
  have hwhole : w.transport.breakdown = none :=
    (congrArg Transport.Ledger.breakdown hledger).trans hb
  have hidle : w.transport.ledger.turns = 0 :=
    (congrArg Transport.Ledger.turns hledger).trans hturns
  have hclosing : w.transport.closing =
      t.transport.operations.length + if t.transport.link.isSome then 1 else 0 :=
    congrArg Transport.Ledger.closing hledger
  show Comes link (if w.transport.isQuiet then w.finish escape
    else { w with phase := .closing escape })
  split_ifs with hquiet
  · have hzero : w.transport.closing = 0 := by simpa [Transport.isQuiet] using hquiet
    -- a link would have to be waited for
    have hnone : link = none := by
      rw [hzero, hlink] at hclosing
      cases link with
      | none => rfl
      | some l => simp at hclosing
    refine ⟨(finish_comes escape (hpending.symm.trans hzero) htied hwhole rfl).poised, ?_⟩
    rintro _ _ _ l rfl
    cases hnone
  · have hpositive : w.transport.closing ≠ 0 := by simpa [Transport.isQuiet] using hquiet
    have hdraining : w.transport.ledger.Draining :=
      ⟨htied, hpending, rfl, hidle.trans (if_neg hpositive).symm⟩
    exact Poised.comes (u := { w with phase := .closing escape })
      (.closing rfl hwhole hdraining rfl) rfl link

theorem Serving.beginClosing_comes (h : Serving link.isSome t) (escape : Option Escape) :
    Comes link (t.beginClosing escape) :=
  Trial.beginClosing_comes escape h.ready.toOpen h.ready.turns_eq h.whole h.linked

theorem handleEvent_comes (h : Serving link.isSome t) (e : Event) :
    Comes link (t.handleEvent e) := by
  have hperform (standing : Standing) (effects : List Effect) :
      Serving link.isSome (effects.foldl perform { t with standing }) :=
    perform_serving (t := { t with standing }) ⟨h.phase, h.whole, h.ready, h.linked⟩ effects
  unfold handleEvent
  dsimp only
  generalize hu : (Session.handle t.plan t.accepts t.standing e).effects.foldl perform
    { t with standing := (Session.handle t.plan t.accepts t.standing e).standing } = u
  have hserving : Serving link.isSome u := hu ▸ hperform _ _
  have hfails (message : String) : Comes link
      ({ u.log (Log.error s!"Session handler failed: {message}") with
        standing := { u.standing with verdict := u.standing.verdict.fail message } }.logAll
          (u.standing.verdict.failEntries message)) := by
    refine (hserving.steady ?_ ?_).comes link
    · rfl
    · exact (u.transport.log_steady _).trans (Transport.logAll_steady _ _)
  split
  · exact hserving.comes link
  · rename_i error _
    cases error with
    | chunk e => exact hserving.beginClosing_comes _
    | noPayload topic => exact hfails _
    | noTransition edge stage => exact hfails _

/-- A run loop that takes the next event is at work again; one that waits is not interrupted. -/
theorem takeEvent_comes (hb : t.transport.breakdown = none) (hr : t.transport.ledger.Ready 0)
    (hi : t.transport.events = [] → t.standing.verdict.interrupted = false) :
    Comes t.transport.link t.takeEvent := by
  unfold takeEvent
  cases he : t.transport.events with
  | nil =>
    let u : Trial := { t.mapTransport ({ · with hostWaits := true }) with phase := .waiting }
    have hparked : u.transport.ledger.Parked := by
      refine ⟨⟨hr.tied, hr.closing, hr.uncounted⟩, ?_, ?_⟩
      · show true = t.transport.events.isEmpty
        rw [he]
        rfl
      · show t.transport.ledger.turns = if t.transport.events.isEmpty then 0 else 1
        rw [he, hr.turns_eq]
        rfl
    refine Poised.comes (u := u) (.waiting rfl hb hparked fun hinterrupted => ?_) rfl _
    cases (hi he).symm.trans hinterrupted
  | cons e rest =>
    let u : Trial := { t with phase := .serving }.mapTransport ({ · with events := rest })
    have hserving : Serving t.transport.link.isSome u :=
      ⟨rfl, hb, ⟨⟨hr.tied, hr.closing, hr.uncounted⟩, hr.hostWaits, hr.turns_eq⟩, rfl⟩
    exact handleEvent_comes hserving e

theorem serve_comes (hb : t.transport.breakdown = none) (hr : t.transport.ledger.Ready 0) :
    Comes t.transport.link t.serve := by
  unfold serve
  split_ifs with hi
  · exact beginClosing_comes none hr.toOpen hr.turns_eq hb rfl
  · exact takeEvent_comes hb hr fun _ => by simpa using hi

theorem requestConnection_ready (hr : t.transport.ledger.Ready 0) :
    t.requestConnection.1.transport.ledger.Ready 0 ∧
      t.requestConnection.1.transport.breakdown = t.transport.breakdown := by
  obtain ⟨hready, hb⟩ := Transport.connect_ready
    ((t.transport.log_steady t.connection.announcement).ready hr) t.connection t.script
  unfold requestConnection
  dsimp only
  split
  · exact ⟨hready, hb⟩
  · have hlogged := Transport.logAll_steady
    exact ⟨(hlogged _ _).ready hready, (hlogged _ _).breakdown.trans hb⟩
  · exact ⟨hready, hb⟩

theorem follow_ready (notices : List (Lifecycle.Notice Unit)) (hr : t.transport.ledger.Ready 0) :
    (t.follow notices).1.transport.ledger.Ready 0 ∧
      (t.follow notices).1.transport.breakdown = t.transport.breakdown := by
  induction notices generalizing t with
  | nil => exact ⟨hr, rfl⟩
  | cons notice rest ih =>
    cases notice with
    | log entry => exact ih (t := t.log entry) ((t.transport.log_steady entry).ready hr)
    | tell listener current target =>
      unfold follow
      split_ifs
      · obtain ⟨hready, hb⟩ :=
          requestConnection_ready (t := { t with gate := t.gate.notify current target }) hr
        generalize ({ t with gate := t.gate.notify current target } : Trial).requestConnection =
          requested at hready hb
        obtain ⟨r, answer⟩ := requested
        cases answer with
        | none =>
          obtain ⟨hready', hb'⟩ := ih (t := r) hready
          exact ⟨hready', hb'.trans hb⟩
        | some e => exact ⟨hready, hb⟩
      · exact ih hr

theorem start_comes (hb : t.transport.breakdown = none) (hr : t.transport.ledger.Ready 0) :
    Comes none t.start := by
  obtain ⟨hready, hsame⟩ := follow_ready (t := { t with handlesSignals := true }) startNotices hr
  unfold start
  generalize ({ t with handlesSignals := true } : Trial).follow startNotices = followed
    at hready hsame
  obtain ⟨u, escape⟩ := followed
  have hwhole : u.transport.breakdown = none := hsame.trans hb
  cases escape with
  | none =>
    exact Poised.comes (u := { u with phase := .serving }) (.serving rfl hwhole hready) rfl none
  | some e =>
    have hcloses : Comes u.transport.link (u.beginClosing (some e)) :=
      beginClosing_comes _ hready.toOpen hready.turns_eq hwhole rfl
    exact ⟨hcloses.poised, by rintro _ _ _ l ⟨⟩⟩

theorem hostTurn_comes (h : t.Poised) (hl : t.phase.live) (hjob : .host ∈ t.transport.ready) :
    Comes t.transport.link
      ((t.mapTransport fun r => { r with ready := r.ready.erase .host }).runJob .host) := by
  let w := t.mapTransport fun r => { r with ready := r.ready.erase .host }
  have hledger : w.transport.ledger = { t.transport.ledger with
      turns := t.transport.ledger.turns - 1 } := t.transport.ledger_erase_host
  have hdue : t.transport.ledger.turns ≠ 0 := (List.count_pos_iff.2 hjob).ne'
  have hready (ho : t.transport.ledger.Open) (hw : t.transport.ledger.hostWaits = false)
      (hturns : t.transport.ledger.turns = 1) : w.transport.ledger.Ready 0 := by
    rw [hledger]
    exact ⟨⟨ho.tied, ho.closing, ho.uncounted⟩, hw, by rw [hturns]⟩
  show Comes t.transport.link w.hostTurn
  cases h with
  | starting hp hb hlink hr =>
    have hturn : w.hostTurn = w.start := by rw [hostTurn, show w.phase = .starting from hp]
    rw [hturn, hlink]
    exact start_comes (t := w) hb (hready hr.toOpen hr.hostWaits hr.turns_eq)
  | serving hp hb hr => exact absurd hr.turns_eq hdue
  | waiting hp hb hparked hi =>
    have hturn : w.hostTurn = w.takeEvent := by rw [hostTurn, show w.phase = .waiting from hp]
    -- the host waits without a turn until there is an event
    have hsome : t.transport.ledger.view.events.isEmpty = false := by
      by_contra hnone
      exact hdue (hparked.turns_eq.trans (if_pos (by simpa using hnone)))
    have hr := hready hparked.toOpen (hparked.hostWaits.trans hsome) <| by
      rw [hparked.turns_eq, hsome]
      rfl
    rw [hturn]
    refine takeEvent_comes (t := w) hb hr fun hnone => ?_
    rw [show t.transport.ledger.view.events = [] from hnone] at hsome
    cases hsome
  | @closing escape hp hb hdraining hsignals =>
    have hturn : w.hostTurn = w.finish escape := by
      rw [hostTurn, show w.phase = .closing escape from hp]
    -- it is the host's turn only when nothing is left to wait for
    have hzero : t.transport.ledger.closing = 0 := by
      by_contra hne
      exact hdue (hdraining.turns_eq.trans (if_neg hne))
    have hpending : w.transport.ledger.pending = 0 := by
      rw [hledger]
      exact hdraining.closing.symm.trans hzero
    rw [hturn]
    exact finish_comes (t := w) escape hpending hdraining.tied hb hsignals
  | ended hp => exact absurd hl (not_live_of_ended hp)
  | torn hp => exact absurd hl (not_live_of_ended hp)

/-- What the tasks do leaves the host where it is. -/
theorem Poised.follows (h : t.Poised) (hl : t.phase.live) (hp : u.phase = t.phase)
    (hsignals : u.handlesSignals = t.handlesSignals)
    (hf : t.transport.ledger.Follows said u.transport.ledger)
    (hi : u.standing.verdict.interrupted = true → t.standing.verdict.interrupted = true ∨ said ≠ [])
    (hb : u.transport.breakdown = none) : u.Poised := by
  cases h with
  | starting hphase _ hlink hr =>
    have hnone : u.transport.link.isSome = t.transport.link.isSome := hf.linked
    rw [hlink] at hnone
    exact .starting (hp.trans hphase) hb (by simpa using hnone) (hf.ready hr)
  | serving hphase _ hr => exact .serving (hp.trans hphase) hb (hf.ready hr)
  | waiting hphase _ hparked hwaiting =>
    refine .waiting (hp.trans hphase) hb (hf.parked hparked) fun hinterrupted => ?_
    rw [show u.transport.events = t.transport.events ++ said from hf.events_eq]
    rcases hi hinterrupted with hold | hnew
    · exact List.append_ne_nil_of_left_ne_nil (hwaiting hold) _
    · exact List.append_ne_nil_of_right_ne_nil _ hnew
  | closing hphase _ hdraining hsame =>
    exact .closing (hp.trans hphase) hb (hf.draining hdraining) (hsignals.trans hsame)
  | ended hphase => exact absurd hl (not_live_of_ended hphase)
  | torn hphase => exact absurd hl (not_live_of_ended hphase)

theorem Poised.same (h : t.Poised) (hl : t.phase.live) (hp : u.phase = t.phase)
    (hsignals : u.handlesSignals = t.handlesSignals) (hstanding : u.standing = t.standing)
    (hledger : u.transport.ledger = t.transport.ledger) : u.Poised := by
  have hf : t.transport.ledger.Follows [] u.transport.ledger := hledger ▸ .refl _
  refine h.follows hl hp hsignals hf (fun hi => .inl (hstanding ▸ hi)) ?_
  exact (congrArg Transport.Ledger.breakdown hledger).trans (h.whole hl)

/-- A signal wakes a run loop that waits. -/
theorem receiveSignal_poised (h : t.Poised) (hl : t.phase.live) (name : String) :
    (t.receiveSignal name).Poised := by
  unfold receiveSignal
  split_ifs
  · let r := t.transport.log (Log.info s!"Received exit signal {name}...")
    have hledger : r.cancelService.ledger = t.transport.ledger.emit [.serviceCancelled] := by
      rw [Transport.cancelService, Transport.ledger_emit, Transport.ledger_log]
    have hf : t.transport.ledger.Follows [.serviceCancelled] r.cancelService.ledger := by
      rw [hledger]
      exact (Transport.Ledger.Follows.refl _).emit _
    have hwhole : r.cancelService.breakdown = none :=
      (congrArg Transport.Ledger.breakdown hledger).trans (h.whole hl)
    exact h.follows hl rfl rfl hf (fun _ => .inr (List.cons_ne_nil _ _)) hwhole
  · exact h

theorem Poised.opened (h : t.Poised) (hl : t.phase.live)
    (hc : ∀ escape, t.phase ≠ .closing escape) : t.transport.ledger.Open := by
  cases h with
  | starting _ _ _ hr => exact hr.toOpen
  | serving _ _ hr => exact hr.toOpen
  | waiting _ _ hparked _ => exact hparked.toOpen
  | closing hp => exact absurd hp (hc _)
  | ended hp => exact absurd hl (not_live_of_ended hp)
  | torn hp => exact absurd hl (not_live_of_ended hp)

/-- A fault that no task caught. If it leaves time to close the transport, that is done. -/
theorem breakDown_comes {b : Breakdown} (h : t.Poised) (hl : t.phase.live)
    (hf : t.transport.ledger.Follows said u.transport.ledger) (hp : u.phase = t.phase)
    (hb : u.transport.breakdown = some b) : Comes t.transport.link (u.breakDown b) := by
  have hkind : b.fault.kind = .interrupted := by
    rcases hf.breakdown with hsame | ⟨b', hb', hk⟩
    · cases hb.symm.trans (hsame.trans (h.whole hl))
    · obtain rfl := Option.some.inj (hb.symm.trans hb')
      exact hk
  let torn : Trial := { u with phase := .ended (.escaped (.transport (.fault b.fault))) }
  have htorn : Comes t.transport.link torn := Poised.torn_comes (u := torn) rfl hb hkind _
  unfold breakDown
  dsimp only
  split
  · exact htorn
  · exact htorn
  · rename_i hc
    let w := u.mapTransport fun r =>
      { r with breakdown := none, ready := r.ready.filter (· ≠ .host) }
    have hopen := hf.opened (h.opened hl fun escape he => hc escape (hp.trans he))
    have huncounted : w.transport.ledger.uncounted = u.transport.ledger.uncounted :=
      List.count_filter (by decide)
    have hidle : w.transport.ledger.turns = 0 :=
      List.count_eq_zero.2 fun hmem => by simpa using List.of_mem_filter hmem
    refine beginClosing_comes (t := w) _ ?_ hidle rfl hf.linked
    exact ⟨hopen.tied, hopen.closing, huncounted.trans hopen.uncounted⟩

theorem countEnded_comes (h : t.Poised) (hl : t.phase.live)
    (hjob : .taskEnded ∈ t.transport.ready) : Comes t.transport.link
      ((t.mapTransport fun r => { r with ready := r.ready.erase .taskEnded }).runJob
        .taskEnded) := by
  have hsome : t.transport.ledger.uncounted ≠ 0 := (List.count_pos_iff.2 hjob).ne'
  cases h with
  | starting _ _ _ hr => exact absurd hr.uncounted hsome
  | serving _ _ hr => exact absurd hr.uncounted hsome
  | waiting _ _ hparked _ => exact absurd hparked.uncounted hsome
  | closing hp hb hdraining hsignals =>
    let w := t.mapTransport fun r => { r with ready := r.ready.erase .taskEnded }
    let u := w.mapTransport (·.countEnded)
    have hwhole : u.transport.breakdown = none :=
      (congrArg Transport.Ledger.breakdown (Transport.ledger_countEnded w.transport)).trans hb
    have hcounted := Transport.countEnded_draining hdraining hjob
    unfold runJob
    dsimp only
    split
    · exact Poised.comes (u := u) (.closing hp hwhole hcounted hsignals) hl _
    · rename_i b hb
      cases hwhole.symm.trans hb
  | ended hp => exact absurd hl (not_live_of_ended hp)
  | torn hp => exact absurd hl (not_live_of_ended hp)

theorem runJob_comes (h : t.Poised) (hl : t.phase.live)
    (hv : t.transport.view.Numbered t.transport.nextId) {job : Job} (hhost : job ≠ .host)
    (hjob : job ∈ t.transport.ready) : Comes t.transport.link
      ((t.mapTransport fun r => { r with ready := r.ready.erase job }).runJob job) := by
  let w := t.mapTransport fun r => { r with ready := r.ready.erase job }
  by_cases hended : job = .taskEnded
  · subst hended
    exact countEnded_comes h hl hjob
  · have hledger : w.transport.ledger = t.transport.ledger :=
      Transport.ledger_erase t.transport hhost hended
    have hw : w.Poised := h.same hl rfl rfl rfl hledger
    obtain ⟨said, hworks⟩ := w.transport.runJob_works hended
    have hf : t.transport.ledger.Follows said (w.transport.runJob job).ledger := by
      rw [hledger] at hworks
      exact hworks.follows hv
    cases job with
    | host => exact absurd rfl hhost
    | signal name =>
      have hphase : (w.receiveSignal name).phase = w.phase := by
        unfold receiveSignal
        split_ifs <;> rfl
      exact (receiveSignal_poised hw hl name).comes (by rw [hphase]; exact hl) _
    | _ =>
      unfold runJob
      dsimp only
      split
      · rename_i hb
        exact (h.follows (u := w.mapTransport (·.runJob _)) hl rfl rfl hf .inl hb).comes hl _
      · rename_i b hb
        exact breakDown_comes (u := w.mapTransport (·.runJob _)) h hl hf rfl hb

theorem Move.comes (h : t.Move u) (ht : t.Poised)
    (hv : t.transport.view.Numbered t.transport.nextId) : Comes t.transport.link u := by
  cases h with
  | serve hp =>
    cases ht with
    | serving _ hb hr => exact serve_comes hb hr
    | _ => simp_all
  | @job job hl hjob =>
    by_cases hhost : job = .host
    · subst hhost
      exact hostTurn_comes ht hl hjob
    · exact runJob_comes ht hl hv hhost hjob
  | @alarm timer hl _ =>
    have hledger : (t.transport.fire timer).ledger = t.transport.ledger := by simp
    have hrings : (t.mapTransport (·.fire timer)).Poised := ht.same hl rfl rfl rfl hledger
    exact hrings.comes hl _

theorem poised_ofSettings (settings : Settings) (script : Script) (signals : List Signal) :
    (ofSettings settings script signals).Poised := by
  have hcount {job : Job} (hjob : ∀ name, job ≠ .signal name) (early : List Signal) :
      (early.map (Job.signal ·.name)).count job = 0 := by
    refine List.count_eq_zero.2 fun hmem => ?_
    obtain ⟨signal, -, hsignal⟩ := List.mem_map.1 hmem
    exact hjob _ hsignal.symm
  refine .starting rfl rfl rfl ⟨⟨nofun, rfl, ?_⟩, rfl, ?_⟩
  · show List.count Job.taskEnded (.host :: _) = 0
    rw [List.count_cons_of_ne (by decide)]
    exact hcount (by rintro _ ⟨⟩) _
  · show List.count Job.host (.host :: _) = 1
    rw [List.count_cons_self]
    exact congrArg (· + 1) (hcount (by rintro _ ⟨⟩) _)

theorem Possible.accounts {settings : Settings} {script : Script} {signals : List Signal}
    (h : (ofSettings settings script signals).Possible t) :
    ∃ course, OperationAccounts course t.transport := by
  obtain ⟨handled, hrun⟩ := h.run
  obtain ⟨course, hcourse, -, -⟩ := hrun.course
  exact ⟨course, hcourse.accounts⟩

theorem Possible.poised {settings : Settings} {script : Script} {signals : List Signal}
    (h : (ofSettings settings script signals).Possible t) : t.Poised := by
  induction h with
  | refl => exact poised_ofSettings settings script signals
  | tail hpossible hmove ih =>
    obtain ⟨course, haccounts⟩ := Possible.accounts hpossible
    exact (hmove.comes ih haccounts.numbered).poised

def HandledEvent.requests (h : HandledEvent) : List Request :=
  (Session.handle h.trial.plan h.trial.accepts h.trial.standing h.event).requests

theorem handleEvent_phase (t : Trial) (e : Event) :
    (t.handleEvent e).phase = t.phase ∨ (t.handleEvent e).phase.over := by
  have hperform (standing : Standing) (effects : List Effect) :
      (effects.foldl perform { t with standing }).phase = t.phase :=
    (perform_passes { t with standing } effects).keeps.phase
  unfold handleEvent
  dsimp only
  split
  · exact .inl (hperform _ _)
  · rename_i error _
    cases error with
    | chunk e => exact .inr (beginClosing_over _ _)
    | _ => exact .inl (hperform _ _)

theorem takeEvent_phase {e : Event} {rest : List Event} (he : t.transport.events = e :: rest) :
    t.takeEvent.phase ≠ .waiting := by
  rw [takeEvent, he]
  rcases handleEvent_phase (({ t with phase := .serving } : Trial).mapTransport
    ({ · with events := rest })) e with hserving | hover
  · rw [hserving]
    nofun
  · exact Phase.ne_waiting_of_over hover

/-- An interrupted trial hands over one more event at most, the one that wakes its run loop. -/
theorem Run.of_interrupted {handled : List HandledEvent} (h : t.Run handled u)
    (hi : t.standing.verdict.interrupted = true) :
    Session.Calm t.standing u.standing [] ∧
      handled.length + (if u.phase = .waiting then 1 else 0) ≤ 1 ∧
      ∀ h ∈ handled, ∀ r ∈ h.requests, r.sends = false := by
  induction h with
  | refl =>
    refine ⟨.refl hi, ?_, fun h hmem => absurd hmem List.not_mem_nil⟩
    split_ifs <;> simp
  | @tail handled more u v _ hhandles ih =>
    obtain ⟨hcalm, hcount, hquiet⟩ := ih
    refine ⟨hcalm.trans (hhandles.move.calm hcalm.interrupted), ?_, ?_⟩
    · by_cases hwaiting : u.phase = .waiting
      · obtain rfl : handled = [] := by simpa [hwaiting] using hcount
        rcases hhandles.takes with rfl | ⟨w, e, rest, rfl, rfl, he, -, -⟩
        · simp only [List.append_nil, List.length_nil]
          split_ifs <;> simp
        · rw [if_neg (takeEvent_phase he)]
          rfl
      · obtain ⟨rfl, hp⟩ := hhandles.of_interrupted hcalm.interrupted hwaiting
        rw [if_neg hwaiting] at hcount
        rwa [if_neg hp, List.append_nil]
    · intro h hmem
      rcases List.mem_append.1 hmem with hold | hnew
      · exact hquiet h hold
      · rcases hhandles.takes with rfl | ⟨w, e, rest, rfl, -, -, -, -⟩
        · cases hnew
        · obtain rfl := List.mem_singleton.1 hnew
          exact Session.handle_sends hcalm.interrupted e

end Trial

end BrokerTrial

import BrokerTrial.Proofs.Accounts

/-! What there is to wait for when a transport is closed: the tasks that have not ended, and those
whose end nobody has counted (`Ledger.pending`). The work of the tasks keeps this sum
(`Works.follows`). So a transport that closes expects neither too many ends nor too few
(`Ledger.Draining`), and while nobody closes it, the host has just the turns that are meant for it
(`Ledger.Ready`, `Ledger.Parked`). -/

namespace BrokerTrial

theorem Link.Ends.ne_ended {l : Link} {ending : Ending} (h : l.Ends ending) :
    l.phase ≠ .ended := by
  cases h with
  | cancelled _ hp => exact hp
  | refused ho _ _ => exact fun hp => LinkPhase.not_opening_of_ended hp ho
  | closed hup _ => exact LinkPhase.ne_ended_of_up hup.phase
  | failed hup _ => exact LinkPhase.ne_ended_of_up hup.phase

namespace Transport

def runningLinks (link : Option Link) : Nat :=
  match link with
  | none => 0
  | some l => if l.phase = .ended then 0 else 1

theorem runningLinks_add_endedLinks (link : Option Link) :
    runningLinks link + endedLinks link = if link.isSome then 1 else 0 := by
  cases link with
  | none => rfl
  | some l =>
    simp only [runningLinks, endedLinks, Option.isSome_some]
    split_ifs <;> rfl

theorem runningLinks_told (link : Option Link) :
    runningLinks (link.map Link.told) = runningLinks link := by
  cases link with
  | none => rfl
  | some l =>
    simp only [runningLinks, Option.map_some, Link.told]
    split_ifs <;> simp_all

theorem runningLinks_of_ne {link : Link} (h : link.phase ≠ .ended) :
    runningLinks (some link) = 1 := if_neg h

theorem ended_of_runningLinks {link : Option Link} (h : runningLinks link = 0) {l : Link}
    (hl : link = some l) : l.phase = .ended := by
  by_contra hne
  rw [hl, runningLinks_of_ne hne] at h
  cases h

namespace View

def running (v : View) : Nat := v.operations.length + runningLinks v.link

/-- There is no connection without a link that holds it. -/
def Tied (v : View) : Prop := v.connected = true → runningLinks v.link = 1

variable {v w : View} {next : Nat} {op : Operation} {link link' : Link}

theorem length_remove (hv : v.Numbered next) (hop : op ∈ v.operations) :
    (v.remove op.id).operations.length + 1 = v.operations.length := by
  have hone : v.operations.countP (fun o => o.id = op.id) = 1 := by
    have hcount := List.count_eq_one_of_mem hv.nodup (List.mem_map_of_mem hop)
    rwa [List.count, List.countP_map] at hcount
  have hsplit := List.length_eq_countP_add_countP (fun o : Operation => o.id = op.id)
    (l := v.operations)
  rw [hone, Nat.add_comm] at hsplit
  rw [hsplit, remove, List.countP_eq_length_filter]
  simp

theorem running_replace (v : View) (op : Operation) (marks : List Mark) :
    ((v.replace op).record marks).running = v.running := by
  simp [running, replace, record]

theorem running_remove (hv : v.Numbered next) (hop : op ∈ v.operations) (marks : List Mark) :
    ((v.remove op.id).record marks).running + 1 = v.running := by
  have hlength := length_remove hv hop
  show (v.remove op.id).operations.length + runningLinks v.link + 1 =
    v.operations.length + runningLinks v.link
  omega

theorem running_withLink (hl : v.link = some link) (hp : link.phase ≠ .ended)
    (hp' : link'.phase ≠ .ended) : (v.withLink link').running = v.running := by
  rw [running, running, hl]
  show v.operations.length + runningLinks (some link') = _
  rw [runningLinks_of_ne hp, runningLinks_of_ne hp']

theorem running_cut (hl : v.link = some link) (hp : link.phase ≠ .ended)
    (hp' : link'.phase = .ended) : (v.cut link').running + 1 = v.running := by
  have hgone : runningLinks (some link') = 0 := if_pos hp'
  rw [running, running, hl]
  show v.operations.length + runningLinks (some link') + 1 = _
  rw [hgone, runningLinks_of_ne hp]

theorem Tied.withLink (hp : link.phase ≠ .ended) (connected : Bool) :
    ({ v.withLink link with connected } : View).Tied :=
  fun _ => runningLinks_of_ne hp

end View

namespace Ledger

/-- The tasks whose end nobody has counted yet. -/
def pending (l : Ledger) : Nat := l.view.running + l.uncounted

/-- All that the work of tasks does to the order in which the host and its tasks take turns. -/
structure Follows (l : Ledger) (said : List Event) (m : Ledger) : Prop where
  events_eq : m.view.events = l.view.events ++ said
  tied : l.view.Tied → m.view.Tied
  linked : m.view.link.isSome = l.view.link.isSome
  running_le : m.view.running ≤ l.view.running
  closing_eq : m.closing = l.closing
  uncounted_eq : l.closing = 0 → m.uncounted = l.uncounted
  pending_eq : l.closing ≠ 0 → m.pending = l.pending
  hostWaits_eq : m.hostWaits = (l.hostWaits && said.isEmpty)
  turns_eq : m.turns = l.turns + if l.hostWaits && !said.isEmpty then 1 else 0
  breakdown : m.breakdown = l.breakdown ∨ ∃ b, m.breakdown = some b ∧ b.fault.kind = .interrupted

variable {source : Source} {l m n : Ledger} {said events : List Event}

namespace Follows

theorem refl (l : Ledger) : l.Follows [] l where
  events_eq := (List.append_nil _).symm
  tied := id
  linked := rfl
  running_le := le_rfl
  closing_eq := rfl
  uncounted_eq _ := rfl
  pending_eq _ := rfl
  hostWaits_eq := by simp
  turns_eq := by simp
  breakdown := .inl rfl

theorem trans (h : l.Follows said m) (h' : m.Follows events n) : l.Follows (said ++ events) n where
  events_eq := by rw [h'.events_eq, h.events_eq, List.append_assoc]
  tied ht := h'.tied (h.tied ht)
  linked := h'.linked.trans h.linked
  running_le := h'.running_le.trans h.running_le
  closing_eq := h'.closing_eq.trans h.closing_eq
  uncounted_eq hc := (h'.uncounted_eq (h.closing_eq.trans hc)).trans (h.uncounted_eq hc)
  pending_eq hc := (h'.pending_eq (h.closing_eq.trans_ne hc)).trans (h.pending_eq hc)
  hostWaits_eq := by
    rw [h'.hostWaits_eq, h.hostWaits_eq]
    cases said <;> simp
  turns_eq := by
    rw [h'.turns_eq, h.hostWaits_eq, h.turns_eq]
    cases said <;> simp
  breakdown := by
    rcases h'.breakdown with hsame | hbroken
    · rw [hsame]
      exact h.breakdown
    · exact .inr hbroken

theorem emit (h : l.Follows [] m) (events : List Event) : l.Follows events (m.emit events) where
  events_eq := by
    rw [emit_view, View.emit, h.events_eq, List.append_nil]
  tied := h.tied
  linked := h.linked
  running_le := h.running_le
  closing_eq := h.closing_eq
  uncounted_eq := h.uncounted_eq
  pending_eq := h.pending_eq
  hostWaits_eq := by simp [Ledger.emit, h.hostWaits_eq]
  turns_eq := by simp [Ledger.emit, h.hostWaits_eq, h.turns_eq]
  breakdown := h.breakdown

theorem of_running {w : View} (he : w.events = l.view.events) (ht : l.view.Tied → w.Tied)
    (hlinked : w.link.isSome = l.view.link.isSome) (hr : w.running = l.view.running)
    (lastAttempt : Int) : l.Follows [] { l.withView w with lastAttempt } where
  events_eq := he.trans (List.append_nil _).symm
  tied := ht
  linked := hlinked
  running_le := hr.le
  closing_eq := rfl
  uncounted_eq _ := rfl
  pending_eq _ := congrArg (· + l.uncounted) hr
  hostWaits_eq := by simp [withView]
  turns_eq := by simp [withView]
  breakdown := .inl rfl

/-- A task ends, and somebody has to count it if the transport closes. -/
theorem of_ended {w : View} (he : w.events = l.view.events) (ht : l.view.Tied → w.Tied)
    (hlinked : w.link.isSome = l.view.link.isSome) (hr : w.running + 1 = l.view.running) :
    l.Follows [] (l.withView w).noteEnded := by
  have hevents : w.events = l.view.events ++ [] := he.trans (List.append_nil _).symm
  have hle : w.running ≤ l.view.running := hr ▸ Nat.le_succ _
  have hsum : w.running + (l.uncounted + 1) = l.view.running + l.uncounted := by omega
  unfold noteEnded
  split_ifs with hc
  · exact ⟨hevents, ht, hlinked, hle, rfl, fun _ => rfl, fun hne => absurd hc hne,
      by simp [withView], by simp [withView], .inl rfl⟩
  · exact ⟨hevents, ht, hlinked, hle, rfl, fun hz => absurd hz hc, fun _ => hsum,
      by simp [withView], by simp [withView], .inl rfl⟩

end Follows

theorem Change.follows (h : l.Change source events m) (hv : l.view.Numbered l.nextId) :
    l.Follows events m := by
  have hacts (op : Operation) (marks : List Mark) (lastAttempt : Int) : l.Follows []
      { l.withView ((l.view.replace op).record marks) with lastAttempt } :=
    .of_running (w := (l.view.replace op).record marks) rfl id rfl (View.running_replace ..)
      lastAttempt
  have hlinks {link next : Link} (hl : l.view.link = some link) (hp : link.phase ≠ .ended)
      (hp' : next.phase ≠ .ended) (connected : Bool) :
      l.Follows [] (l.withView { l.view.withLink next with connected }) := by
    refine .of_running (w := { l.view.withLink next with connected }) rfl
      (fun _ => View.Tied.withLink hp' connected) ?_ ?_ l.lastAttempt
    · rw [hl]
      rfl
    · exact View.running_withLink hl hp hp'
  cases h with
  | @starts op op' marks _ _ _ _ => exact hacts op' marks _
  | @goesOn op op' marks _ _ _ => exact hacts op' marks _
  | @ends op attempt ending hop _ =>
    exact (Follows.of_ended (w := (l.view.remove op.id).record [.ended op.id ending]) rfl id rfl
      (View.running_remove hv hop _)).emit _
  | @connecting link hl hp _ =>
    have hnext : ({ link with phase := .connecting } : Link).phase ≠ .ended := nofun
    exact hlinks hl (hp ▸ nofun) hnext l.view.connected
  | established hl ho _ _ hup _ =>
    refine (hlinks hl ?_ (LinkPhase.ne_ended_of_up hup.phase) true).emit _
    exact fun hp => LinkPhase.not_opening_of_ended hp ho
  | message hl hup _ hnext =>
    exact (hlinks hl (LinkPhase.ne_ended_of_up hup.phase) (LinkPhase.ne_ended_of_up hnext.phase)
      l.view.connected).emit _
  | parked hl hup hnext _ =>
    exact hlinks hl (LinkPhase.ne_ended_of_up hup.phase) (LinkPhase.ne_ended_of_up hnext.phase)
      l.view.connected
  | @cut link ended ending hl hends hp _ =>
    refine (Follows.of_ended (w := l.view.cut ended) rfl nofun ?_
      (View.running_cut hl hends.ne_ended hp)).emit _
    rw [hl]
    rfl
  | @broken _ f guarded hf =>
    exact { Follows.refl l with breakdown := .inr ⟨⟨f, guarded⟩, rfl, hf⟩ }

theorem Works.follows (h : l.Works source said m) (hv : l.view.Numbered l.nextId) :
    l.Follows said m := by
  induction h with
  | refl => exact .refl l
  | tail hworks hchange ih => exact ih.trans (hchange.follows (hworks.numbered hv))

structure Open (l : Ledger) : Prop where
  tied : l.view.Tied
  closing : l.closing = 0
  uncounted : l.uncounted = 0

/-- The host does not wait, and has a number of turns to come. -/
structure Ready (l : Ledger) (turns : Nat) : Prop extends l.Open where
  hostWaits : l.hostWaits = false
  turns_eq : l.turns = turns

structure Parked (l : Ledger) : Prop extends l.Open where
  hostWaits : l.hostWaits = l.view.events.isEmpty
  turns_eq : l.turns = if l.view.events.isEmpty then 0 else 1

/-- The transport is closed when all that it waits for has ended. Then it is the host's turn. -/
structure Draining (l : Ledger) : Prop where
  tied : l.view.Tied
  closing : l.closing = l.pending
  hostWaits : l.hostWaits = false
  turns_eq : l.turns = if l.closing = 0 then 1 else 0

namespace Follows

variable (h : l.Follows said m)

include h

theorem opened (hl : l.Open) : m.Open :=
  ⟨h.tied hl.tied, h.closing_eq.trans hl.closing, (h.uncounted_eq hl.closing).trans hl.uncounted⟩

theorem ready {turns : Nat} (hl : l.Ready turns) : m.Ready turns := by
  refine ⟨h.opened hl.toOpen, ?_, ?_⟩
  · rw [h.hostWaits_eq, hl.hostWaits]
    rfl
  · rw [h.turns_eq, hl.hostWaits]
    exact hl.turns_eq

theorem parked (hl : l.Parked) : m.Parked := by
  refine ⟨h.opened hl.toOpen, ?_, ?_⟩
  · rw [h.hostWaits_eq, hl.hostWaits, h.events_eq]
    cases l.view.events <;> simp
  · rw [h.turns_eq, hl.hostWaits, hl.turns_eq, h.events_eq]
    cases l.view.events <;> cases said <;> simp

theorem draining (hl : l.Draining) : m.Draining := by
  -- with nothing left to wait for, no task is there that could change it
  have hpending : m.pending = l.pending := by
    by_cases hc : l.closing = 0
    · have hzero : l.view.running + l.uncounted = 0 := hl.closing.symm.trans hc
      have hle := h.running_le
      have huncounted := h.uncounted_eq hc
      rw [pending, pending]
      omega
    · exact h.pending_eq hc
  refine ⟨h.tied hl.tied, ?_, ?_, ?_⟩
  · rw [h.closing_eq, hl.closing, hpending]
  · rw [h.hostWaits_eq, hl.hostWaits]
    rfl
  · rw [h.turns_eq, hl.hostWaits, hl.turns_eq, h.closing_eq]
    rfl

end Follows

/-- When there is nothing left to wait for, every task has ended, and with the link the
connection. -/
theorem of_pending (h : l.pending = 0) (ht : l.view.Tied) :
    l.view.operations = [] ∧ l.view.connected = false ∧
      ∀ link, l.view.link = some link → link.phase = .ended := by
  obtain ⟨hrunning, -⟩ := Nat.add_eq_zero_iff.1 h
  obtain ⟨hops, hlink⟩ := Nat.add_eq_zero_iff.1 hrunning
  refine ⟨List.length_eq_zero_iff.1 hops, ?_, fun link => ended_of_runningLinks hlink⟩
  cases hc : l.view.connected with
  | false => rfl
  | true => cases (ht hc).symm.trans hlink

end Ledger

section Turns

variable {t u : Transport} {turns : Nat}

theorem ledger_erase_host (t : Transport) :
    ({ t with ready := t.ready.erase .host } : Transport).ledger =
      { t.ledger with turns := t.ledger.turns - 1 } := by
  have hcount : (t.ready.erase .host).count .taskEnded = t.ready.count .taskEnded :=
    List.count_erase_of_ne (by decide)
  simp [ledger, view, history, List.count_erase_self, hcount]

structure Steady (t u : Transport) : Prop where
  ready {turns : Nat} : t.ledger.Ready turns → u.ledger.Ready turns
  breakdown : u.breakdown = t.breakdown
  linked : u.link.isSome = t.link.isSome

theorem Steady.of_ledger (h : u.ledger = t.ledger) : t.Steady u where
  ready hr := h ▸ hr
  breakdown := congrArg Ledger.breakdown h
  linked := congrArg (fun l : Ledger => l.view.link.isSome) h

theorem Steady.trans {v : Transport} (h : t.Steady u) (h' : u.Steady v) : t.Steady v where
  ready hr := h'.ready (h.ready hr)
  breakdown := h'.breakdown.trans h.breakdown
  linked := h'.linked.trans h.linked

theorem log_steady (t : Transport) (entry : Log.Entry) : t.Steady (t.log entry) :=
  .of_ledger (ledger_log t entry)

theorem logAll_steady (t : Transport) (entries : List Log.Entry) :
    t.Steady (t.logAll entries) := by
  induction entries generalizing t with
  | nil => exact .of_ledger rfl
  | cons entry rest ih => exact (t.log_steady entry).trans (ih (t.log entry))

theorem collected_steady (t : Transport) (outgoing : List UInt8) :
    t.Steady { t with outgoing } where
  ready h := ⟨⟨h.tied, h.closing, h.uncounted⟩, h.hostWaits, h.turns_eq⟩
  breakdown := rfl
  linked := rfl

theorem spawn_steady (t : Transport) (task : Task) (reply : Reply) :
    t.Steady (t.spawn task reply) where
  ready h := by
    rw [ledger_spawn]
    exact ⟨⟨h.tied, h.closing, h.uncounted⟩, h.hostWaits, h.turns_eq⟩
  breakdown := rfl
  linked := rfl

theorem emit_steady (t : Transport) (e : Event) : t.Steady (t.emit e) := by
  have hledger := t.ledger_emit e
  refine ⟨fun h => ?_, ?_, ?_⟩
  · rw [hledger]
    exact ((Ledger.Follows.refl t.ledger).emit [e]).ready h
  · exact congrArg Ledger.breakdown hledger
  · exact congrArg (fun l : Ledger => l.view.link.isSome) hledger

theorem sendSubscribe_steady (t : Transport) (topics : Subscription) (reply : Reply) :
    t.Steady (t.sendSubscribe topics reply).1 := by
  unfold sendSubscribe
  split_ifs
  · exact t.spawn_steady _ reply
  · exact t.log_steady _

theorem sendPublish_steady (t : Transport) (p : Publication) (chunk : List UInt8) (reply : Reply) :
    t.Steady (t.sendPublish p chunk reply).1 := by
  unfold sendPublish
  dsimp only
  split_ifs
  · exact t.log_steady _
  · exact (t.collected_steady []).trans (log_steady _ _)
  · exact t.collected_steady _
  · exact (t.collected_steady []).trans (log_steady _ _)
  · exact (t.collected_steady []).trans (spawn_steady _ _ reply)

theorem connect_ready (h : t.ledger.Ready turns) (c : Connection) (script : Script) :
    (t.connect c script).1.ledger.Ready turns ∧
      (t.connect c script).1.breakdown = t.breakdown := by
  have hlogged (entry : Log.Entry) :
      (t.log entry).ledger.Ready turns ∧ (t.log entry).breakdown = t.breakdown :=
    ⟨(t.log_steady entry).ready h, rfl⟩
  unfold connect
  split_ifs
  · exact hlogged _
  · split
    · exact hlogged _
    · split
      · exact ⟨h, rfl⟩
      · exact hlogged _
      · split
        · exact ⟨h, rfl⟩
        · split
          · split_ifs
            · exact hlogged _
            · exact ⟨h, rfl⟩
          · refine ⟨?_, rfl⟩
            rw [ledger_enqueue _ (by decide) (by decide)]
            exact ⟨⟨fun _ => rfl, h.closing, h.uncounted⟩, h.hostWaits, h.turns_eq⟩

end Turns

section Closing

variable {t : Transport}

/-- A transport that begins to close waits for each of its tasks. -/
theorem beginClose_pending (ht : t.ledger.uncounted = 0) :
    t.beginClose.closing = t.beginClose.ledger.pending := by
  have hclosing : t.beginClose.closing =
      t.view.operations.length + if t.link.isSome then 1 else 0 :=
    congrArg Ledger.closing t.ledger_beginClose
  have huncounted : t.beginClose.ledger.uncounted = t.ledger.uncounted + endedLinks t.link :=
    congrArg Ledger.uncounted t.ledger_beginClose
  have hlength : t.beginClose.view.operations.length = t.view.operations.length :=
    t.beginClose_cancelled.length_eq
  have hlinks : runningLinks t.beginClose.link = runningLinks t.link := by
    rw [t.beginClose_link, runningLinks_told]
  show t.beginClose.closing = t.beginClose.view.operations.length +
    runningLinks t.beginClose.link + t.beginClose.ledger.uncounted
  rw [hclosing, huncounted, ht, hlength, hlinks, ← runningLinks_add_endedLinks]
  omega

theorem beginClose_tied (ht : t.view.Tied) : t.beginClose.view.Tied := by
  have hconnected : t.beginClose.view.connected = t.view.connected := by
    rw [t.beginClose_cancelled.others]
  intro hc
  rw [show t.beginClose.view.link = t.link.map Link.told from t.beginClose_link, runningLinks_told]
  exact ht (hconnected.symm.trans hc)

/-- The host goes on when the last task has been counted. -/
theorem countEnded_draining (ht : t.ledger.Draining) (hjob : .taskEnded ∈ t.ready) :
    ({ t with ready := t.ready.erase .taskEnded } : Transport).countEnded.ledger.Draining := by
  have hcount : t.ready.count .taskEnded = (t.ready.erase .taskEnded).count .taskEnded + 1 := by
    rw [List.count_erase_self, Nat.sub_add_cancel (List.count_pos_iff.2 hjob)]
  have hturns : (t.ready.erase .taskEnded).count .host = t.ready.count .host :=
    List.count_erase_of_ne (by decide)
  have hclosing : t.closing = t.view.running + t.ready.count .taskEnded := ht.closing
  have hidle : t.ready.count .host = 0 := by
    have hne : t.ledger.closing ≠ 0 := by
      show t.closing ≠ 0
      omega
    have hnone := ht.turns_eq
    rwa [if_neg hne] at hnone
  rw [ledger_countEnded]
  refine ⟨ht.tied, ?_, ht.hostWaits, ?_⟩
  · show t.closing - 1 = t.view.running + (t.ready.erase .taskEnded).count .taskEnded
    omega
  · show (t.ready.erase .taskEnded).count .host + _ = _
    rw [hturns, hidle, Nat.zero_add]

end Closing

end Transport

end BrokerTrial

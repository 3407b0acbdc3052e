import BrokerTrial.Proofs.View

/-! The ledger of a transport: its view, and what it takes to tell whose turn is next. It counts the
turns of the host that are due and the tasks whose end nobody has counted yet, but neither the other
jobs nor the timers. So setting a timer or waking a task leaves it alone. -/

namespace BrokerTrial

namespace Transport

structure Ledger where
  view : View
  nextId : Nat
  lastAttempt : Int
  hostWaits : Bool
  /-- The turns of the host that are due. -/
  turns : Nat
  closing : Nat
  /-- The tasks that have ended and that nobody has counted yet. -/
  uncounted : Nat
  breakdown : Option Breakdown

def ledger (t : Transport) : Ledger where
  view := t.view
  nextId := t.nextId
  lastAttempt := t.lastAttempt
  hostWaits := t.hostWaits
  turns := t.ready.count .host
  closing := t.closing
  uncounted := t.ready.count .taskEnded
  breakdown := t.breakdown

namespace Ledger

def withView (l : Ledger) (view : View) : Ledger := { l with view }

def withLink (l : Ledger) (link : Link) : Ledger := l.withView (l.view.withLink link)

/-- Puts events on the queue. The first one of them wakes the host if it waits. -/
def emit (l : Ledger) (events : List Event) : Ledger :=
  { l with
    view := l.view.emit events
    hostWaits := l.hostWaits && events.isEmpty
    turns := l.turns + if l.hostWaits && !events.isEmpty then 1 else 0 }

/-- A task has ended, which only a transport that closes takes down. -/
def noteEnded (l : Ledger) : Ledger :=
  if l.closing = 0 then l else { l with uncounted := l.uncounted + 1 }

def strike (l : Ledger) (id : Nat) (ending : Ending) : Ledger :=
  (l.withView ((l.view.remove id).record [.ended id ending])).noteEnded

def cut (l : Ledger) (link : Link) : Ledger := (l.withView (l.view.cut link)).noteEnded

/-- An interrupt that comes out of a client call breaks the run. -/
def suffer (l : Ledger) (ending : Ending) (guarded : Bool) : Ledger :=
  match ending with
  | .failed f => if f.kind = .interrupted then { l with breakdown := some ⟨f, guarded⟩ } else l
  | _ => l

variable (l : Ledger)

@[simp] theorem withView_view (view : View) : (l.withView view).view = view := rfl

@[simp] theorem withView_withView (first second : View) :
    (l.withView first).withView second = l.withView second := rfl

@[simp] theorem emit_view (events : List Event) : (l.emit events).view = l.view.emit events := rfl

@[simp] theorem emit_nil : l.emit [] = l := by simp [emit]

@[simp] theorem noteEnded_view : l.noteEnded.view = l.view := by unfold noteEnded; split <;> rfl

@[simp] theorem noteEnded_nextId : l.noteEnded.nextId = l.nextId := by
  unfold noteEnded; split <;> rfl

@[simp] theorem noteEnded_lastAttempt : l.noteEnded.lastAttempt = l.lastAttempt := by
  unfold noteEnded; split <;> rfl

@[simp] theorem strike_view (id : Nat) (ending : Ending) :
    (l.strike id ending).view = (l.view.remove id).record [.ended id ending] := noteEnded_view _

@[simp] theorem cut_view (link : Link) : (l.cut link).view = l.view.cut link := noteEnded_view _

@[simp] theorem suffer_view (ending : Ending) (guarded : Bool) :
    (l.suffer ending guarded).view = l.view := by
  unfold suffer
  split
  · split_ifs <;> rfl
  · rfl

/-! Changes of different parts commute. -/

@[simp] theorem noteEnded_emit (events : List Event) :
    (l.emit events).noteEnded = l.noteEnded.emit events := by
  unfold noteEnded
  rw [apply_ite (Ledger.emit · events)]
  rfl

@[simp] theorem strike_emit (id : Nat) (ending : Ending) (events : List Event) :
    (l.emit events).strike id ending = (l.strike id ending).emit events :=
  noteEnded_emit (l.withView ((l.view.remove id).record [.ended id ending])) events

@[simp] theorem withLink_withLink (link link' : Link) :
    (l.withLink link).withLink link' = l.withLink link' := rfl

@[simp] theorem withLink_emit (link : Link) (events : List Event) :
    (l.emit events).withLink link = (l.withLink link).emit events := rfl

@[simp] theorem cut_withLink (link link' : Link) : (l.withLink link).cut link' = l.cut link' := rfl

@[simp] theorem cut_emit (link : Link) (events : List Event) :
    (l.emit events).cut link = (l.cut link).emit events :=
  noteEnded_emit (l.withView (l.view.cut link)) events

@[simp] theorem withView_suffer (ending : Ending) (guarded : Bool) (view : View) :
    (l.suffer ending guarded).withView view = (l.withView view).suffer ending guarded := by
  unfold suffer
  split
  · split_ifs <;> rfl
  · rfl

@[simp] theorem noteEnded_suffer (ending : Ending) (guarded : Bool) :
    (l.suffer ending guarded).noteEnded = l.noteEnded.suffer ending guarded := by
  unfold suffer noteEnded
  split
  · split_ifs <;> rfl
  · rfl

@[simp] theorem strike_suffer (ending : Ending) (guarded : Bool) (id : Nat) (ending' : Ending) :
    (l.suffer ending guarded).strike id ending' = (l.strike id ending').suffer ending guarded := by
  simp [strike]

@[simp] theorem cut_suffer (ending : Ending) (guarded : Bool) (link : Link) :
    (l.suffer ending guarded).cut link = (l.cut link).suffer ending guarded := by
  simp [cut]

end Ledger

section Primitives

variable (t : Transport)

@[simp] theorem ledger_view : t.ledger.view = t.view := rfl

theorem ledger_mark (m : Mark) : (t.mark m).ledger = t.ledger.withView (t.mark m).view := rfl

@[simp] theorem ledger_log (entry : Log.Entry) : (t.log entry).ledger = t.ledger := by
  rw [log, ledger_mark, ← log, view_log]
  rfl

@[simp] theorem ledger_called (id : Nat) (call : ClientCall) :
    (t.mark (.called id call)).ledger = t.ledger.withView (t.view.record [.called id call]) := by
  rw [ledger_mark, view_called]

@[simp] theorem ledger_ended (id : Nat) (ending : Ending) :
    (t.mark (.ended id ending)).ledger = t.ledger.withView (t.view.record [.ended id ending]) := by
  rw [ledger_mark, view_ended]

@[simp] theorem ledger_enqueue {job : Job} (hhost : job ≠ .host) (hended : job ≠ .taskEnded) :
    (t.enqueue job).ledger = t.ledger := by
  simp [ledger, enqueue, view, history, hhost, hended]

/-- The jobs of tasks are not counted. -/
theorem ledger_erase {job : Job} (hhost : job ≠ .host) (hended : job ≠ .taskEnded) :
    ({ t with ready := t.ready.erase job } : Transport).ledger = t.ledger := by
  simp [ledger, view, history, List.count_erase_of_ne, hhost.symm, hended.symm]

@[simp] theorem ledger_setTimer (span : Instant) (alarm : Alarm) :
    (t.setTimer span alarm).ledger = t.ledger := rfl

@[simp] theorem ledger_dropTimer (alarm : Alarm) : (t.dropTimer alarm).ledger = t.ledger := rfl

@[simp] theorem ledger_updateOperation (op : Operation) :
    (t.updateOperation op).ledger = t.ledger.withView (t.view.replace op) := rfl

@[simp] theorem ledger_emit (e : Event) : (t.emit e).ledger = t.ledger.emit [e] := by
  have hview := t.view_emit e
  unfold emit at hview ⊢
  cases hw : t.hostWaits <;> simp_all [ledger, Ledger.emit, enqueue]

@[simp] theorem ledger_spawn (task : Task) (reply : Reply) :
    (t.spawn task reply).ledger =
      { t.ledger.withView (t.view.start t.nextId task reply) with nextId := t.nextId + 1 } := by
  simp [spawn]
  rfl

@[simp] theorem ledger_noteEnded : t.noteEnded.ledger = t.ledger.noteEnded := by
  unfold noteEnded Ledger.noteEnded
  rw [apply_ite ledger]
  simp [ledger, enqueue, view, history]

@[simp] theorem ledger_wakeOperation (id : Nat) : (t.wakeOperation id).ledger = t.ledger := by
  unfold wakeOperation
  split_ifs
  · exact ledger_enqueue t nofun nofun
  · rfl

@[simp] theorem ledger_ring (alarm : Alarm) : (t.ring alarm).ledger = t.ledger := by
  cases alarm with
  | operation id => exact ledger_wakeOperation t id
  | limit id => exact ledger_wakeOperation t id
  | _ => exact ledger_enqueue t nofun nofun

@[simp] theorem ledger_fire (timer : Timer) : (t.fire timer).ledger = t.ledger :=
  ledger_ring _ timer.alarm

end Primitives

end Transport

end BrokerTrial

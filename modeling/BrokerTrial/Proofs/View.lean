import BrokerTrial.Transport.Run
import Mathlib.Tactic

/-! The view of a transport: events, operations, collected bytes, link, and the calls made so far.
Jobs, timers and logs are not part of it, so most steps of a transport leave it alone. The requests
that send are characterised by it (`sendSubscribe_sends`, `sendPublish_sends`). -/

namespace BrokerTrial

def Mark.ofCall : Mark → Bool
  | .called .. | .ended .. => true
  | .log _ | .built _ => false

namespace Transport

/-- The client calls and their ends, in the order of their happening. -/
def history (t : Transport) : List Mark := t.marks.reverse.filter Mark.ofCall

structure View where
  events : List Event
  operations : List Operation
  outgoing : List UInt8
  connected : Bool
  link : Option Link
  history : List Mark

def view (t : Transport) : View :=
  ⟨t.events, t.operations, t.outgoing, t.connected, t.link, t.history⟩

namespace View

def emit (v : View) (events : List Event) : View := { v with events := v.events ++ events }

def record (v : View) (marks : List Mark) : View := { v with history := v.history ++ marks }

def replace (v : View) (op : Operation) : View :=
  { v with operations := v.operations.map fun o => if o.id = op.id then op else o }

def remove (v : View) (id : Nat) : View :=
  { v with operations := v.operations.filter (·.id ≠ id) }

def start (v : View) (id : Nat) (task : Task) (reply : Reply) : View :=
  { v with operations := v.operations ++ [{ id, task, reply }] }

def withLink (v : View) (l : Link) : View := { v with link := some l }

def cut (v : View) (l : Link) : View := { v with connected := false, link := some l }

@[simp] theorem emit_nil (v : View) : v.emit [] = v := by simp [emit]

@[simp] theorem record_nil (v : View) : v.record [] = v := by simp [record]

@[simp] theorem record_record (v : View) (first rest : List Mark) :
    (v.record first).record rest = v.record (first ++ rest) := by simp [record]

@[simp] theorem replace_replace (v : View) {op op' : Operation} (h : op.id = op'.id) :
    (v.replace op).replace op' = v.replace op' := by
  simp only [replace, List.map_map]
  congr 2
  funext o
  by_cases ho : o.id = op'.id <;> simp [h, ho]

@[simp] theorem remove_replace (v : View) (op : Operation) :
    (v.replace op).remove op.id = v.remove op.id := by
  simp only [remove, replace, List.filter_map]
  congr 1
  induction v.operations with
  | nil => rfl
  | cons o rest ih => by_cases ho : o.id = op.id <;> simp_all

theorem replace_ids (v : View) (op : Operation) :
    (v.replace op).operations.map Operation.id = v.operations.map Operation.id := by
  simp only [replace, List.map_map]
  congr 1
  funext o
  by_cases ho : o.id = op.id <;> simp [ho]

/-! Changes of different parts commute. -/

@[simp] theorem replace_record (v : View) (marks : List Mark) (op : Operation) :
    (v.record marks).replace op = (v.replace op).record marks := rfl

@[simp] theorem remove_emit (v : View) (events : List Event) (id : Nat) :
    (v.emit events).remove id = (v.remove id).emit events := rfl

@[simp] theorem remove_record (v : View) (marks : List Mark) (id : Nat) :
    (v.record marks).remove id = (v.remove id).record marks := rfl

@[simp] theorem record_emit (v : View) (events : List Event) (marks : List Mark) :
    (v.emit events).record marks = (v.record marks).emit events := rfl

@[simp] theorem withLink_emit (v : View) (events : List Event) (l : Link) :
    (v.emit events).withLink l = (v.withLink l).emit events := rfl

@[simp] theorem cut_emit (v : View) (events : List Event) (l : Link) :
    (v.emit events).cut l = (v.cut l).emit events := rfl

@[simp] theorem cut_withLink (v : View) (l l' : Link) : (v.withLink l).cut l' = v.cut l' := rfl

theorem mem_replace {v : View} {op op' : Operation} (h : op ∈ v.operations) (hid : op.id = op'.id) :
    op' ∈ (v.replace op').operations :=
  List.mem_map.2 ⟨op, h, by simp [hid]⟩

/-- Whether a transport takes a request: chunks have to stay within the declared length, and the
last one has to reach it. -/
def accepts (v : View) : Request → Bool
  | .write | .cancel => true
  | .subscribe _ => v.connected
  | .publish p chunk =>
    v.connected && decide ((v.outgoing.length + chunk.length : Int) ≤ p.length) &&
      (!p.final || decide ((v.outgoing.length + chunk.length : Int) = p.length))

inductive Subscribes (v : View) (topics : Subscription) (reply : Reply) : View → Bool → Prop
  | refused : v.connected = false → Subscribes v topics reply v false
  | starts (id : Nat) : v.connected = true →
      Subscribes v topics reply (v.start id (.subscribe topics) reply) true

inductive Publishes (v : View) (p : Publication) (chunk : List UInt8) (reply : Reply) :
    View → Bool → Prop
  | refused : v.connected = false → Publishes v p chunk reply v false
  | overflows : v.connected = true → p.length < (v.outgoing.length + chunk.length : Int) →
      Publishes v p chunk reply { v with outgoing := [] } false
  | collects : v.connected = true → (v.outgoing.length + chunk.length : Int) ≤ p.length →
      p.final = false → Publishes v p chunk reply { v with outgoing := v.outgoing ++ chunk } true
  | short : v.connected = true → p.final = true →
      (v.outgoing.length + chunk.length : Int) < p.length →
      Publishes v p chunk reply { v with outgoing := [] } false
  | starts (id : Nat) : v.connected = true → p.final = true →
      (v.outgoing.length + chunk.length : Int) = p.length →
      Publishes v p chunk reply
        ({ v with outgoing := [] }.start id (.publish p.topic p.qos (v.outgoing ++ chunk)) reply)
        true

end View

section Primitives

variable (t : Transport)

@[simp] theorem view_log (entry : Log.Entry) : (t.log entry).view = t.view := by
  simp [view, log, mark, history, Mark.ofCall]

@[simp] theorem view_logAll (entries : List Log.Entry) : (t.logAll entries).view = t.view := by
  induction entries generalizing t with
  | nil => rfl
  | cons entry rest ih => exact (ih (t.log entry)).trans (view_log t entry)

@[simp] theorem view_built (client : Built) : (t.mark (.built client)).view = t.view := by
  simp [view, mark, history, Mark.ofCall]

@[simp] theorem view_called (id : Nat) (call : ClientCall) :
    (t.mark (.called id call)).view = t.view.record [.called id call] := by
  simp [view, View.record, mark, history, Mark.ofCall]

@[simp] theorem view_ended (id : Nat) (ending : Ending) :
    (t.mark (.ended id ending)).view = t.view.record [.ended id ending] := by
  simp [view, View.record, mark, history, Mark.ofCall]

@[simp] theorem view_enqueue (job : Job) : (t.enqueue job).view = t.view := rfl

@[simp] theorem view_emit (e : Event) : (t.emit e).view = t.view.emit [e] := by
  unfold emit; dsimp only; split <;> rfl

@[simp] theorem view_setTimer (span : Instant) (alarm : Alarm) :
    (t.setTimer span alarm).view = t.view := rfl

@[simp] theorem view_dropTimer (alarm : Alarm) : (t.dropTimer alarm).view = t.view := rfl

@[simp] theorem view_updateOperation (op : Operation) :
    (t.updateOperation op).view = t.view.replace op := rfl

@[simp] theorem view_wakeOperation (id : Nat) : (t.wakeOperation id).view = t.view := by
  unfold wakeOperation; split <;> rfl

@[simp] theorem view_countEnded : t.countEnded.view = t.view := by
  unfold countEnded; dsimp only; split <;> rfl

@[simp] theorem view_ring (alarm : Alarm) : (t.ring alarm).view = t.view := by
  cases alarm <;> simp [ring]

@[simp] theorem view_fire (timer : Timer) : (t.fire timer).view = t.view :=
  view_ring _ timer.alarm

@[simp] theorem view_finishClose : t.finishClose.view = { t.view with link := none } :=
  view_log _ _

end Primitives

theorem sendSubscribe_sends (t : Transport) (topics : Subscription) (reply : Reply) :
    t.view.Subscribes topics reply (t.sendSubscribe topics reply).1.view
      (t.sendSubscribe topics reply).2 := by
  unfold sendSubscribe
  cases hc : t.connected with
  | true => exact .starts t.nextId hc
  | false =>
    rw [if_neg (by simp), view_log]
    exact .refused hc

theorem sendPublish_sends (t : Transport) (p : Publication) (chunk : List UInt8) (reply : Reply) :
    t.view.Publishes p chunk reply (t.sendPublish p chunk reply).1.view
      (t.sendPublish p chunk reply).2 := by
  unfold sendPublish
  by_cases hc : t.connected = true
  · rw [if_neg (by simpa using hc)]
    by_cases ho : p.length < (t.view.outgoing.length + chunk.length : Int)
    · rw [if_pos (by exact ho), view_log]
      exact .overflows hc ho
    · rw [if_neg (by exact ho)]
      dsimp only
      cases hf : p.final with
      | false => exact .collects hc (not_lt.1 ho) hf
      | true =>
        rw [if_neg (by simp)]
        rw [List.length_append, Nat.cast_add]
        by_cases hl : (t.view.outgoing.length + chunk.length : Int) = p.length
        · rw [if_neg (by exact not_not.2 hl)]
          exact .starts t.nextId hc hf hl
        · rw [if_pos (by exact hl), view_log]
          exact .short hc hf (lt_of_le_of_ne (not_lt.1 ho) hl)
  · have hc : t.connected = false := by simpa using hc
    rw [if_pos (by simp [hc]), view_log]
    exact .refused hc

theorem View.Subscribes.accepted {v w : View} {topics : Subscription} {reply : Reply} {b : Bool}
    (h : v.Subscribes topics reply w b) : b = v.accepts (.subscribe topics) := by
  cases h with
  | refused hc => exact hc.symm
  | starts id hc => exact hc.symm

theorem View.Publishes.accepted {v w : View} {p : Publication} {chunk : List UInt8} {reply : Reply}
    {b : Bool} (h : v.Publishes p chunk reply w b) : b = v.accepts (.publish p chunk) := by
  cases h with
  | refused hc => simp [accepts, hc]
  | overflows hc ho => simp [accepts, hc, not_le.2 ho]
  | collects hc hl hf => simp [accepts, hc, hl, hf]
  | short hc hf hl => simp [accepts, hc, hf, hl.ne]
  | starts id hc hf hl => simp [accepts, hc, hf, hl]

end Transport

end BrokerTrial

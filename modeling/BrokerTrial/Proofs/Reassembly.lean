import BrokerTrial.Proofs.Usage
import Mathlib.Data.List.DropRight

/-! How chunks are collected to payloads, whoever writes them. What is collected are the chunks that
were accepted since a write ended a collection last, whatever else happened to the transport
(`Collects.of_course`); a write that completes the payload publishes it as a whole (`reassembled`).
So what is published is part of what was accepted, in the same order. -/

namespace BrokerTrial

open scoped List

def Task.payload : Task → List UInt8
  | .publish _ _ payload => payload
  | .subscribe _ => []

namespace Transport

/-- One write of a publish: what was written, whether there was a connection, and the answer. -/
structure Write where
  publication : Publication
  chunk : List UInt8
  connected : Bool
  accepted : Bool

namespace Write

/-- The write ends a collection: it is final or rejected. Without a connection no write does. -/
def ends (w : Write) : Bool := w.connected && (w.publication.final || !w.accepted)

def bytes (w : Write) : List UInt8 := if w.accepted then w.chunk else []

end Write

def accepted (writes : List Write) : List UInt8 := writes.flatMap Write.bytes

/-- The bytes that were accepted since a collection ended last. -/
def pending (writes : List Write) : List UInt8 := accepted (writes.rtakeWhile fun w => !w.ends)

def Transition.write? (m : Transition) : Option Write :=
  match m.deed with
  | .publish p chunk reply =>
    some ⟨p, chunk, m.before.connected, (m.before.sendPublish p chunk reply).2⟩
  | _ => none

/-- The publishes that start between two states: operations are added for them, and it will be
their turn. -/
def published (t u : Transport) : List Task :=
  ((u.operations.drop t.operations.length).filter fun op =>
    op.task.publishes && u.ready.contains (.operation op.id)).map Operation.task

def writes (course : List Transition) : List Write := course.filterMap Transition.write?

def publishedBytes (course : List Transition) : List UInt8 :=
  (course.flatMap fun m => published m.before m.after).flatMap Task.payload

theorem pending_concat (ws : List Write) (w : Write) :
    pending (ws ++ [w]) = if w.ends then [] else pending ws ++ w.bytes := by
  unfold pending
  rw [List.rtakeWhile_concat]
  cases w.ends <;> simp [accepted]

theorem accepted_concat (ws : List Write) (w : Write) :
    accepted (ws ++ [w]) = accepted ws ++ w.bytes := by
  simp [accepted]

theorem writes_concat (course : List Transition) (m : Transition) :
    writes (course ++ [m]) = writes course ++ m.write?.toList := by
  rw [writes, List.filterMap_append, writes]
  cases h : m.write? <;> simp [h]

theorem publishedBytes_concat (course : List Transition) (m : Transition) :
    publishedBytes (course ++ [m]) =
      publishedBytes course ++ (published m.before m.after).flatMap Task.payload := by
  simp [publishedBytes]

/-- Nothing is collected, and no operation is added. -/
structure View.Keeps (v w : View) : Prop where
  outgoing_eq : w.outgoing = v.outgoing
  length_le : w.operations.length ≤ v.operations.length

namespace View

variable {v w x : View}

theorem Keeps.refl (v : View) : v.Keeps v := ⟨rfl, le_rfl⟩

theorem Keeps.trans (h : v.Keeps w) (h' : w.Keeps x) : v.Keeps x :=
  ⟨h'.outgoing_eq.trans h.outgoing_eq, h'.length_le.trans h.length_le⟩

theorem Change.keeps (h : v.Change w) : v.Keeps w := by
  cases h with
  | act _ _ => exact ⟨rfl, (List.length_map _).le⟩
  | ends _ _ => exact ⟨rfl, List.length_filter_le _ _⟩
  | _ => exact ⟨rfl, le_rfl⟩

theorem Changes.keeps (h : v.Changes w) : v.Keeps w := by
  induction h with
  | refl => exact .refl v
  | tail _ hchange ih => exact ih.trans hchange.keeps

section Publishes

variable {p : Publication} {chunk : List UInt8} {reply : Reply} {ok : Bool}

theorem Publishes.outgoing_eq (h : v.Publishes p chunk reply w ok) :
    let write : Write := ⟨p, chunk, v.connected, ok⟩
    w.outgoing = if write.ends then [] else v.outgoing ++ write.bytes := by
  intro write
  cases h with
  | refused hc => simp [write, Write.ends, Write.bytes, hc]
  | overflows hc _ => simp [write, Write.ends, hc]
  | collects hc _ hf => simp [write, Write.ends, Write.bytes, hc, hf]
  | short hc hf _ => simp [write, Write.ends, hc]
  | starts id hc hf _ => simp [write, Write.ends, hc, hf, View.start]

/-- What is published and what stays collected was collected before, or accepted now. -/
theorem Publishes.sublist (h : v.Publishes p chunk reply w ok) :
    let write : Write := ⟨p, chunk, v.connected, ok⟩
    (if ok && p.final then v.outgoing ++ chunk else []) ++ w.outgoing <+
      v.outgoing ++ write.bytes := by
  intro write
  cases h with
  | refused _ => simp [write, Write.bytes]
  | overflows _ _ => simp
  | collects _ _ hf => simp [write, Write.bytes, hf]
  | short _ _ _ => simp
  | starts id _ hf _ => simp [write, Write.bytes, hf, View.start]

end Publishes

end View

section Deeds

variable {t u : Transport} {d : Deed}

theorem published_of_length_le (h : u.operations.length ≤ t.operations.length) :
    published t u = [] := by
  rw [published, List.drop_eq_nil_of_le h]
  rfl

theorem published_spawn (t : Transport) (outgoing : List UInt8) (task : Task) (reply : Reply) :
    published t ({ t with outgoing }.spawn task reply) =
      if task.publishes then [task] else [] := by
  cases htask : task.publishes <;> simp [published, spawn, enqueue, htask]

/-- Only the last chunk of a payload starts a publish, and then with all that was collected. -/
theorem published_sendPublish (t : Transport) (p : Publication) (chunk : List UInt8)
    (reply : Reply) :
    published t (t.sendPublish p chunk reply).1 =
      if (t.sendPublish p chunk reply).2 && p.final then
        [.publish p.topic p.qos (t.outgoing ++ chunk)]
      else [] := by
  rcases t.sendPublish_cases p chunk reply with ⟨outgoing, hu, hnone⟩ | ⟨-, hf, hsend⟩
  · rw [hnone]
    have hops : (t.sendPublish p chunk reply).1.operations = t.operations :=
      congrArg View.operations hu.view_eq
    exact published_of_length_le (congrArg List.length hops).le
  · rw [hsend, hf]
    exact published_spawn ..

/-- Only a request that sends adds an operation, and only a write of a publish collects. -/
theorem perform_keeps (hsubscribe : ∀ topics reply, d ≠ .subscribe topics reply)
    (hpublish : ∀ p chunk reply, d ≠ .publish p chunk reply) :
    t.view.Keeps (t.perform d).view := by
  cases d with
  | subscribe topics reply => exact absurd rfl (hsubscribe topics reply)
  | publish p chunk reply => exact absurd rfl (hpublish p chunk reply)
  | connect c script =>
    obtain ⟨haccepted, hother⟩ := Trial.connect_view t c script
    by_cases h : (t.connect c script).2 = .accepted
    · rw [perform, (haccepted h).2]
      exact ⟨rfl, le_rfl⟩
    · rw [perform, hother h]
      exact .refl _
  | requestWrite =>
    rw [perform, requestWrite, view_emit]
    exact ⟨rfl, le_rfl⟩
  | cancelService =>
    rw [perform, cancelService, view_emit]
    exact ⟨rfl, le_rfl⟩
  | log entry =>
    rw [perform, view_log]
    exact .refl _
  | take => exact ⟨rfl, le_rfl⟩
  | await waits => exact .refl _
  | arrive item =>
    rw [perform, Transport.arrive]
    split
    · exact .refl _
    · dsimp only
      split_ifs <;> exact ⟨rfl, le_rfl⟩
  | job job =>
    rw [perform]
    split_ifs
    · exact (runJob_changes { t with ready := t.ready.erase job } job).keeps
    · exact .refl _
  | alarm timer =>
    rw [perform]
    split_ifs
    · rw [view_fire]
      exact .refl _
    · exact .refl _
  | beginClose =>
    have h := t.beginClose_cancelled
    have houtgoing := congrArg View.outgoing h.others
    exact ⟨houtgoing, h.length_eq.le⟩
  | finishClose =>
    rw [perform, view_finishClose]
    exact ⟨rfl, le_rfl⟩
  | recover => exact .refl _

theorem subscribe_rests (topics : Subscription) (reply : Reply) :
    let u := (t.sendSubscribe topics reply).1
    u.outgoing = t.outgoing ∧ published t u = [] := by
  intro u
  show (t.sendSubscribe topics reply).1.outgoing = t.outgoing ∧
    published t (t.sendSubscribe topics reply).1 = []
  unfold sendSubscribe
  split_ifs
  · exact ⟨rfl, published_spawn t t.outgoing (.subscribe topics) reply⟩
  · exact ⟨rfl, published_of_length_le le_rfl⟩

/-- Whatever is no write of a publish leaves what is collected as it is and starts no publish. -/
theorem perform_rests (hd : (Transition.mk t d (t.perform d)).write? = none) :
    (t.perform d).outgoing = t.outgoing ∧ published t (t.perform d) = [] := by
  by_cases hsubscribe : ∃ topics reply, d = .subscribe topics reply
  · obtain ⟨topics, reply, rfl⟩ := hsubscribe
    exact subscribe_rests topics reply
  · have hkeeps : t.view.Keeps (t.perform d).view := by
      apply perform_keeps
      · rintro topics reply rfl
        exact hsubscribe ⟨topics, reply, rfl⟩
      · rintro p chunk reply rfl
        cases hd
    exact ⟨hkeeps.outgoing_eq, published_of_length_le hkeeps.length_le⟩

end Deeds

structure Collects (course : List Transition) (t : Transport) : Prop where
  outgoing_eq : t.outgoing = pending (writes course)
  sublist : (publishedBytes course ++ t.outgoing).Sublist (accepted (writes course))

namespace Collects

variable {course : List Transition} {t : Transport}

theorem fresh {start : Transport} (h : start.outgoing = []) : Collects [] start := by
  refine ⟨h, ?_⟩
  rw [h]
  exact .slnil

theorem rests {d : Deed} (h : Collects course t)
    (hd : (Transition.mk t d (t.perform d)).write? = none) :
    Collects (course ++ [⟨t, d, t.perform d⟩]) (t.perform d) := by
  obtain ⟨houtgoing, hpublished⟩ := perform_rests hd
  refine ⟨?_, ?_⟩
  · rw [writes_concat, hd, Option.toList_none, List.append_nil, houtgoing, h.outgoing_eq]
  · rw [writes_concat, hd, Option.toList_none, List.append_nil, houtgoing, publishedBytes_concat,
      hpublished, List.flatMap_nil, List.append_nil]
    exact h.sublist

theorem publishes (h : Collects course t) (p : Publication) (chunk : List UInt8) (reply : Reply) :
    let u := (t.sendPublish p chunk reply).1
    Collects (course ++ [⟨t, .publish p chunk reply, u⟩]) u := by
  intro u
  let w : Write := ⟨p, chunk, t.connected, (t.sendPublish p chunk reply).2⟩
  have hwrites : writes (course ++ [⟨t, .publish p chunk reply, u⟩]) = writes course ++ [w] :=
    writes_concat _ _
  have hsends : t.view.Publishes p chunk reply u.view w.accepted :=
    t.sendPublish_sends p chunk reply
  refine ⟨?_, ?_⟩
  · rw [hwrites, pending_concat, ← h.outgoing_eq]
    exact hsends.outgoing_eq
  · rw [hwrites, accepted_concat, publishedBytes_concat, List.append_assoc]
    have hmade : (published t u).flatMap Task.payload ++ u.outgoing <+ t.outgoing ++ w.bytes := by
      have hpayload : (published t u).flatMap Task.payload =
          if w.accepted && p.final then t.outgoing ++ chunk else [] := by
        rw [show published t u = _ from t.published_sendPublish p chunk reply]
        split_ifs <;> simp [Task.payload]
      rw [hpayload]
      exact hsends.sublist
    calc publishedBytes course ++ ((published t u).flatMap Task.payload ++ u.outgoing)
      _ <+ publishedBytes course ++ (t.outgoing ++ w.bytes) := hmade.append_left _
      _ = publishedBytes course ++ t.outgoing ++ w.bytes := (List.append_assoc ..).symm
      _ <+ accepted (writes course) ++ w.bytes := h.sublist.append_right _

theorem of_course {start : Transport} (hempty : start.outgoing = [])
    (h : Course start course t) : Collects course t := by
  induction h with
  | nil => exact fresh hempty
  | @snoc course t d _ ih =>
    by_cases hd : (Transition.mk t d (t.perform d)).write? = none
    · exact ih.rests hd
    · cases d with
      | publish p chunk reply => exact ih.publishes p chunk reply
      | _ => exact absurd rfl hd

end Collects

section Reassembled

variable {start t : Transport} {course : List Transition}

theorem sendPublish_rests {p : Publication} {chunk : List UInt8} {reply : Reply}
    (h : ¬ ((t.sendPublish p chunk reply).2 = true ∧ p.final = true)) :
    { (t.sendPublish p chunk reply).1 with outgoing := t.outgoing, marks := t.marks } = t := by
  revert h
  unfold sendPublish
  dsimp only
  split_ifs with hc ho hf hl
  · exact fun _ => rfl
  · exact fun _ => rfl
  · exact fun _ => rfl
  · exact fun _ => rfl
  · exact fun h => absurd ⟨rfl, by simpa using hf⟩ h

/-- A write is accepted if what is collected keeps within the declared length, and reaches it with
the last chunk. -/
theorem sendPublish_accepted_iff (hc : t.connected = true) (p : Publication) (chunk : List UInt8)
    (reply : Reply) :
    (t.sendPublish p chunk reply).2 = true ↔
      (t.outgoing.length + chunk.length : Int) ≤ p.length ∧
        (p.final = true → (t.outgoing.length + chunk.length : Int) = p.length) := by
  rw [(t.sendPublish_sends p chunk reply).accepted]
  simp [View.accepts, view, hc, Decidable.imp_iff_not_or]

/-- Whatever happened before, a write goes by the chunks that were accepted since a write ended a
collection last. Only a last chunk that is accepted starts a publish: one operation is added for all
that was collected with it, which has the declared length, and its job is put on the queue. -/
theorem reassembled (h : Course start course t) (hempty : start.outgoing = []) :
    (∀ (p : Publication) (chunk : List UInt8) (reply : Reply),
      let b := pending (writes course)
      let u := (t.sendPublish p chunk reply).1
      let ok := (t.sendPublish p chunk reply).2
      t.outgoing = b ∧
      (t.connected = false → ok = false ∧ { u with marks := t.marks } = t) ∧
      (t.connected = true →
        (ok = true ↔ (b.length + chunk.length : Int) ≤ p.length ∧
          (p.final = true → (b.length + chunk.length : Int) = p.length)) ∧
        (ok = false ∨ p.final = true → u.outgoing = [])) ∧
      if ok = true ∧ p.final = true then
        let op : Operation :=
          { id := t.nextId, task := .publish p.topic p.qos (b ++ chunk), reply
            phase := .unstarted, cancelled := false }
        u = { t with
          outgoing := [], operations := t.operations ++ [op], nextId := t.nextId + 1
          ready := t.ready ++ [.operation op.id] } ∧ ((b ++ chunk).length : Int) = p.length
      else { u with outgoing := t.outgoing, marks := t.marks } = t) ∧
    publishedBytes course <+ accepted (writes course) := by
  obtain ⟨houtgoing, hsublist⟩ := Collects.of_course hempty h
  refine ⟨?_, (List.sublist_append_left _ _).trans hsublist⟩
  intro p chunk reply b u ok
  have hb : t.outgoing = b := houtgoing
  rw [← hb]
  refine ⟨rfl, ?_, ?_, ?_⟩
  · intro hc
    have hsend : t.sendPublish p chunk reply =
        (t.log (Log.warning "Publish requested while not connected."), false) := by
      simp [sendPublish, hc]
    refine ⟨congrArg Prod.snd hsend, ?_⟩
    show { (t.sendPublish p chunk reply).1 with marks := t.marks } = t
    rw [hsend]
    rfl
  · intro hc
    refine ⟨sendPublish_accepted_iff hc p chunk reply, ?_⟩
    intro hends
    have hempties := (t.sendPublish_sends p chunk reply).outgoing_eq
    have hwrite : Write.ends ⟨p, chunk, t.view.connected, ok⟩ = true := by
      rcases hends with hok | hf
      · simp [Write.ends, view, hc, hok]
      · simp [Write.ends, view, hc, hf]
    exact hempties.trans (if_pos hwrite)
  · split_ifs with hstarts
    · obtain ⟨hok, hf⟩ := hstarts
      rcases t.sendPublish_cases p chunk reply with ⟨_, -, hnone⟩ | ⟨hc, -, hsend⟩
      · exact absurd hnone (by simp [ok, hok, hf])
      · refine ⟨congrArg Prod.fst hsend, ?_⟩
        have hlength := ((sendPublish_accepted_iff hc p chunk reply).1 hok).2 hf
        rwa [List.length_append, Nat.cast_add]
    · exact sendPublish_rests hstarts

def brokenOff : List Deed :=
  let will : Will := { topic := .str "bye", message := .str "over", qos := 0, retain := false }
  let connection : Connection :=
    { host := .str "localhost", port := 1883, clientId := .str "probe", keepAlive := 60
      cleanStart := true, will, username := .null, password := .null, protocol := "3.1.1"
      useTls := false, allowSelfSigned := false, caFile := .null }
  let middle : Publication := { topic := .str "a", qos := 0, length := 2, final := false }
  [.connect connection {}, .job .link, .publish middle [1] {}, .publish middle [2, 3] {},
    .publish middle [4] {}, .arrive .ends, .job .link, .publish middle [5] {}, .finishClose,
    .connect connection {}, .job .link]

/-- The accepted chunk is kept for the next connection; the last one completes the payload. -/
theorem reassembled_after_reconnecting :
    let t := brokenOff.foldl perform {}
    let last : Publication := { topic := .str "b", qos := 1, length := 2, final := true }
    let course := transitions {} brokenOff
    let longer := transitions {} (brokenOff ++ [.publish last [6] {}])
    (writes course).map Write.accepted = [true, false, true, false] ∧
      pending (writes course) = [4] ∧
      (t.sendPublish last [6] {}).1 = { t with
        outgoing := []
        operations := t.operations ++
          [{ id := t.nextId, task := .publish (.str "b") 1 [4, 6], reply := {} }]
        nextId := t.nextId + 1
        ready := t.ready ++ [.operation t.nextId] } ∧
      publishedBytes longer = [4, 6] ∧ [4, 6] <+ accepted (writes longer) := by
  intro t last course longer
  have hwrite := (reassembled (course_transitions {} brokenOff) rfl).1
  obtain ⟨-, -, hconnected, hstarts⟩ := hwrite last [6] {}
  have hok := (hconnected rfl).1.2 ⟨by decide, fun _ => rfl⟩
  rw [if_pos ⟨hok, rfl⟩] at hstarts
  have hlonger := (reassembled (course_transitions {} (brokenOff ++ [.publish last [6] {}])) rfl).2
  have hbytes : publishedBytes longer = [4, 6] := by decide +kernel
  exact ⟨rfl, rfl, hstarts.1, hbytes, hbytes ▸ hlonger⟩

end Reassembled

end Transport

end BrokerTrial

import BrokerTrial.Proofs.Background
import BrokerTrial.Proofs.Reaction
import BrokerTrial.Trial.Run

/-! The states that a trial can come to when jobs and timers come in any order (`Possible`); the
states that it does come to are among them. A scene is a trial as far as its workflow goes, and
`Move.changes` says that every move is a sequence of the single changes in `Scene.Change`. An
invariant of scenes under these changes holds in every possible state (`Possible.scene_of`). -/

namespace BrokerTrial

def Script.link (s : Script) : Link := { enter := s.enter, stream := s.stream }

def Settings.plan (s : Settings) : Session.Plan := ⟨s.chunker, s.limit, s.topics, s.publishTopic⟩

namespace Transport

structure View.Cancelled (v w : View) : Prop where
  length_eq : w.operations.length = v.operations.length
  operations : ∀ op ∈ w.operations, ∃ o ∈ v.operations, op = o ∨ op = { o with cancelled := true }
  link : w.link = v.link ∨ ∃ l, v.link = some l ∧ w.link = some { l with cancelled := true }
  others : w = { v with operations := w.operations, link := w.link }

theorem View.Cancelled.refl (v : View) : v.Cancelled v :=
  ⟨rfl, fun op h => ⟨op, h, .inl rfl⟩, .inl rfl, rfl⟩

theorem View.Cancelled.replace {v w : View} (h : v.Cancelled w) {o : Operation}
    (ho : o ∈ v.operations) : v.Cancelled (w.replace { o with cancelled := true }) := by
  refine ⟨(List.length_map _).trans h.length_eq, ?_, h.link, ?_⟩
  · intro op hop
    obtain ⟨p, hp, rfl⟩ := List.mem_map.1 hop
    dsimp only
    split_ifs
    · exact ⟨o, ho, .inr rfl⟩
    · exact h.operations p hp
  · rw [h.others]
    rfl

theorem view_cancelOperation (t : Transport) (op : Operation) :
    (t.cancelOperation op).view = t.view.replace { op with cancelled := true } := by
  unfold cancelOperation
  dsimp only
  split_ifs <;> simp

theorem view_cancelLink (t : Transport) (l : Link) :
    (t.cancelLink l).view =
      if l.phase = .ended then t.view else t.view.withLink { l with cancelled := true } := by
  unfold cancelLink
  dsimp only
  split_ifs <;> rfl

theorem foldl_cancelled {v : View} (ops : List Operation) (hops : ∀ op ∈ ops, op ∈ v.operations)
    (t : Transport) (h : v.Cancelled t.view) :
    v.Cancelled (ops.foldl cancelOperation t).view ∧
      (ops.foldl cancelOperation t).link = t.link := by
  induction ops generalizing t with
  | nil => exact ⟨h, rfl⟩
  | cons op rest ih =>
    have hview := view_cancelOperation t op
    have hlink : (t.cancelOperation op).link = t.link := congrArg View.link hview
    obtain ⟨h1, h2⟩ := ih (fun o ho => hops o (by simp [ho])) (t.cancelOperation op) <| by
      rw [hview]
      exact h.replace (hops op (by simp))
    exact ⟨h1, h2.trans hlink⟩

theorem beginClose_cancelled (t : Transport) : t.view.Cancelled t.beginClose.view := by
  obtain ⟨h, hlink⟩ := foldl_cancelled t.operations (fun _ ho => ho) t (.refl t.view)
  unfold beginClose
  dsimp only
  split
  · exact h
  · rename_i l hl
    have hl : t.link = some l := hlink.symm.trans hl
    by_cases he : l.phase = .ended
    · rw [if_pos he]
      exact h
    · rw [if_neg he, view_cancelLink, if_neg he]
      exact ⟨h.length_eq, h.operations, .inr ⟨l, hl, rfl⟩,
        congrArg (View.withLink · { l with cancelled := true }) h.others⟩

end Transport

namespace Trial

open Transport (View)

def Phase.live : Phase → Bool
  | .ended _ => false
  | _ => true

def Phase.looping : Phase → Bool
  | .serving | .waiting => true
  | _ => false

theorem Phase.live_of_looping {p : Phase} (h : p.looping) : p.live := by
  cases p <;> simp_all [looping, live]

/-- One step of a trial in which any job that is ready can be next, and any timer. -/
inductive Move (t : Trial) : Trial → Prop
  | serve : t.phase = .serving → Move t t.serve
  | job {job : Job} : t.phase.live → job ∈ t.transport.ready →
      Move t ((t.mapTransport fun r => { r with ready := r.ready.erase job }).runJob job)
  | alarm {timer : Timer} : t.phase.live → timer ∈ t.transport.timers →
      Move t (t.mapTransport (·.fire timer))

/-- The states that a trial can come to. -/
def Possible : Trial → Trial → Prop := Relation.ReflTransGen Move

/-- A fold that keeps what it has or takes what comes next ends with one of them. -/
theorem foldl_eq_or_mem {α : Type} {f : Option α → α → Option α}
    (hf : ∀ found x, f found x = found ∨ f found x = some x) (found : Option α) (xs : List α) :
    xs.foldl f found = found ∨ ∃ x ∈ xs, xs.foldl f found = some x := by
  induction xs generalizing found with
  | nil => exact .inl rfl
  | cons next rest ih =>
    rw [List.foldl_cons]
    rcases ih (f found next) with hsame | ⟨x, hx, hlater⟩
    · rw [hsame]
      rcases hf found next with hkeeps | htakes
      · exact .inl hkeeps
      · exact .inr ⟨next, List.mem_cons_self, htakes⟩
    · exact .inr ⟨x, List.mem_cons_of_mem _ hx, hlater⟩

theorem nextTimer?_mem {r : Transport} {timer : Timer} (h : r.nextTimer? = some timer) :
    timer ∈ r.timers := by
  have hpicked {f : Option Timer → Timer → Option Timer}
      (hf : ∀ first next, f first next = first ∨ f first next = some next)
      (h : r.timers.foldl f none = some timer) : timer ∈ r.timers := by
    rcases foldl_eq_or_mem hf none r.timers with hnone | ⟨found, hmem, hfound⟩
    · cases hnone.symm.trans h
    · rwa [← Option.some.inj (hfound.symm.trans h)]
  refine hpicked ?_ h
  rintro (_ | first) next
  · exact .inr rfl
  · dsimp only
    split_ifs
    · exact .inl rfl
    · exact .inr rfl

theorem step_move {t u : Trial} (h : t.step = some u) : t.Move u := by
  unfold step at h
  split at h
  · cases h
  · rename_i hp
    obtain rfl := Option.some.inj h
    exact .serve hp
  · rename_i hended _
    have hl : t.phase.live := by
      cases hp : t.phase with
      | ended result => exact absurd hp (hended result)
      | _ => rfl
    unfold Transport.nextJob? at h
    cases hready : t.transport.ready with
    | nil =>
      rw [hready] at h
      obtain ⟨timer, htimer, rfl⟩ := Option.map_eq_some_iff.1 h
      exact .alarm hl (nextTimer?_mem htimer)
    | cons job rest =>
      have hjob : job ∈ t.transport.ready := hready ▸ List.mem_cons_self
      have hmove := Move.job hl hjob
      simp only [mapTransport, hready, List.erase_cons_head] at hmove
      rw [hready] at h
      obtain rfl := Option.some.inj h
      exact hmove

theorem Reachable.possible {start t : Trial} (h : start.Reachable t) : start.Possible t := by
  induction h with
  | start => exact .refl
  | step _ hstep ih => exact ih.tail (step_move hstep)

theorem possible_runFor (n : Nat) (t : Trial) : t.Possible (t.runFor n) := by
  induction n generalizing t with
  | zero => exact .refl
  | succ n ih =>
    unfold runFor
    cases hstep : t.step with
    | none => exact .refl
    | some u => exact .head (step_move hstep) (ih u)

/-- A trial as far as its workflow goes. -/
structure Scene where
  plan : Session.Plan
  script : Script
  standing : Standing
  gate : Gate
  phase : Phase
  view : View

def scene (t : Trial) : Scene :=
  ⟨t.plan, t.script, t.standing, t.gate, t.phase, t.transport.view⟩

namespace Scene

def initial (plan : Session.Plan) (script : Script) : Scene :=
  ⟨plan, script, {}, {}, .starting, ⟨[], [], [], false, none, []⟩⟩

def emit (s : Scene) (e : Event) : Scene := { s with view := s.view.emit [e] }

def taken (s : Scene) (rest : List Event) : Scene :=
  { s with phase := .serving, view := { s.view with events := rest } }

inductive Passes (s : Scene) : Request → Scene → Prop
  | write : Passes s .write (s.emit .writeOpportunity)
  | cancel : Passes s .cancel (s.emit .serviceCancelled)
  | subscribe {topics : Subscription} {view : View} {accepted : Bool} :
      s.view.Subscribes topics s.script.drawSubscribe.1 view accepted →
      Passes s (.subscribe topics)
        { s with view, script := if accepted then s.script.drawSubscribe.2 else s.script }
  | publish {p : Publication} {chunk : List UInt8} {view : View} {accepted : Bool} :
      s.view.Publishes p chunk s.script.drawPublish.1 view accepted →
      Passes s (.publish p chunk)
        { s with view, script := if accepted && p.final then s.script.drawPublish.2 else s.script }

inductive PassesAll : Scene → List Request → Scene → Prop
  | nil {s : Scene} : PassesAll s [] s
  | cons {s s' s'' : Scene} {r : Request} {rest : List Request} :
      Passes s r s' → PassesAll s' rest s'' → PassesAll s (r :: rest) s''

namespace PassesAll

variable {s s' : Scene} {r : Request} {rest : List Request}

theorem of_nil (h : PassesAll s [] s') : s' = s := by
  cases h
  rfl

theorem of_cons (h : PassesAll s (r :: rest) s') : ∃ u, s.Passes r u ∧ PassesAll u rest s' := by
  cases h with
  | cons h1 h2 => exact ⟨_, h1, h2⟩

theorem of_singleton (h : PassesAll s [r] s') : s.Passes r s' := by
  obtain ⟨u, h1, h2⟩ := h.of_cons
  rwa [h2.of_nil]

end PassesAll

theorem Passes.of_write {s s' : Scene} (h : s.Passes .write s') :
    s' = s.emit .writeOpportunity := by
  cases h
  rfl

theorem Passes.of_cancel {s s' : Scene} (h : s.Passes .cancel s') :
    s' = s.emit .serviceCancelled := by
  cases h
  rfl

structure Keeps (s s' : Scene) : Prop where
  plan : s'.plan = s.plan
  standing : s'.standing = s.standing
  gate : s'.gate = s.gate
  phase : s'.phase = s.phase
  link : s'.view.link = s.view.link
  history : s'.view.history = s.view.history

theorem Passes.keeps {s s' : Scene} {r : Request} (h : s.Passes r s') : s.Keeps s' := by
  cases h with
  | write => exact ⟨rfl, rfl, rfl, rfl, rfl, rfl⟩
  | cancel => exact ⟨rfl, rfl, rfl, rfl, rfl, rfl⟩
  | subscribe h => cases h <;> exact ⟨rfl, rfl, rfl, rfl, rfl, rfl⟩
  | publish h => cases h <;> exact ⟨rfl, rfl, rfl, rfl, rfl, rfl⟩

theorem PassesAll.keeps {s s' : Scene} {requests : List Request} (h : s.PassesAll requests s') :
    s.Keeps s' := by
  induction h with
  | nil => exact ⟨rfl, rfl, rfl, rfl, rfl, rfl⟩
  | cons hr _ ih =>
    have h := hr.keeps
    exact ⟨ih.plan.trans h.plan, ih.standing.trans h.standing, ih.gate.trans h.gate,
      ih.phase.trans h.phase, ih.link.trans h.link, ih.history.trans h.history⟩

def outcome (s : Scene) : Option Escape → Result
  | none => .finished s.standing.verdict
  | some e => .escaped e

/-- The single changes of a scene. -/
inductive Change (s : Scene) : Scene → Prop
  | work {view : View} : s.phase.live → s.view.Change view → Change s { s with view }
  | connect : s.phase = .starting → s.gate.opened = false → s.view.link = none →
      Change s { s with
        phase := .serving, gate := ⟨true⟩, view := s.view.withLink s.script.link }
  | refuse {reason : String} : s.phase = .starting → s.gate.opened = false →
      Change s { s with
        phase := .serving, gate := ⟨true⟩, standing := s.standing.failed reason }
  | raise {e : Escape} : s.phase = .starting → s.gate.opened = false →
      Change s { s with phase := .closing (some e), gate := ⟨true⟩ }
  /-- The connection was requested before. -/
  | skip : s.phase = .starting → s.gate.opened → Change s { s with phase := .serving }
  | interrupt : s.phase.live →
      Change s ({ s with
        standing := { s.standing with verdict := s.standing.verdict.interrupt } }.emit
          .serviceCancelled)
  | wait : s.phase.looping → s.view.events = [] → Change s { s with phase := .waiting }
  | handle {e : Event} {rest : List Event} {standing : Standing} {requests : List Request}
      {s' : Scene} : s.phase.looping → s.view.events = e :: rest →
      Session.Reacts s.plan s.view.accepts s.standing e standing requests →
      PassesAll { s.taken rest with standing } requests s' → Change s s'
  /-- A message without payload fails the run. -/
  | spoil {topic reason : String} {rest : List Event} : s.phase.looping →
      s.view.events = .messageReceived topic none :: rest →
      Change s { s.taken rest with standing := s.standing.failed reason }
  | overrun {e : Chunker.Error} {rest : List Event} : s.phase.looping →
      s.view.events = .writeOpportunity :: rest →
      Session.Raises s.plan s.standing .writeOpportunity (.chunk e) →
      Change s { s.taken rest with phase := .closing (some (.session (.chunk e))) }
  | close {escape : Option Escape} {view : View} : s.phase.live → s.view.Cancelled view →
      Change s { s with phase := .closing escape, view }
  | finish {escape : Option Escape} : s.phase = .closing escape →
      Change s { s with phase := .ended (s.outcome escape), view := { s.view with link := none } }
  | crash {e : Escape} : s.phase.live → Change s { s with phase := .ended (.escaped e) }

def Changes : Scene → Scene → Prop := Relation.ReflTransGen Change

@[refl] theorem Changes.refl (s : Scene) : s.Changes s := Relation.ReflTransGen.refl

theorem Change.changes {s s' : Scene} (h : s.Change s') : s.Changes s' := .single h

end Scene

theorem scene_ofSettings (settings : Settings) (script : Script) (signals : List Signal) :
    (ofSettings settings script signals).scene = Scene.initial settings.plan script := rfl

end Trial

end BrokerTrial

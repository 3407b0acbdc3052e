import BrokerTrial.Host.Readiness
import Mathlib.Tactic

/-! Histories of a host. Whoever listens is told of every phase on the way, in order, and a host
does not go back. However often the gate is told, and by whom, it requests the connection once: the
first time that the host is said to be operational and to be aimed at that. -/

namespace BrokerTrial

theorem Phase.rank_upTo (first last : Phase) :
    (first.upTo last).map rank = List.range' first.rank (last.rank + 1 - first.rank) := by
  cases first <;> cases last <;> rfl

structure Verdict.Failed (v : Verdict) : Prop where
  outcome : v.outcome = .failure
  interrupted : v.interrupted = true

theorem Verdict.rejectConnect_failed (v : Verdict) : v.rejectConnect.1.Failed := ⟨rfl, rfl⟩

namespace Lifecycle.Notice

/-- Who is told by a notice, and what. -/
def told? : Notice Listener → Option (Listener × Phase × Phase)
  | .log _ => none
  | .tell listener current target => some (listener, current, target)

/-- The gate is told that the host is operational and is to be so. -/
def opens : Notice Listener → Bool
  | .tell .gate current target => current = .operational && target = .operational
  | _ => false

end Lifecycle.Notice

theorem Lifecycle.noticesIn_told (h : Lifecycle Listener) (target phase : Phase) :
    (h.noticesIn target phase).filterMap Notice.told? = h.listeners.map (·, phase, target) := by
  rw [noticesIn, List.filterMap_cons_none rfl, List.filterMap_map]
  exact congrFun List.filterMap_eq_map' h.listeners

namespace Readiness

open Lifecycle (Notice)

/-- An act of a history, with the answer that a connect request would get. -/
structure Turn where
  act : Act
  accepts : Bool

def Turn.registered? (turn : Turn) : Option Listener :=
  match turn.act with
  | .register listener => some listener
  | _ => none

def Effect.isConnect : Effect → Bool
  | .connect => true
  | _ => false

/-- A notice that was given out, and what came of it. -/
structure Telling where
  notice : Notice Listener
  accepts : Bool
  effects : List Effect

namespace Telling

def told? (t : Telling) : Option (Listener × Phase × Phase) := t.notice.told?

def opens (t : Telling) : Bool := t.notice.opens

def connects (t : Telling) : Nat := t.effects.countP Effect.isConnect

end Telling

def notices (r : Readiness) : Act → List (Notice Listener)
  | .advance target =>
    match r.lifecycle.advance target with
    | .error _ => []
    | .ok (_, notices) => notices
  | .notify current target => [.tell .gate current target]
  | .register _ | .connect => []

section Histories

variable (connection : Connection)

def hear (accepts : Bool) (r : Readiness) : List (Notice Listener) → Readiness × List Telling
  | [] => (r, [])
  | n :: rest =>
    let (next, effects) := notice connection accepts (r, []) n
    let (last, tellings) := hear accepts next rest
    (last, ⟨n, accepts, effects⟩ :: tellings)

def run (r : Readiness) : List Turn → Readiness
  | [] => r
  | turn :: rest => run (r.act connection turn.accepts turn.act).state rest

def tellings (r : Readiness) : List Turn → List Telling
  | [] => []
  | turn :: rest =>
    (r.hear connection turn.accepts (r.notices turn.act)).2 ++
      tellings (r.act connection turn.accepts turn.act).state rest

end Histories

/-- Only the first notice that opens the gate leads to a connect request. -/
def Latched (opened : Bool) : List Telling → Prop
  | [] => True
  | t :: rest =>
    t.connects = (if t.opens && !opened then 1 else 0) ∧ Latched (opened || t.opens) rest

theorem Latched.append {opened : Bool} {first rest : List Telling} (h : Latched opened first)
    (h' : Latched (opened || first.any Telling.opens) rest) : Latched opened (first ++ rest) := by
  induction first generalizing opened with
  | nil => simpa using h'
  | cons t first ih =>
    refine ⟨h.1, ih h.2 ?_⟩
    simpa [Bool.or_assoc] using h'

theorem Latched.connects_eq {opened : Bool} {before after : List Telling} {t : Telling}
    (h : Latched opened (before ++ t :: after)) :
    t.connects = if t.opens && !(opened || before.any Telling.opens) then 1 else 0 := by
  induction before generalizing opened with
  | nil => simpa using h.1
  | cons b before ih =>
    rw [ih h.2, List.any_cons, Bool.or_assoc]

section Notices

variable (connection : Connection) (accepts : Bool) (r : Readiness)

theorem notice_append (effects : List Effect) (n : Notice Listener) :
    notice connection accepts (r, effects) n =
      ((notice connection accepts (r, []) n).1,
        effects ++ (notice connection accepts (r, []) n).2) := by
  cases n with
  | log entry => rfl
  | tell listener current target => cases listener <;> rfl

theorem foldl_notice (effects : List Effect) (ns : List (Notice Listener)) :
    ns.foldl (notice connection accepts) (r, effects) =
      ((r.hear connection accepts ns).1,
        effects ++ (r.hear connection accepts ns).2.flatMap Telling.effects) := by
  induction ns generalizing r effects with
  | nil => simp [hear]
  | cons n rest ih =>
    rw [List.foldl_cons, notice_append, ih]
    simp [hear]

theorem hear_notices (ns : List (Notice Listener)) :
    (r.hear connection accepts ns).2.map Telling.notice = ns := by
  induction ns generalizing r with
  | nil => rfl
  | cons n rest ih =>
    simp only [hear, List.map_cons, ih]

theorem request_lifecycle : (r.request connection accepts).1.lifecycle = r.lifecycle := by
  unfold request
  split_ifs <;> rfl

theorem request_gate : (r.request connection accepts).1.gate = r.gate := by
  unfold request
  split_ifs <;> rfl

theorem request_connects : (r.request connection accepts).2.countP Effect.isConnect = 1 := by
  have hlogs (entries : List Log.Entry) : (entries.map Effect.log).countP Effect.isConnect = 0 := by
    rw [List.countP_map]
    exact List.countP_eq_zero.2 fun _ _ => nofun
  unfold request
  split_ifs
  · rfl
  · dsimp only
    rw [List.countP_append, hlogs]
    rfl

theorem tellGate_lifecycle (current target : Phase) :
    (r.tellGate connection accepts current target).1.lifecycle = r.lifecycle := by
  unfold tellGate
  split_ifs
  · exact request_lifecycle connection accepts _
  · rfl

/-- A notice requests the connection exactly if it opens a gate that is still shut. -/
theorem notice_opens (n : Notice Listener) :
    (notice connection accepts (r, []) n).2.countP Effect.isConnect =
        (if n.opens && !r.gate.opened then 1 else 0) ∧
      (notice connection accepts (r, []) n).1.gate.opened = (r.gate.opened || n.opens) := by
  cases n with
  | log entry => simp [notice, Notice.opens, Effect.isConnect]
  | tell listener current target =>
    cases listener with
    | recorder tag => simp [notice, Notice.opens, Effect.isConnect]
    | gate =>
      have hopens : r.gate.opensAt current target =
          ((Notice.tell .gate current target).opens && !r.gate.opened) := rfl
      simp only [notice, tellGate, hopens, List.nil_append]
      cases hn : (Notice.tell Listener.gate current target).opens <;> cases hg : r.gate.opened
      all_goals simp [request_connects, request_gate, Gate.notify, hopens, hn, hg]

/-- A failed run stays one, and a connect request that is rejected makes it one. -/
theorem notice_failed (n : Notice Listener)
    (h : r.verdict.Failed ∨
      0 < (notice connection accepts (r, []) n).2.countP Effect.isConnect ∧ accepts = false) :
    (notice connection accepts (r, []) n).1.verdict.Failed := by
  revert h
  cases n with
  | log entry => simp [notice, Effect.isConnect]
  | tell listener current target =>
    cases listener with
    | recorder tag => simp [notice, Effect.isConnect]
    | gate =>
      simp only [notice, tellGate]
      split_ifs with hopens
      · unfold request
        cases accepts with
        | true => simp
        | false =>
          intro _
          exact r.verdict.rejectConnect_failed
      · simp

theorem hear_latched (ns : List (Notice Listener)) :
    Latched r.gate.opened (r.hear connection accepts ns).2 ∧
      (r.hear connection accepts ns).1.gate.opened =
        (r.gate.opened || (r.hear connection accepts ns).2.any Telling.opens) := by
  induction ns generalizing r with
  | nil => simp [hear, Latched]
  | cons n rest ih =>
    obtain ⟨hconnects, hopened⟩ := notice_opens connection accepts r n
    obtain ⟨hlatched, hlast⟩ := ih (notice connection accepts (r, []) n).1
    rw [hopened] at hlatched hlast
    refine ⟨⟨hconnects, hlatched⟩, ?_⟩
    simp only [hear, List.any_cons, ← Bool.or_assoc]
    exact hlast

theorem hear_failed (ns : List (Notice Listener))
    (h : r.verdict.Failed ∨
      ∃ t ∈ (r.hear connection accepts ns).2, 0 < t.connects ∧ t.accepts = false) :
    (r.hear connection accepts ns).1.verdict.Failed := by
  induction ns generalizing r with
  | nil => simpa [hear] using h
  | cons n rest ih =>
    apply ih
    rcases h with hfailed | ⟨t, ht, hrejected⟩
    · exact .inl (notice_failed connection accepts r n (.inl hfailed))
    · rcases List.mem_cons.1 ht with rfl | hrest
      · exact .inl (notice_failed connection accepts r n (.inr hrejected))
      · exact .inr ⟨t, hrest, hrejected⟩

/-- A listener other than the gate is told just what the notice says. -/
theorem hear_recorder (ns : List (Notice Listener)) {t : Telling} {tag : String}
    {current target : Phase} (ht : t ∈ (r.hear connection accepts ns).2)
    (hn : t.notice = .tell (.recorder tag) current target) :
    t.effects = [.told tag current target] := by
  induction ns generalizing r with
  | nil => cases ht
  | cons n rest ih =>
    rcases List.mem_cons.1 ht with rfl | hrest
    · dsimp only at hn
      rw [hn]
      rfl
    · exact ih _ hrest

end Notices

section Acts

variable (connection : Connection) (accepts : Bool) (r : Readiness)

theorem notices_advance (target : Phase) (h : r.lifecycle.current.rank ≤ target.rank) :
    r.notices (.advance target) =
      (r.lifecycle.current.upTo target).flatMap (r.lifecycle.noticesIn target) := by
  rw [notices, Lifecycle.advance, if_neg (not_lt.2 h)]

theorem act_advance (target : Phase) (h : r.lifecycle.current.rank ≤ target.rank) :
    let given := r.hear connection accepts (r.notices (.advance target))
    r.act connection accepts (.advance target) =
      { state := { given.1 with lifecycle := { r.lifecycle with current := target } }
        effects := given.2.flatMap Telling.effects } := by
  intro given
  rw [act, Lifecycle.advance, if_neg (not_lt.2 h)]
  simp only [← notices_advance r target h, foldl_notice, List.nil_append]
  rfl

/-- A host does not go back: nobody is told anything, and nothing changes. -/
theorem act_backward (target : Phase) (h : target.rank < r.lifecycle.current.rank) :
    r.notices (.advance target) = [] ∧ r.act connection accepts (.advance target) =
      { state := r, error := some (.backward r.lifecycle.current target) } := by
  rw [notices, act, Lifecycle.advance, if_pos h]
  exact ⟨rfl, rfl⟩

/-- What an act does is what its notices do, unless it requests the connection past the gate. -/
theorem act_given {a : Act} (ha : a ≠ .connect) :
    let given := r.hear connection accepts (r.notices a)
    let outcome := r.act connection accepts a
    outcome.effects = given.2.flatMap Telling.effects ∧
      outcome.state = { given.1 with lifecycle := outcome.state.lifecycle } := by
  intro given outcome
  cases a with
  | register listener => exact ⟨rfl, rfl⟩
  | advance target =>
    rcases le_or_gt r.lifecycle.current.rank target.rank with h | h
    · have hact : outcome = _ := act_advance connection accepts r target h
      rw [hact]
      exact ⟨rfl, rfl⟩
    · obtain ⟨hnone, hact⟩ := act_backward connection accepts r target h
      have hgiven : given = (r, []) := by
        show r.hear connection accepts (r.notices (.advance target)) = _
        rw [hnone]
        rfl
      rw [show outcome = _ from hact, hgiven]
      exact ⟨rfl, rfl⟩
  | notify current target => exact ⟨(List.append_nil _).symm, rfl⟩
  | connect => exact absurd rfl ha

theorem act_gate (a : Act) : (r.act connection accepts a).state.gate =
    (r.hear connection accepts (r.notices a)).1.gate := by
  by_cases ha : a = .connect
  · subst ha
    exact request_gate connection accepts r
  · rw [(act_given connection accepts r ha).2]

theorem request_failed (h : r.verdict.Failed) :
    (r.request connection accepts).1.verdict.Failed := by
  unfold request
  split_ifs
  · exact h
  · exact r.verdict.rejectConnect_failed

theorem act_failed (a : Act)
    (h : r.verdict.Failed ∨
      ∃ t ∈ (r.hear connection accepts (r.notices a)).2, 0 < t.connects ∧ t.accepts = false) :
    (r.act connection accepts a).state.verdict.Failed := by
  by_cases ha : a = .connect
  · subst ha
    apply request_failed
    simpa [notices, hear] using h
  · rw [(act_given connection accepts r ha).2]
    exact hear_failed connection accepts r _ h

theorem act_listeners (a : Act) : (r.act connection accepts a).state.lifecycle.listeners =
    r.lifecycle.listeners ++ (Turn.registered? ⟨a, accepts⟩).toList := by
  cases a with
  | register listener => rfl
  | advance target =>
    rw [Turn.registered?, Option.toList_none, List.append_nil]
    rcases le_or_gt r.lifecycle.current.rank target.rank with h | h
    · rw [act_advance _ _ _ _ h]
    · rw [(act_backward _ _ _ _ h).2]
  | notify current target =>
    rw [Turn.registered?, Option.toList_none, List.append_nil]
    exact congrArg Lifecycle.listeners (tellGate_lifecycle connection accepts r current target)
  | connect =>
    rw [Turn.registered?, Option.toList_none, List.append_nil]
    exact congrArg Lifecycle.listeners (request_lifecycle connection accepts r)

end Acts

section Histories

variable (connection : Connection) (r : Readiness) (turns : List Turn)

theorem run_listeners : (run connection r turns).lifecycle.listeners =
    r.lifecycle.listeners ++ turns.filterMap Turn.registered? := by
  induction turns generalizing r with
  | nil => simp [run]
  | cons turn rest ih =>
    rw [run, ih, act_listeners, List.append_assoc]
    cases h : turn.registered? <;> simp [h]

theorem tellings_latched : Latched r.gate.opened (tellings connection r turns) := by
  induction turns generalizing r with
  | nil => trivial
  | cons turn rest ih =>
    obtain ⟨hlatched, hopened⟩ := hear_latched connection turn.accepts r (r.notices turn.act)
    apply hlatched.append
    rw [← hopened, ← act_gate]
    exact ih _

theorem run_failed (h : r.verdict.Failed ∨
    ∃ t ∈ tellings connection r turns, 0 < t.connects ∧ t.accepts = false) :
    (run connection r turns).verdict.Failed := by
  induction turns generalizing r with
  | nil => simpa [tellings, run] using h
  | cons turn rest ih =>
    apply ih
    rcases h with hfailed | ⟨t, ht, hrejected⟩
    · exact .inl (act_failed connection turn.accepts r turn.act (.inl hfailed))
    · rcases List.mem_append.1 ht with hnow | hlater
      · exact .inl (act_failed connection turn.accepts r turn.act (.inr ⟨t, hnow, hrejected⟩))
      · exact .inr ⟨t, hlater, hrejected⟩

theorem tellings_concat (turn : Turn) : tellings connection r (turns ++ [turn]) =
    tellings connection r turns ++
      ((run connection r turns).hear connection turn.accepts
        ((run connection r turns).notices turn.act)).2 := by
  induction turns generalizing r with
  | nil => exact List.append_nil _
  | cons first rest ih =>
    rw [List.cons_append, tellings, ih, tellings, run, List.append_assoc]

theorem tellings_recorder {t : Telling} {tag : String} {current target : Phase}
    (ht : t ∈ tellings connection r turns)
    (hn : t.notice = .tell (.recorder tag) current target) :
    t.effects = [.told tag current target] := by
  induction turns generalizing r with
  | nil => cases ht
  | cons turn rest ih =>
    rcases List.mem_append.1 ht with hnow | hlater
    · exact hear_recorder connection turn.accepts r _ hnow hn
    · exact ih _ hlater

end Histories

/-- Whatever has happened to a host, when it advances, all that were registered are told of every
phase on the way, phase by phase and in the order of their registration; it does not go back. A
notice to the gate requests the connection exactly if it is the first one that says that the host is
operational and is to be so, and if that request is rejected, the run has failed for good. -/
theorem connects_once (connection : Connection) (turns : List Turn) :
    let host := run connection {} turns
    let current := host.lifecycle.current
    let listeners := turns.filterMap Turn.registered?
    let given (accepts : Bool) (a : Act) := (host.hear connection accepts (host.notices a)).2
    (∀ accepts target, current.rank ≤ target.rank →
      let outcome := host.act connection accepts (.advance target)
      outcome.error = none ∧ outcome.state.lifecycle = ⟨target, listeners⟩ ∧
        ((given accepts (.advance target)).filterMap Telling.told? =
          (current.upTo target).flatMap fun phase => listeners.map (·, phase, target)) ∧
        (current.upTo target).map Phase.rank =
          List.range' current.rank (target.rank + 1 - current.rank)) ∧
    (∀ accepts target, target.rank < current.rank →
      host.act connection accepts (.advance target) =
        { state := host, error := some (.backward current target) }) ∧
    (∀ accepts a,
      tellings connection {} (turns ++ [⟨a, accepts⟩]) =
        tellings connection {} turns ++ given accepts a ∧
      (a ≠ .connect →
        (host.act connection accepts a).effects = (given accepts a).flatMap Telling.effects)) ∧
    (∀ t ∈ tellings connection {} turns, ∀ tag phase target,
      t.notice = .tell (.recorder tag) phase target → t.effects = [.told tag phase target]) ∧
    (∀ before t after, tellings connection {} turns = before ++ t :: after →
      t.connects = if t.opens && !before.any Telling.opens then 1 else 0) ∧
    ∀ t ∈ tellings connection {} turns, 0 < t.connects → t.accepts = false →
      host.verdict.outcome = .failure ∧ host.verdict.interrupted = true := by
  intro host current listeners given
  have hlisteners : host.lifecycle.listeners = listeners := run_listeners connection {} turns
  refine ⟨?_, ?_, ?_, ?_, ?_, ?_⟩
  · intro accepts target h outcome
    have hact : outcome = _ := act_advance connection accepts host target h
    refine ⟨?_, ?_, ?_, current.rank_upTo target⟩
    · rw [hact]
    · rw [hact, ← hlisteners]
    · show List.filterMap (Notice.told? ∘ Telling.notice) _ = _
      rw [← List.filterMap_map, hear_notices, notices_advance _ _ h, List.filterMap_flatMap,
        ← hlisteners]
      simp only [Lifecycle.noticesIn_told]
      rfl
  · intro accepts target h
    exact (act_backward connection accepts host target h).2
  · intro accepts a
    exact ⟨tellings_concat connection {} turns ⟨a, accepts⟩,
      fun ha => (act_given connection accepts host ha).1⟩
  · intro t ht tag phase target hn
    exact tellings_recorder connection {} turns ht hn
  · intro before t after hsplit
    have hlatched := tellings_latched connection {} turns
    rw [hsplit] at hlatched
    exact hlatched.connects_eq
  · intro t ht hconnects hrejected
    have hfailed : host.verdict.Failed :=
      run_failed connection {} turns (.inr ⟨t, ht, hconnects, hrejected⟩)
    exact ⟨hfailed.outcome, hfailed.interrupted⟩

def plain : Connection where
  host := .str "localhost"
  port := 1883
  clientId := .str "probe"
  keepAlive := 60
  cleanStart := true
  will := { topic := .str "bye", message := .str "over", qos := 0, retain := false }
  username := .null
  password := .null
  protocol := "3.1.1"
  useTls := false
  allowSelfSigned := false
  caFile := .null

/-- A gate that is registered twice and told once more later requests the connection once, though
the request is rejected. -/
theorem rejected_once :
    let turns : List Turn := [⟨.register .gate, true⟩, ⟨.register .gate, true⟩,
      ⟨.advance .operational, false⟩, ⟨.notify .operational .operational, true⟩]
    let host := run plain {} turns
    (tellings plain {} turns).map Telling.connects = List.replicate 22 0 ++ [1, 0, 0] ∧
      host.verdict.outcome = .failure ∧ host.verdict.interrupted = true := by
  intro turns host
  have hrejected := (connects_once plain turns).2.2.2.2.2
  let first := (tellings plain {} turns)[22]
  have hmem : first ∈ tellings plain {} turns := List.getElem_mem _
  exact ⟨rfl, hrejected first hmem (by decide) rfl⟩

end Readiness

end BrokerTrial

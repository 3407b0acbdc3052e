import BrokerTrial.Proofs.Beginning

/-! The numbers of attempts. When an attempt begins, the next number is given out. So an attempt has
the number of its place among all attempts, and behind the greatest number they come round again
(`attempts_numbered`). -/

namespace BrokerTrial

namespace Transport

/-- The number of the attempt behind `k` others. -/
def attemptNumber (k : Nat) : Int := k % maxAttempt + 1

theorem attemptNumber_succ (k : Nat) :
    attemptNumber (k + 1) = attemptNumber k % maxAttempt + 1 := by
  simp only [attemptNumber, maxAttempt]
  omega

theorem attemptNumber_mem (k : Nat) : 1 ≤ attemptNumber k ∧ attemptNumber k ≤ 65535 := by
  simp only [attemptNumber, maxAttempt]
  omega

theorem attemptNumber_eq_iff (k d : Nat) :
    attemptNumber k = attemptNumber (k + d) ↔ 65535 ∣ d := by
  simp only [attemptNumber, maxAttempt]
  omega

section Course

variable {patience : Patience} {course : List Transition} {t u : Transport} {d : Deed}
  {said : List Event} {op : Operation} {id : Nat} {m : Transition}

theorem attempts_cons (m : Transition) (rest : List Transition) :
    attempts (m :: rest) = m.begun?.toList ++ attempts rest := by
  rw [attempts, List.filterMap_cons]
  cases m.begun? <;> rfl

theorem attempts_append (first rest : List Transition) :
    attempts (first ++ rest) = attempts first ++ attempts rest :=
  List.filterMap_append

theorem attempts_concat (course : List Transition) (m : Transition) :
    attempts (course ++ [m]) = attempts course ++ m.begun?.toList := by
  rw [attempts_append, attempts_cons, show attempts [] = [] from rfl, List.append_nil]

theorem OperationAccounts.account_of_mem (h : OperationAccounts course t)
    (hop : op ∈ t.operations) :
    ∃ m ∈ course, m.before.nextId = op.id ∧ m.before.starts? m.deed = some (op.task, op.reply) ∧
      (op.task.publishes = true → numberOf op.id course = op.phase.attempt?) := by
  have hstarted : op.id ∈ started course := by
    rw [h.born, List.mem_range]
    exact h.numbered.lt op hop
  obtain ⟨m, hm, hid⟩ := List.mem_map.1 hstarted
  obtain ⟨hm, hstarts⟩ := List.mem_filter.1 hm
  obtain ⟨⟨task, reply⟩, hstarts⟩ := Option.isSome_iff_exists.1 hstarts
  obtain ⟨-, number, haccount, hnumber⟩ := h.accounts m hm task reply hstarts
  generalize saidBy (.operation m.before.nextId) course = said at haccount
  cases haccount with
  | runs hop' hid' htask hreply _ _ hattempt _ =>
    obtain rfl := h.numbered.eq hop' hop (hid'.trans hid)
    subst htask hreply hattempt
    rw [hid] at hnumber
    exact ⟨m, hm, hid, hstarts, hnumber⟩
  | ended hgone _ _ => exact absurd hid.symm (hgone op hop)

theorem begins_of_begun? (h : m.begun? = some id) : m.begins id = true := by
  obtain ⟨hunstarted, op, hop, rfl, hp⟩ := of_begun? h
  have hwaits := View.unstarted_of_mem (v := m.before.view) hop (Operation.poised_iff.1 hp).2.1
  rw [Transition.begins, hwaits, hunstarted]
  rfl

/-- An attempt that begins has had no number so far. -/
theorem OperationAccounts.numberOf_eq_none (h : OperationAccounts course t)
    (hbegun : (Transition.mk t d u).begun? = some id) :
    numberOf id course = none := by
  obtain ⟨-, op, hop, rfl, hp⟩ := of_begun? hbegun
  obtain ⟨hpublishes, hnone, -⟩ := Operation.poised_iff.1 hp
  obtain ⟨m, -, -, -, hnumber⟩ := h.account_of_mem hop
  rw [hnumber hpublishes, hnone]

/-- The attempts of a course are numbered by their places. -/
structure Numbering (course : List Transition) (t : Transport) : Prop where
  next_eq : t.nextAttempt = attemptNumber (attempts course).length
  taken : ∀ k id, (attempts course)[k]? = some id → numberOf id course = some (attemptNumber k)
  nodup : (attempts course).Nodup
  born : ∀ id ∈ attempts course, ∃ m ∈ course, m.before.nextId = id ∧
    ∃ task reply, m.before.starts? m.deed = some (task, reply) ∧ task.publishes = true
  attempting : ∀ op ∈ t.operations, op.attempting = true → op.id ∈ attempts course
  resends : ∀ id packet, .resendRequested packet ∈ saidBy (.operation id) course →
    id ∈ attempts course

namespace Numbering

theorem fresh {start : Transport} (hlast : start.lastAttempt = 0) (hops : start.operations = []) :
    Numbering [] start where
  next_eq := by
    rw [nextAttempt, hlast]
    rfl
  taken := nofun
  nodup := .nil
  born := nofun
  attempting := by
    intro op hop
    rw [hops] at hop
    cases hop
  resends := nofun

theorem mem_of_tried (h : Numbering course t) (ht : t.ledger.Tried m.begun? id) :
    id ∈ attempts (course ++ [m]) := by
  rw [attempts_concat, List.mem_append]
  rcases ht with hbegun | ⟨op, hop, rfl, ha⟩
  · exact .inr (by simp [hbegun])
  · exact .inl (h.attempting op hop ha)

theorem taken_concat (haccounts : OperationAccounts course t) (h : Numbering course t)
    (hu : t.Tries d said u)
    (k : Nat) (hk : (attempts (course ++ [⟨t, d, u⟩]))[k]? = some id) :
    numberOf id (course ++ [⟨t, d, u⟩]) = some (attemptNumber k) := by
  rw [attempts_concat, List.getElem?_append] at hk
  rw [numberOf_concat]
  split_ifs at hk with hlt
  · rw [h.taken k id hk]
    rfl
  · cases hbegun : (Transition.mk t d u).begun? with
    | none => simp [hbegun] at hk
    | some id' =>
      simp only [hbegun, Option.toList_some, List.getElem?_singleton] at hk
      obtain ⟨hplace, rfl⟩ : k - (attempts course).length = 0 ∧ id' = id := by
        simpa using hk
      have hlast := hu.last_eq
      rw [hbegun] at hlast
      rw [haccounts.numberOf_eq_none hbegun, begins_of_begun? hbegun, if_pos rfl, Option.none_or,
        show k = (attempts course).length by omega, ← h.next_eq]
      exact congrArg some hlast

/-- Nobody begins twice. -/
theorem nodup_concat (haccounts : OperationAccounts course t) (h : Numbering course t) :
    (attempts (course ++ [⟨t, d, u⟩])).Nodup := by
  rw [attempts_concat, List.nodup_append]
  refine ⟨h.nodup, ?_, ?_⟩
  · cases (Transition.mk t d u).begun? <;> simp
  · rintro id hold _ hnew rfl
    obtain ⟨k, hk⟩ := List.mem_iff_getElem?.1 hold
    have hnone := haccounts.numberOf_eq_none (Option.mem_toList.1 hnew)
    cases hnone.symm.trans (h.taken k id hk)

theorem mem_of_resend (h : Numbering course t) (hp : t.Performs d said u) (hu : t.Tries d said u)
    {packet : Int}
    (hpacket : .resendRequested packet ∈ saidBy (.operation id) (course ++ [⟨t, d, u⟩])) :
    id ∈ attempts (course ++ [⟨t, d, u⟩]) := by
  rw [saidBy_append, saidBy_transition _ hp, List.mem_append] at hpacket
  rcases hpacket with hold | hnew
  · rw [attempts_concat]
    exact List.mem_append_left _ (h.resends id packet hold)
  · split_ifs at hnew with hsource
    · obtain ⟨id', hsource', htried⟩ := hu.resends packet hnew
      obtain rfl := Source.operation.inj (hsource'.symm.trans hsource)
      exact h.mem_of_tried htried
    · cases hnew

/-- A deed keeps the numbers of the attempts so far, and numbers the one that begins. -/
theorem performs (haccounts : OperationAccounts course t) (h : Numbering course t)
    (hp : t.Performs d said u) :
    Numbering (course ++ [⟨t, d, u⟩]) u := by
  have htries := hp.tries haccounts.numbered
  refine ⟨?_, fun k id => h.taken_concat haccounts htries k, h.nodup_concat haccounts, ?_, ?_,
    fun id packet => h.mem_of_resend hp htries⟩
  · rw [attempts_concat, List.length_append, nextAttempt, htries.last_eq]
    cases (Transition.mk t d u).begun? with
    | none => exact h.next_eq
    | some id =>
      show t.nextAttempt % maxAttempt + 1 = attemptNumber ((attempts course).length + 1)
      rw [h.next_eq, attemptNumber_succ]
  · intro id hid
    rw [attempts_concat] at hid
    rcases List.mem_append.1 hid with hold | hnew
    · obtain ⟨m, hm, hborn⟩ := h.born id hold
      exact ⟨m, List.mem_append_left _ hm, hborn⟩
    · obtain ⟨-, op, hop, rfl, hpoised⟩ := of_begun? (Option.mem_toList.1 hnew)
      obtain ⟨m, hm, hid, hstarts, -⟩ := haccounts.account_of_mem hop
      exact ⟨m, List.mem_append_left _ hm, hid, _, _, hstarts,
        (Operation.poised_iff.1 hpoised).1⟩
  · intro op hop ha
    exact h.mem_of_tried (htries.tried op hop ha)

theorem of_course (h : Course { patience } course t) : Numbering course t := by
  induction h with
  | nil => exact fresh rfl rfl
  | @snoc course v d hcourse ih =>
    obtain ⟨said, hp⟩ := v.perform_performs d
    exact ih.performs hcourse.accounts hp

end Numbering

/-- An attempt goes by a number: it was given out when the attempt began, the operation keeps it as
long as it goes on, and a resend is asked for under this number. -/
structure GoesBy (course : List Transition) (t : Transport) (id : Nat) (number : Int) : Prop where
  given : numberOf id course = some number
  kept : ∀ op ∈ t.operations, op.id = id → op.phase.attempt? = some number
  asked : ∀ packet, .resendRequested packet ∈ saidBy (.operation id) course → packet = number

namespace Numbering

variable (h : Numbering course t)

include h

theorem goesBy (haccounts : OperationAccounts course t) {k : Nat}
    (hk : (attempts course)[k]? = some id) :
    GoesBy course t id (attemptNumber k) := by
  have hgiven := h.taken k id hk
  obtain ⟨m, hm, rfl, task, reply, hstarts, hpublishes⟩ := h.born id (List.mem_of_getElem? hk)
  obtain ⟨-, number, haccount, hnumber⟩ := haccounts.accounts m hm task reply hstarts
  obtain rfl : number = some (attemptNumber k) := (hnumber hpublishes).symm.trans hgiven
  generalize hsaid : saidBy (.operation m.before.nextId) course = said at haccount
  refine ⟨hgiven, ?_, ?_⟩
  · intro op hop hid
    cases haccount with
    | runs hop' hid' _ _ _ _ hattempt _ =>
      rwa [haccounts.numbered.eq hop hop' (hid.trans hid'.symm)]
    | ended hgone _ _ => exact absurd hid (hgone op hop)
  · intro packet hpacket
    rw [hsaid] at hpacket
    cases haccount with
    | runs => cases hpacket
    | ended _ _ _ => exact Operation.eq_attempt_of_resend hpacket

/-- Two attempts have the same number if the numbers have come round between their places. -/
theorem numberOf_eq_iff {k d : Nat} {id' : Nat} (hk : (attempts course)[k]? = some id)
    (hd : (attempts course)[k + d]? = some id') :
    numberOf id course = numberOf id' course ↔ 65535 ∣ d := by
  rw [h.taken k id hk, h.taken (k + d) id' hd, Option.some_inj, attemptNumber_eq_iff]

/-- The numbers do not come round in as many attempts as there are numbers. -/
theorem nodup_window {window : List Nat} (hwindow : window <:+: attempts course)
    (hlength : window.length ≤ 65535) : (window.map fun id => numberOf id course).Nodup := by
  obtain ⟨front, behind, hplaces⟩ := hwindow
  have hplace {i : Nat} (hi : i < window.length) :
      (attempts course)[front.length + i]? = some window[i] := by
    rw [← hplaces, List.append_assoc, List.getElem?_append_right (by omega),
      List.getElem?_append_left (by omega), Nat.add_sub_cancel_left, List.getElem?_eq_getElem hi]
  rw [List.Nodup, List.pairwise_map, List.pairwise_iff_getElem]
  intro i j hi hj hij hsame
  have hj' := hplace hj
  rw [show front.length + j = front.length + i + (j - i) by omega] at hj'
  have hround := (h.numberOf_eq_iff (hplace hi) hj').1 hsame
  have hle := Nat.le_of_dvd (by omega) hround
  omega

end Numbering

end Course

section Crowd

/-! A run in which the numbers come round. It is too long to be evaluated, so what one answered
publish leaves behind is proved once, and of all of them by induction; only both ends of the run are
evaluated. -/

theorem transitions_append (t : Transport) (first rest : List Deed) :
    t.transitions (first ++ rest) =
      t.transitions first ++ (first.foldl perform t).transitions rest := by
  induction first generalizing t with
  | nil => rfl
  | cons d first ih => simp [transitions, ih]

def emptyPublication (qos : Int) : Publication :=
  { topic := .str "a", qos, length := 0, final := true }

/-- A publish at QoS 1 that nobody answers begins its attempt. -/
def unanswered (id : Nat) : List Deed :=
  [.publish (emptyPublication 1) [] { wait := .forever }, .job (.operation id), .job (.call id)]

/-- A publish at QoS 0 is over as soon as it has begun, and the host takes notice. -/
def answered (id : Nat) : List Deed :=
  [.publish (emptyPublication 0) [] {}, .job (.operation id), .take]

def firstUnanswered : List Deed :=
  [.connect (willing (.str "over")) {}, .job .link, .take] ++ unanswered 0

/-- All attempts behind the first one are answered, until their numbers are used up. -/
def allAnswered : List Deed := (List.range' 1 65534).flatMap answered

/-- There are 65536 attempts, and only the first and the last one are not answered. -/
def crowd : List Deed := firstUnanswered ++ allAnswered ++ unanswered 65535

def timeouts : List Deed :=
  [.alarm ⟨.finite 20, .limit 0⟩, .alarm ⟨.finite 20, .limit 65535⟩] ++
    [Job.operation, .call, .callEnded, .operation].flatMap fun turn =>
      [.job (turn 0), .job (turn 65535)]

def quick (id : Nat) : Operation := { id, task := .publish (.str "a") 0 [], reply := {} }

/-- A publish waits for its first turn, and nothing else is ready to run. -/
def withQuick (t : Transport) : Transport :=
  { t with
    operations := t.operations ++ [quick t.nextId], nextId := t.nextId + 1
    ready := [.operation t.nextId] }

/-- Nothing is ready to run, nothing is to be taken, and nobody waits for his first turn. -/
structure Calm (t : Transport) : Prop where
  connected : t.connected = true
  outgoing : t.outgoing = []
  ready : t.ready = []
  events : t.events = []
  hostWaits : t.hostWaits = false
  closing : t.closing = 0
  lt : ∀ op ∈ t.operations, op.id < t.nextId
  started : ∀ op ∈ t.operations, op.poised = false

namespace Calm

variable {t : Transport}

theorem asked (h : Calm t) :
    t.perform (.publish (emptyPublication 0) [] {}) = t.withQuick := by
  simp [perform, sendPublish, h.connected, h.outgoing, emptyPublication, spawn, enqueue, h.ready,
    quick, withQuick]

theorem find?_quick (h : Calm t) :
    t.withQuick.operations.find? (·.id = t.nextId) = some (quick t.nextId) := by
  rw [withQuick, List.find?_append, List.find?_eq_none.2]
  · simp [quick]
  · intro op hop
    simpa using (h.lt op hop).ne

theorem filter_quick (h : Calm t) :
    t.withQuick.operations.filter (·.id ≠ t.nextId) = t.operations := by
  rw [withQuick, List.filter_append, List.filter_eq_self.2]
  · simp [quick]
  · intro op hop
    simpa using (h.lt op hop).ne

theorem answers (h : Calm t) : ∃ marks, t.withQuick.perform (.job (.operation t.nextId)) =
    { t with
      nextId := t.nextId + 1, lastAttempt := t.nextAttempt, events := [.acknowledged], marks } := by
  have hready : t.withQuick.ready = [.operation t.nextId] := rfl
  simp only [perform, hready, List.mem_singleton, if_true, List.erase_cons_head, runJob,
    runOperation, operation?, h.find?_quick]
  simp only [quick, Bool.false_eq_true, if_false, startOperation, if_true, callDirectly, settle,
    settlePublish, Reply.ending, log, mark, emit, withQuick, h.hostWaits, endOperation, noteEnded,
    h.closing, h.events, h.ready]
  exact ⟨_, congrArg (fun operations => ({ t with
    operations, nextId := t.nextId + 1, ready := [], hostWaits := false, closing := 0
    lastAttempt := t.nextAttempt, events := [.acknowledged], marks := _ } : Transport))
    h.filter_quick⟩

theorem begun?_of_same (h : Calm t) {m : Transition} (hsame : m.before.operations = t.operations) :
    m.begun? = none := by
  apply begun?_eq_none
  intro op hop hp
  rw [h.started op (hsame ▸ hop)] at hp
  cases hp

theorem begun?_quick (h : Calm t) {m : Transition} (hbefore : m.before = t.withQuick)
    (hafter : m.after.operations = t.operations) : m.begun? = some t.nextId := by
  have hgone : m.after.view.unstarted t.nextId = false :=
    View.unstarted_eq_false fun op hop _ => (h.lt op (hafter ▸ hop)).ne
  have hpoised : (quick t.nextId).poised = true := rfl
  have hnone :
      t.operations.find? (fun op => op.poised && !m.after.view.unstarted op.id) = none := by
    rw [List.find?_eq_none]
    intro op hop
    simp [h.started op hop]
  rw [Transition.begun?, hbefore, withQuick, List.find?_append, hnone, Option.none_or,
    List.find?_singleton, hpoised, show (quick t.nextId).id = t.nextId from rfl, hgone]
  rfl

/-- A publish that is answered leaves its number behind, and is one attempt. -/
theorem answered_eq (h : Calm t) : (∃ marks, (answered t.nextId).foldl perform t =
      { t with nextId := t.nextId + 1, lastAttempt := t.nextAttempt, marks }) ∧
    attempts (t.transitions (answered t.nextId)) = [t.nextId] := by
  obtain ⟨marks, hanswers⟩ := h.answers
  let u : Transport := { t with
    nextId := t.nextId + 1, lastAttempt := t.nextAttempt, events := [.acknowledged], marks }
  have htakes : u.perform .take =
      { t with nextId := t.nextId + 1, lastAttempt := t.nextAttempt, marks } := by
    simp [perform, u, h.events]
  have hasked : (Transition.mk t (.publish (emptyPublication 0) [] {}) t.withQuick).begun? = none :=
    h.begun?_of_same rfl
  have hbegun : (Transition.mk t.withQuick (.job (.operation t.nextId)) u).begun? = some t.nextId :=
    h.begun?_quick rfl rfl
  have htaken : (Transition.mk u .take (u.perform .take)).begun? = none := h.begun?_of_same rfl
  constructor
  · refine ⟨marks, ?_⟩
    simp only [answered, List.foldl_cons, List.foldl_nil, h.asked, hanswers]
    exact htakes
  · simp only [answered, transitions, h.asked, hanswers, attempts_cons]
    rw [hasked, hbegun, htaken]
    rfl

/-- However many publishes are answered, they leave no more than the numbers behind. -/
theorem all_answered (h : Calm t) {k : Nat} (hlast : t.lastAttempt = attemptNumber k) (n : Nat) :
    (∃ marks, ((List.range' t.nextId n).flatMap answered).foldl perform t =
      { t with nextId := t.nextId + n, lastAttempt := attemptNumber (k + n), marks }) ∧
    attempts (t.transitions ((List.range' t.nextId n).flatMap answered)) =
      List.range' t.nextId n := by
  induction n generalizing t k with
  | zero =>
    refine ⟨⟨t.marks, ?_⟩, rfl⟩
    rw [Nat.add_zero, Nat.add_zero, ← hlast]
    rfl
  | succ n ih =>
    obtain ⟨⟨marks, hfirst⟩, hattempts⟩ := h.answered_eq
    let u : Transport := { t with nextId := t.nextId + 1, lastAttempt := t.nextAttempt, marks }
    have hu : Calm u := { h with lt := fun op hop => (h.lt op hop).trans (Nat.lt_succ_self _) }
    have hnext : u.lastAttempt = attemptNumber (k + 1) := by
      rw [attemptNumber_succ, ← hlast]
      rfl
    obtain ⟨⟨marks', hrest⟩, hattempts'⟩ := ih hu hnext
    rw [List.range'_succ, List.flatMap_cons, List.foldl_append, transitions_append, attempts_append,
      hfirst, hattempts]
    refine ⟨⟨marks', hrest.trans ?_⟩, ?_⟩
    · rw [show k + 1 + n = k + (n + 1) by omega, show u.nextId + n = t.nextId + (n + 1) by
        show t.nextId + 1 + n = _; omega]
    · exact congrArg (t.nextId :: ·) hattempts'

end Calm

theorem calm_first : Calm (firstUnanswered.foldl perform {}) :=
  ⟨rfl, rfl, rfl, rfl, rfl, rfl, by decide, by decide⟩

def usedUp : Transport :=
  { firstUnanswered.foldl perform {} with
    nextId := 65535, lastAttempt := 65535
    -- No deed looks at the marks, so they need not be written out.
    marks := ((firstUnanswered ++ allAnswered).foldl perform {}).marks }

def crowded : Transport :=
  { (unanswered 65535).foldl perform usedUp with
    timers := [⟨.finite 20, .limit 0⟩, ⟨.finite 20, .limit 65535⟩] }

theorem usedUp_eq : (firstUnanswered ++ allAnswered).foldl perform {} = usedUp := by
  obtain ⟨⟨marks, hrun⟩, -⟩ := calm_first.all_answered (k := 0) rfl 65534
  rw [usedUp, List.foldl_append,
    show allAnswered.foldl perform (firstUnanswered.foldl perform {}) = _ from hrun]
  rfl

theorem crowded_eq : crowd.foldl perform {} = crowded := by
  -- Sums of instants do not compute; the limits are the only ones here.
  have hdue : Instant.zero.add (.finite ((20 : Int) : Rat)) = .finite 20 := by
    simp [Instant.zero, Instant.add]
  rw [crowd, List.foldl_append, usedUp_eq, crowded, ← hdue]
  rfl

theorem attempts_crowd :
    attempts (transitions {} (crowd ++ timeouts)) = 0 :: List.range' 1 65534 ++ [65535] := by
  have hfirst : attempts (transitions {} firstUnanswered) = [0] := rfl
  have hanswered : attempts ((firstUnanswered.foldl perform {}).transitions allAnswered) =
      List.range' 1 65534 := (calm_first.all_answered (k := 0) rfl 65534).2
  have hlast : attempts (usedUp.transitions (unanswered 65535)) = [65535] := rfl
  have hover : attempts (crowded.transitions timeouts) = [] := rfl
  rw [transitions_append, crowded_eq, crowd, transitions_append _ (_ ++ _), usedUp_eq,
    transitions_append]
  simp only [attempts_append, hfirst, hanswered, hlast, hover, List.append_nil,
    List.singleton_append]

theorem said_crowd {id : Nat} (hid : id = 0 ∨ id = 65535) :
    .resendRequested 1 ∈ saidBy (.operation id) (transitions {} (crowd ++ timeouts)) := by
  rw [transitions_append, crowded_eq, saidBy_append]
  refine List.mem_append_right _ ?_
  rcases hid with rfl | rfl
  · exact List.mem_singleton.2 rfl
  · exact List.mem_singleton.2 rfl

end Crowd

/-- Every attempt goes by the number of its place, whatever becomes of it and whatever the others
do, and nobody else asks for a resend. So two attempts have the same number if and only if they
stand as far apart as the numbers come round again: 65534 attempts have to begin in between. -/
theorem attempts_numbered {patience : Patience} {course : List Transition} {t : Transport}
    (h : Course { patience } course t) :
    (∀ k id, (attempts course)[k]? = some id → GoesBy course t id (attemptNumber k) ∧
      1 ≤ attemptNumber k ∧ attemptNumber k ≤ 65535) ∧
    (attempts course).Nodup ∧
    (∀ id ∈ attempts course, ∃ m ∈ course, m.before.nextId = id ∧
      ∃ task reply, m.before.starts? m.deed = some (task, reply) ∧ task.publishes = true) ∧
    (∀ op ∈ t.operations, op.attempting = true → op.id ∈ attempts course) ∧
    (∀ id packet, .resendRequested packet ∈ saidBy (.operation id) course →
      id ∈ attempts course) ∧
    (∀ window, window <:+: attempts course → window.length ≤ 65535 →
      (window.map fun id => numberOf id course).Nodup) ∧
    ∀ front id between id' behind, attempts course = front ++ id :: between ++ id' :: behind →
      ∀ packet packet', .resendRequested packet ∈ saidBy (.operation id) course →
        .resendRequested packet' ∈ saidBy (.operation id') course →
        (packet = packet' ↔ 65535 ∣ between.length + 1) ∧
          (between.length < 65534 → packet ≠ packet') := by
  have hnumbering := Numbering.of_course h
  refine ⟨?_, hnumbering.nodup, hnumbering.born, hnumbering.attempting, hnumbering.resends, ?_, ?_⟩
  · intro k id hk
    exact ⟨hnumbering.goesBy h.accounts hk, attemptNumber_mem k⟩
  · intro window
    exact hnumbering.nodup_window
  · intro front id between id' behind hplaces packet packet' hpacket hpacket'
    have hfirst : (attempts course)[front.length]? = some id := by simp [hplaces]
    have hsecond : (attempts course)[front.length + (between.length + 1)]? = some id' := by
      rw [hplaces, List.append_assoc, List.getElem?_append_right (by omega)]
      simp
    have hgoes := hnumbering.goesBy h.accounts hfirst
    have hgoes' := hnumbering.goesBy h.accounts hsecond
    have hiff : packet = packet' ↔ 65535 ∣ between.length + 1 := by
      rw [hgoes.asked packet hpacket, hgoes'.asked packet' hpacket', attemptNumber_eq_iff]
    refine ⟨hiff, fun hfew hsame => ?_⟩
    have hle := Nat.le_of_dvd (Nat.succ_pos _) (hiff.1 hsame)
    omega

/-- With 65534 attempts in between, two attempts that are alive at once ask for a resend under the
same number. -/
theorem alike_at_once :
    (∀ id ∈ [0, 65535], ∃ op ∈ (crowd.foldl perform {}).operations,
      op.id = id ∧ op.attempting = true) ∧
    attempts (transitions {} (crowd ++ timeouts)) = [] ++ 0 :: List.range' 1 65534 ++ 65535 :: [] ∧
    (List.range' 1 65534).length < 65535 ∧
    .resendRequested 1 ∈ saidBy (.operation 0) (transitions {} (crowd ++ timeouts)) ∧
    .resendRequested 1 ∈ saidBy (.operation 65535) (transitions {} (crowd ++ timeouts)) := by
  refine ⟨?_, attempts_crowd, ?_, said_crowd (.inl rfl), said_crowd (.inr rfl)⟩
  · rw [crowded_eq]
    intro id hid
    rcases List.mem_pair.1 hid with rfl | rfl
    · exact ⟨_, List.mem_cons_self, rfl, rfl⟩
    · exact ⟨_, List.mem_cons_of_mem _ List.mem_cons_self, rfl, rfl⟩
  · rw [List.length_range']
    omega

/-- The numbers go up to the greatest one and then begin anew. -/
theorem numbers_come_round :
    GoesBy (transitions {} (crowd ++ timeouts)) ((crowd ++ timeouts).foldl perform {}) 0 1 ∧
    GoesBy (transitions {} (crowd ++ timeouts)) ((crowd ++ timeouts).foldl perform {}) 65534 65535 ∧
    GoesBy (transitions {} (crowd ++ timeouts)) ((crowd ++ timeouts).foldl perform {}) 65535 1 := by
  have hrange (n : Nat) : 0 :: List.range' 1 n ++ [n + 1] = List.range (n + 2) := by
    rw [List.range_succ, List.range_eq_range', List.range'_succ]
  have hplaces : attempts (transitions {} (crowd ++ timeouts)) = List.range 65536 :=
    attempts_crowd.trans (hrange 65534)
  have hgoes (k : Nat) (hk : k < 65536) :
      GoesBy (transitions {} (crowd ++ timeouts)) ((crowd ++ timeouts).foldl perform {}) k
        (attemptNumber k) := by
    apply And.left
    apply (attempts_numbered (course_transitions {} (crowd ++ timeouts))).1
    rw [hplaces, List.getElem?_range hk]
  exact ⟨hgoes 0 (by omega), hgoes 65534 (by omega), hgoes 65535 (by omega)⟩

end Transport

end BrokerTrial

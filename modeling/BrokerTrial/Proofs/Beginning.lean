import BrokerTrial.Proofs.Opening
import BrokerTrial.Proofs.Reporting

/-! The beginnings of attempts. The attempt at a publish begins with the first turn of its task,
unless somebody has told the task to stop before (`Transition.begun?`). A deed lets at most one
attempt begin, only that one takes a number, and only who is at his attempt asks for a resend
(`Performs.tries`). -/

namespace BrokerTrial

namespace Operation

variable {op op' : Operation} {marks : List Mark} {attempt : Int} {ending : Ending}

/-- It waits for its first turn to publish, and nobody has told it to stop. -/
def poised (op : Operation) : Bool :=
  op.task.publishes && op.phase.attempt?.isNone && !op.cancelled

def attempting (op : Operation) : Bool := op.task.publishes && op.phase.attempt?.isSome

theorem poised_iff : op.poised = true ↔
    op.task.publishes = true ∧ op.phase.attempt? = none ∧ op.cancelled = false := by
  simp [poised, and_assoc]

theorem attempting_iff : op.attempting = true ↔
    op.task.publishes = true ∧ op.phase.attempt? ≠ none := by
  simp [attempting, Option.isSome_iff_ne_none]

theorem attempt?_eq_none_iff : op.phase.attempt? = none ↔ op.phase = .unstarted := by
  cases op.phase <;> simp [OperationPhase.attempt?]

/-- An operation that was told to stop does not begin. -/
theorem Act.cancelled_eq_false (h : op.Act op' marks) (hp : op.phase = .unstarted) :
    op.cancelled = false := by
  have hnone : op.phase.call? = none := by rw [hp]; rfl
  cases h with
  | call _ _ hc => exact hc
  | guard _ _ hc _ => exact hc
  | skip _ _ hc _ => exact hc
  | callOut hcall _ _ => cases hnone.symm.trans hcall
  | callEnds hcall _ _ => cases hnone.symm.trans hcall
  | callStops hcall _ _ => cases hnone.symm.trans hcall
  | giveUp hguarding _ _ => cases hp.symm.trans hguarding

theorem Act.poised_or_attempting (h : op.Act op' marks) (ha : op'.attempting = true) :
    op.poised = true ∨ op.attempting = true := by
  have hpublishes : op.task.publishes = true := h.task_eq ▸ (attempting_iff.1 ha).1
  by_cases hp : op.phase = .unstarted
  · exact .inl (poised_iff.2
      ⟨hpublishes, attempt?_eq_none_iff.2 hp, h.cancelled_eq_false hp⟩)
  · exact .inr (attempting_iff.2 ⟨hpublishes, mt attempt?_eq_none_iff.1 hp⟩)

theorem Ends.poised_eq_false (h : op.Ends attempt ending) : op.poised = false := by
  rw [Bool.eq_false_iff]
  intro hpoised
  obtain ⟨-, hnone, hc⟩ := poised_iff.1 hpoised
  cases h with
  | cancelled hcancelled => cases hc.symm.trans hcancelled
  | direct hp _ => simp [hp, OperationPhase.attempt?] at hnone
  | guarded hp _ => simp [hp, OperationPhase.attempt?] at hnone
  | closing hp => simp [hp, OperationPhase.attempt?] at hnone
  | outOfTime hp _ => simp [hp, OperationPhase.attempt?] at hnone

theorem Ends.attempting_of_resend {packet : Int} (h : op.Ends attempt ending)
    (hresend : .resendRequested packet ∈ op.report attempt ending) : op.attempting = true := by
  obtain ⟨message, rfl⟩ := timeout_of_mem_report hresend
  rw [attempting_iff]
  constructor
  · cases htask : op.task with
    | publish topic qos payload => rfl
    | subscribe topics => simp [report, htask, subscribeReport] at hresend
  · rcases h.attempt_cases with hattempt | ⟨hcancelled, -⟩
    · rw [hattempt]
      exact Option.some_ne_none _
    · cases hcancelled

/-- A resend is asked for under the number of the attempt. -/
theorem eq_attempt_of_resend {packet : Int}
    (hresend : .resendRequested packet ∈ op.report attempt ending) : packet = attempt := by
  obtain ⟨message, rfl⟩ := timeout_of_mem_report hresend
  cases htask : op.task with
  | publish topic qos payload => simpa [report, htask, publishReport] using hresend
  | subscribe topics => simp [report, htask, subscribeReport] at hresend

end Operation

namespace Transport

theorem View.unstarted_of_mem {v : View} {op : Operation} (hop : op ∈ v.operations)
    (hp : op.phase.attempt? = none) : v.unstarted op.id = true := by
  rw [View.unstarted, List.any_eq_true]
  exact ⟨op, hop, by simp [hp]⟩

theorem View.unstarted_eq_false {v : View} {id : Nat}
    (h : ∀ op ∈ v.operations, op.phase.attempt? = none → op.id ≠ id) : v.unstarted id = false := by
  rw [View.unstarted, List.any_eq_false]
  intro op hop hunstarted
  simp only [Bool.and_eq_true, decide_eq_true_eq, Option.isNone_iff_eq_none] at hunstarted
  exact h op hop hunstarted.2 hunstarted.1

namespace Ledger

/-- The operation with a number is at an attempt, or it is the one that begins its attempt. -/
def Tried (l : Ledger) (begun : Option Nat) (id : Nat) : Prop :=
  begun = some id ∨ ∃ op ∈ l.view.operations, op.id = id ∧ op.attempting = true

/-- What the work of a task does to the attempts: at most one begins, and that one gets the next
number. -/
structure Tries (l : Ledger) (source : Source) (begun : Option Nat) (said : List Event)
    (m : Ledger) : Prop where
  last_eq : m.lastAttempt =
    if begun.isSome then l.lastAttempt % maxAttempt + 1 else l.lastAttempt
  begins : ∀ id, begun = some id → source = .operation id ∧ m.view.unstarted id = false ∧
    ∃ op ∈ l.view.operations, op.id = id ∧ op.poised = true
  waits : ∀ op ∈ l.view.operations, op.poised = true → begun ≠ some op.id → op ∈ m.view.operations
  waited : ∀ op ∈ m.view.operations, op.phase.attempt? = none → op ∈ l.view.operations
  tried : ∀ op ∈ m.view.operations, op.attempting = true → l.Tried begun op.id
  resends : ∀ packet, .resendRequested packet ∈ said →
    ∃ id, source = .operation id ∧ l.Tried begun id

variable {l m n : Ledger} {source : Source} {said events : List Event} {begun later : Option Nat}

theorem Tries.of_same (hops : m.view.operations = l.view.operations)
    (hlast : m.lastAttempt = l.lastAttempt)
    (hsaid : ∀ packet, .resendRequested packet ∉ said) : l.Tries source none said m where
  last_eq := hlast
  begins := nofun
  waits _ hop _ _ := hops ▸ hop
  waited _ hop _ := hops ▸ hop
  tried op hop h := .inr ⟨op, hops ▸ hop, rfl, h⟩
  resends packet h := absurd h (hsaid packet)

theorem Tries.later_eq_none {id : Nat} (h : l.Tries source (some id) said m)
    (h' : m.Tries source later events n) : later = none := by
  obtain ⟨hsource, hunstarted, -⟩ := h.begins id rfl
  cases later with
  | none => rfl
  | some id' =>
    obtain ⟨hsource', -, op, hop, rfl, hpoised⟩ := h'.begins id' rfl
    obtain rfl := Source.operation.inj (hsource.symm.trans hsource')
    have hwaits := View.unstarted_of_mem hop (Operation.poised_iff.1 hpoised).2.1
    cases hunstarted.symm.trans hwaits

theorem Tried.or {id : Nat} (h : l.Tried begun id) (later : Option Nat) :
    l.Tried (begun.or later) id := by
  rcases h with rfl | hold
  · exact .inl rfl
  · exact .inr hold

/-- What is tried later was tried before, or begins later. -/
theorem Tries.tried_trans {id : Nat} (h : l.Tries source begun said m)
    (h' : m.Tries source later events n) (ht : m.Tried later id) :
    l.Tried (begun.or later) id := by
  rcases ht with rfl | ⟨op, hop, rfl, hattempting⟩
  · cases begun with
    | none => exact .inl rfl
    | some _ => cases h.later_eq_none h'
  · exact (h.tried op hop hattempting).or later

theorem Tries.trans (h : l.Tries source begun said m) (h' : m.Tries source later events n) :
    l.Tries source (begun.or later) (said ++ events) n where
  last_eq := by
    cases begun with
    | none => rw [Option.none_or, h'.last_eq, h.last_eq]; rfl
    | some id =>
      have hlast := h'.last_eq
      rw [h.later_eq_none h'] at hlast
      exact hlast.trans h.last_eq
  begins := by
    intro id hid
    cases begun with
    | none =>
      obtain ⟨hsource, hunstarted, op, hop, rfl, hpoised⟩ := h'.begins id hid
      have hold := h.waited op hop (Operation.poised_iff.1 hpoised).2.1
      exact ⟨hsource, hunstarted, op, hold, rfl, hpoised⟩
    | some id' =>
      obtain rfl : id' = id := Option.some.inj hid
      obtain ⟨hsource, hunstarted, hold⟩ := h.begins id' rfl
      refine ⟨hsource, View.unstarted_eq_false fun op hop hnone hid => ?_, hold⟩
      have hwaits := View.unstarted_of_mem (h'.waited op hop hnone) hnone
      rw [hid, hunstarted] at hwaits
      cases hwaits
  waits := by
    intro op hop hpoised hne
    cases begun with
    | none => exact h'.waits op (h.waits op hop hpoised nofun) hpoised hne
    | some id => exact h'.waits op (h.waits op hop hpoised hne) hpoised (h.later_eq_none h' ▸ nofun)
  waited op hop hnone := h.waited op (h'.waited op hop hnone) hnone
  tried op hop hattempting := h.tried_trans h' (h'.tried op hop hattempting)
  resends := by
    intro packet hpacket
    rcases List.mem_append.1 hpacket with hold | hnew
    · obtain ⟨id, hsource, hid⟩ := h.resends packet hold
      exact ⟨id, hsource, hid.or later⟩
    · obtain ⟨id, hsource, hid⟩ := h'.resends packet hnew
      exact ⟨id, hsource, h.tried_trans h' hid⟩

section Change

variable {op op' : Operation} {marks : List Mark}

theorem mem_replace_of_ne {o : Operation} (ho : o ∈ l.view.operations) (hid : o.id ≠ op'.id) :
    o ∈ ((l.view.replace op').record marks).operations :=
  List.mem_map.2 ⟨o, ho, if_neg hid⟩

theorem of_mem_replace {o : Operation} (ho : o ∈ ((l.view.replace op').record marks).operations) :
    o = op' ∨ o ∈ l.view.operations ∧ o.id ≠ op'.id := by
  obtain ⟨o', ho', rfl⟩ := List.mem_map.1 ho
  split_ifs with hid
  · exact .inl rfl
  · exact .inr ⟨ho', hid⟩

/-- An operation that has its turn is at its attempt then. If it was poised, it has begun. -/
theorem tries_act (hl : l.view.Numbered l.nextId) (hop : op ∈ l.view.operations)
    (hact : op.Act op' marks) (hstarted : op'.phase.attempt? ≠ none)
    (hlast : m.lastAttempt =
      if op.poised then l.lastAttempt % maxAttempt + 1 else l.lastAttempt)
    (hview : m.view = (l.view.replace op').record marks) :
    l.Tries (.operation op.id) (if op.poised then some op.id else none) [] m where
  last_eq := by
    rw [hlast]
    cases op.poised <;> rfl
  begins := by
    intro id hid
    split_ifs at hid with hp
    obtain rfl := Option.some.inj hid
    refine ⟨rfl, View.unstarted_eq_false ?_, op, hop, rfl, hp⟩
    intro o ho hnone
    rw [hview] at ho
    rcases of_mem_replace ho with rfl | ⟨-, hne⟩
    · exact absurd hnone hstarted
    · exact hact.id_eq ▸ hne
  waits := by
    intro o ho hp hne
    rw [hview]
    refine mem_replace_of_ne ho fun hid => ?_
    obtain rfl := hl.eq ho hop (hid.trans hact.id_eq)
    exact hne (if_pos hp)
  waited := by
    intro o ho hnone
    rw [hview] at ho
    rcases of_mem_replace ho with rfl | ⟨hold, -⟩
    · exact absurd hnone hstarted
    · exact hold
  tried := by
    intro o ho ha
    rw [hview] at ho
    rcases of_mem_replace ho with rfl | ⟨hold, -⟩
    · rw [hact.id_eq]
      rcases hact.poised_or_attempting ha with hp | hold
      · exact .inl (if_pos hp)
      · exact .inr ⟨op, hop, rfl, hold⟩
    · exact .inr ⟨o, hold, rfl, ha⟩
  resends := nofun

theorem Change.tries (h : l.Change source events m) (hl : l.view.Numbered l.nextId) :
    ∃ begun, l.Tries source begun events m := by
  have hlink (hops : m.view.operations = l.view.operations) (hlast : m.lastAttempt = l.lastAttempt)
      (hsource : source = .link) : ∃ begun, l.Tries source begun events m := by
    refine ⟨none, .of_same hops hlast fun packet hpacket => ?_⟩
    obtain ⟨id, hid⟩ := h.of_operation hpacket rfl
    cases hsource.symm.trans hid
  cases h with
  | @starts op op' marks hop hp hact hattempt =>
    have hstarted : op'.phase.attempt? ≠ none := hattempt ▸ Option.some_ne_none _
    have hpoised : op.poised = op.task.publishes := by
      simp [Operation.poised, hact.cancelled_eq_false hp, hp, OperationPhase.attempt?]
    refine ⟨_, tries_act hl hop hact hstarted ?_ rfl⟩
    rw [hpoised]
    cases op.task <;> rfl
  | @goesOn op op' marks hop hp hact =>
    have hsome : op.phase.attempt? ≠ none := mt Operation.attempt?_eq_none_iff.1 hp
    have hpoised : op.poised = false := by simp [Operation.poised, hsome]
    refine ⟨_, tries_act hl hop hact (hact.attempt?_eq hp ▸ hsome) ?_ rfl⟩
    rw [hpoised]
    rfl
  | @ends op attempt ending hop hends =>
    have hold {o : Operation} (ho : o ∈ ((l.strike op.id ending).emit
        (op.report attempt ending)).view.operations) : o ∈ l.view.operations := by
      rw [emit_view, strike_view] at ho
      exact (List.mem_filter.1 ho).1
    refine ⟨none, noteEnded_lastAttempt _, nofun, ?_, fun o ho _ => hold ho, ?_, ?_⟩
    · intro o ho hpoised _
      rw [emit_view, strike_view]
      refine List.mem_filter.2 ⟨ho, ?_⟩
      rw [decide_eq_true_eq]
      intro hid
      obtain rfl := hl.eq ho hop hid
      cases hends.poised_eq_false.symm.trans hpoised
    · intro o ho ha
      exact .inr ⟨o, hold ho, rfl, ha⟩
    · intro packet hpacket
      exact ⟨op.id, rfl, .inr ⟨op, hop, rfl, hends.attempting_of_resend hpacket⟩⟩
  | connecting => exact hlink rfl rfl rfl
  | established => exact hlink rfl rfl rfl
  | message => exact hlink rfl rfl rfl
  | parked => exact hlink rfl rfl rfl
  | cut =>
    refine hlink ?_ (noteEnded_lastAttempt _) rfl
    rw [emit_view, cut_view]
    rfl
  | broken => exact ⟨none, .of_same rfl rfl nofun⟩

end Change

theorem Works.tries (h : l.Works source said m) (hl : l.view.Numbered l.nextId) :
    ∃ begun, l.Tries source begun said m := by
  induction h with
  | refl => exact ⟨none, .of_same rfl rfl nofun⟩
  | tail hworks hchange ih =>
    obtain ⟨begun, hbegun⟩ := ih
    obtain ⟨later, hlater⟩ := hchange.tries (hworks.numbered hl)
    exact ⟨_, hbegun.trans hlater⟩

end Ledger

/-- The publish that begins its attempt: it was poised, and now it waits no longer. -/
def Transition.begun? (m : Transition) : Option Nat :=
  (m.before.operations.find? fun op => op.poised && !m.after.view.unstarted op.id).map
    Operation.id

/-- The attempts, in the order in which they have begun. -/
def attempts (course : List Transition) : List Nat := course.filterMap Transition.begun?

structure Tries (t : Transport) (d : Deed) (said : List Event) (u : Transport) : Prop where
  last_eq : u.lastAttempt =
    if (Transition.mk t d u).begun?.isSome then t.nextAttempt else t.lastAttempt
  tried : ∀ op ∈ u.operations, op.attempting = true →
    t.ledger.Tried (Transition.mk t d u).begun? op.id
  resends : ∀ packet, .resendRequested packet ∈ said →
    ∃ id, d.source = .operation id ∧ t.ledger.Tried (Transition.mk t d u).begun? id

section Deeds

variable {t u : Transport} {d : Deed} {said : List Event} {id : Nat} {m : Transition}

theorem begun?_eq_none
    (h : ∀ op ∈ m.before.operations, op.poised = true → m.after.view.unstarted op.id = true) :
    m.begun? = none := by
  rw [Transition.begun?, Option.map_eq_none_iff, List.find?_eq_none]
  intro op hop hbegun
  simp only [Bool.and_eq_true, Bool.not_eq_true'] at hbegun
  cases (h op hop hbegun.1).symm.trans hbegun.2

theorem of_begun? (h : m.begun? = some id) : m.after.view.unstarted id = false ∧
    ∃ op ∈ m.before.operations, op.id = id ∧ op.poised = true := by
  obtain ⟨op, hfind, rfl⟩ := Option.map_eq_some_iff.1 h
  have hbegun := List.find?_some hfind
  simp only [Bool.and_eq_true, Bool.not_eq_true'] at hbegun
  exact ⟨hbegun.2, op, List.mem_of_find?_eq_some hfind, rfl, hbegun.1⟩

theorem Ledger.Tries.begun?_eq {source : Source} {begun : Option Nat}
    (h : t.ledger.Tries source begun said u.ledger) (d : Deed) :
    (Transition.mk t d u).begun? = begun := by
  have hwaits {op : Operation} (hop : op ∈ t.operations) (hp : op.poised = true)
      (hne : begun ≠ some op.id) : u.view.unstarted op.id = true :=
    View.unstarted_of_mem (h.waits op hop hp hne) (Operation.poised_iff.1 hp).2.1
  cases begun with
  | none => exact begun?_eq_none fun op hop hp => hwaits hop hp nofun
  | some id =>
    cases hbegun : (Transition.mk t d u).begun? with
    | none =>
      obtain ⟨-, hunstarted, op, hop, rfl, hp⟩ := h.begins id rfl
      rw [Transition.begun?, Option.map_eq_none_iff, List.find?_eq_none] at hbegun
      have hunstarted' : u.view.unstarted op.id = false := hunstarted
      exact absurd (by simp [hp, hunstarted']) (hbegun op hop)
    | some id' =>
      obtain ⟨hunstarted, op, hop, rfl, hp⟩ := of_begun? hbegun
      by_contra hne
      cases (hwaits hop hp fun h' => hne h'.symm).symm.trans hunstarted

theorem Tries.of_waits (hlast : u.lastAttempt = t.lastAttempt)
    (hwaits : ∀ op ∈ t.operations, op.poised = true →
      ∃ o ∈ u.operations, o.id = op.id ∧ o.phase = op.phase)
    (htried : ∀ op ∈ u.operations, op.attempting = true →
      ∃ o ∈ t.operations, o.id = op.id ∧ o.attempting = true)
    (hsaid : ∀ packet, .resendRequested packet ∉ said) : t.Tries d said u := by
  have hnone : (Transition.mk t d u).begun? = none := by
    refine begun?_eq_none fun op hop hp => ?_
    obtain ⟨o, ho, hid, hphase⟩ := hwaits op hop hp
    rw [← hid]
    exact View.unstarted_of_mem ho (hphase ▸ (Operation.poised_iff.1 hp).2.1)
  refine ⟨?_, ?_, fun packet hpacket => absurd hpacket (hsaid packet)⟩
  · rw [hnone]
    exact hlast
  · intro op hop ha
    exact .inr (htried op hop ha)

theorem Tries.of_same (hlast : u.lastAttempt = t.lastAttempt) (hops : u.operations = t.operations)
    (hsaid : ∀ packet, .resendRequested packet ∉ said) : t.Tries d said u :=
  .of_waits hlast (fun op hop _ => ⟨op, hops ▸ hop, rfl, rfl⟩)
    (fun op hop h => ⟨op, hops ▸ hop, rfl, h⟩) hsaid

theorem Performs.tries (h : t.Performs d said u) (ht : t.view.Numbered t.nextId) :
    t.Tries d said u := by
  have hsame {view : View} (hu : t.Becomes u view) (hops : view.operations = t.operations)
      (hsaid : ∀ packet, .resendRequested packet ∉ said) : t.Tries d said u :=
    .of_same hu.lastAttempt_eq ((congrArg View.operations hu.view_eq).trans hops) hsaid
  cases h with
  | @works job _ _ hworks =>
    obtain ⟨begun, hbegun⟩ := hworks.tries ht
    have heq := hbegun.begun?_eq (.job job)
    refine ⟨?_, ?_, ?_⟩
    · rw [heq]
      exact hbegun.last_eq
    · rw [heq]
      exact hbegun.tried
    · rw [heq]
      exact hbegun.resends
  | rests _ _ _ _ hu => exact hsame hu rfl nofun
  | speaks hword hu =>
    refine hsame hu rfl fun packet hpacket => ?_
    obtain rfl := List.mem_singleton.1 hpacket
    cases d <;> cases hword
  | takes hu => exact hsame hu rfl nofun
  | starts outgoing _ _ hview _ hlast =>
    have hops : u.operations = t.operations ++ [_] := congrArg View.operations hview
    refine .of_waits hlast ?_ ?_ nofun
    · intro op hop _
      exact ⟨op, hops ▸ List.mem_append_left _ hop, rfl, rfl⟩
    · intro op hop ha
      rw [hops] at hop
      rcases List.mem_append.1 hop with hold | hnew
      · exact ⟨op, hold, rfl, ha⟩
      · obtain rfl := List.mem_singleton.1 hnew
        exact absurd rfl (Operation.attempting_iff.1 ha).2
  | connects _ hu => exact hsame hu rfl nofun
  | arrives hu => exact hsame hu rfl nofun
  | @closes view _ hc hids _ hu =>
    have hops : u.operations = view.operations := congrArg View.operations hu.view_eq
    refine .of_waits hu.lastAttempt_eq ?_ ?_ nofun
    · intro op hop _
      have hmem : op.id ∈ view.operations.map Operation.id := hids ▸ List.mem_map_of_mem hop
      obtain ⟨o, ho, hid⟩ := List.mem_map.1 hmem
      refine ⟨o, hops ▸ ho, hid, ?_⟩
      obtain ⟨o', ho', rfl | rfl⟩ := hc.operations o ho
      · rw [ht.eq ho' hop hid]
      · rw [← ht.eq ho' hop hid]
    · intro op hop ha
      obtain ⟨o, ho, rfl | rfl⟩ := hc.operations op (hops ▸ hop)
      · exact ⟨op, ho, rfl, ha⟩
      · exact ⟨o, ho, rfl, ha⟩
  | closed hu => exact hsame hu rfl nofun

end Deeds

end Transport

end BrokerTrial

import BrokerTrial.Proofs.Usage

/-! The accounts of operations. Operations are told apart by their numbers (`View.Numbered`), and
each of them has one account (`View.Account`): as long as it goes on it has said nothing, and when
it has ended it has said what it reports, once. Whatever happens to a transport keeps the accounts
of all its operations (`Performs.account`), however they are interleaved. -/

namespace BrokerTrial

theorem Task.attempt_eq {task : Task} (h : task.publishes) (last : Int) :
    task.attempt last = task.lastAttempt last := by
  cases task with
  | subscribe topics => cases h
  | publish topic qos payload => rfl

namespace Mark

def ending? (id : Nat) : Mark → Option Ending
  | .ended n ending => if n = id then some ending else none
  | _ => none

end Mark

theorem Operation.Act.ending?_eq_none {op op' : Operation} {marks : List Mark}
    (h : op.Act op' marks) (id : Nat) : ∀ m ∈ marks, m.ending? id = none := by
  cases h <;> simp [Mark.ending?]

namespace Transport

namespace View

def endings (v : View) (id : Nat) : List Ending := v.history.filterMap (Mark.ending? id)

def unstarted (v : View) (id : Nat) : Bool :=
  v.operations.any fun op => op.id = id && op.phase.attempt?.isNone

/-- The operations have different numbers, and none of them a number to come. -/
structure Numbered (v : View) (next : Nat) : Prop where
  lt : ∀ op ∈ v.operations, op.id < next
  nodup : (v.operations.map Operation.id).Nodup

/-- The account of an operation: what it has said so far, and the number of its attempt if it has
begun one. It may have been `told` to stop. -/
inductive Account (v : View) (id : Nat) (task : Task) (reply : Reply) (told : Prop) :
    List Event → Option Int → Prop
  | runs {op : Operation} {number : Option Int} : op ∈ v.operations → op.id = id → op.task = task →
      op.reply = reply → op.Faithful told → op.Limited → op.phase.attempt? = number →
      v.endings id = [] → Account v id task reply told [] number
  | ended {ending : Ending} {attempt : Int} : (∀ op ∈ v.operations, op.id ≠ id) →
      v.endings id = [ending] →
      (ending = reply.ending ∨ task.limited ∧ ending = .failed ⟨.timeout, none⟩ ∨
        told ∧ ending = .cancelled) →
      Account v id task reply told (({ id, task, reply } : Operation).report attempt ending)
        (some attempt)

variable {v w : View} {next id : Nat} {task : Task} {reply : Reply} {told told' : Prop}
  {said : List Event} {number : Option Int} {op op' : Operation} {marks : List Mark}

theorem Numbered.eq (h : v.Numbered next) (hop : op ∈ v.operations) (hop' : op' ∈ v.operations)
    (hid : op.id = op'.id) : op = op' :=
  List.inj_on_of_nodup_map h.nodup hop hop' hid

theorem Numbered.of_ids {next' : Nat} (h : v.Numbered next) (hnext : next ≤ next')
    (hids : (w.operations.map Operation.id).Sublist (v.operations.map Operation.id)) :
    w.Numbered next' := by
  refine ⟨?_, hids.nodup h.nodup⟩
  intro op hop
  have hmem : op.id ∈ v.operations.map Operation.id := hids.subset (List.mem_map_of_mem hop)
  obtain ⟨o, ho, hid⟩ := List.mem_map.1 hmem
  rw [← hid]
  exact (h.lt o ho).trans_le hnext

theorem endings_record (v : View) (marks : List Mark) (id : Nat) :
    (v.record marks).endings id = v.endings id ++ marks.filterMap (Mark.ending? id) :=
  List.filterMap_append

theorem Numbered.replace (h : v.Numbered next) (op : Operation) (marks : List Mark) :
    ((v.replace op).record marks).Numbered next := by
  refine h.of_ids le_rfl ?_
  rw [show ((v.replace op).record marks).operations = (v.replace op).operations from rfl,
    replace_ids]

theorem Account.unstarted_eq (h : v.Account id task reply told said number)
    (hv : v.Numbered next) : v.unstarted id = number.isNone := by
  cases h with
  | @runs op number hop hid _ _ _ _ hnumber _ =>
    rw [Bool.eq_iff_iff, unstarted, List.any_eq_true]
    constructor
    · rintro ⟨o, ho, hunstarted⟩
      simp only [Bool.and_eq_true, decide_eq_true_eq] at hunstarted
      rw [← hnumber, hv.eq hop ho (hid.trans hunstarted.1.symm)]
      exact hunstarted.2
    · intro hnone
      exact ⟨op, hop, by simpa [hid, hnumber] using hnone⟩
  | ended hgone _ _ =>
    have hnone : v.unstarted id = false := by
      rw [unstarted, List.any_eq_false]
      intro o ho
      simp [hgone o ho]
    exact hnone

theorem Account.congr (h : v.Account id task reply told said number)
    (hops : w.operations = v.operations) (hhistory : w.history = v.history) :
    w.Account id task reply told said number := by
  have hendings : w.endings id = v.endings id := by rw [endings, hhistory, endings]
  cases h with
  | runs hop hid ht hr hf hl hnumber hnone =>
    exact .runs (hops ▸ hop) hid ht hr hf hl hnumber (hendings.trans hnone)
  | ended hgone hone hways => exact .ended (hops ▸ hgone) (hendings.trans hone) hways

theorem Account.emit (h : v.Account id task reply told said number) (events : List Event) :
    (v.emit events).Account id task reply told said number :=
  h.congr rfl rfl

theorem Account.mono (h : v.Account id task reply told said number) (ht : told → told') :
    v.Account id task reply told' said number := by
  cases h with
  | runs hop hid htask hr hf hl hnumber hnone =>
    exact .runs hop hid htask hr (hf.mono ht) hl hnumber hnone
  | ended hgone hone hways =>
    refine .ended hgone hone ?_
    rcases hways with hreply | htimeout | ⟨htold, hcancelled⟩
    · exact .inl hreply
    · exact .inr (.inl htimeout)
    · exact .inr (.inr ⟨ht htold, hcancelled⟩)

theorem Account.replace (h : v.Account id task reply told said number) (hid : op.id ≠ id)
    (hmarks : ∀ m ∈ marks, m.ending? id = none) :
    ((v.replace op).record marks).Account id task reply told said number := by
  have hendings : ((v.replace op).record marks).endings id = v.endings id := by
    rw [endings_record, List.filterMap_eq_nil_iff.2 hmarks, List.append_nil]
    rfl
  cases h with
  | @runs o _ ho hoid ht hr hf hl hnumber hnone =>
    have hstays : o ∈ ((v.replace op).record marks).operations :=
      List.mem_map.2 ⟨o, ho, if_neg (by rw [hoid]; exact hid.symm)⟩
    exact .runs hstays hoid ht hr hf hl hnumber (hendings.trans hnone)
  | ended hgone hone hways =>
    refine .ended ?_ (hendings.trans hone) hways
    intro o ho
    have hmem : o.id ∈ (v.replace op).operations.map Operation.id := List.mem_map_of_mem ho
    rw [replace_ids] at hmem
    obtain ⟨o', ho', hid'⟩ := List.mem_map.1 hmem
    rw [← hid']
    exact hgone o' ho'

theorem Account.remove (h : v.Account id task reply told said number) {n : Nat} (hn : n ≠ id)
    (ending : Ending) :
    ((v.remove n).record [.ended n ending]).Account id task reply told said number := by
  have hendings : ((v.remove n).record [.ended n ending]).endings id = v.endings id := by
    rw [endings_record]
    simp [Mark.ending?, hn]
    rfl
  cases h with
  | runs ho hoid ht hr hf hl hnumber hnone =>
    refine .runs (List.mem_filter.2 ⟨ho, ?_⟩) hoid ht hr hf hl hnumber (hendings.trans hnone)
    simpa [hoid] using hn.symm
  | ended hgone hone hways =>
    exact .ended (fun o ho => hgone o (List.mem_filter.1 ho).1) (hendings.trans hone) hways

theorem Account.act (h : v.Account op.id task reply told said number) (hv : v.Numbered next)
    (hop : op ∈ v.operations) (ha : op.Act op' marks) :
    said = [] ∧ op.task = task ∧ op.phase.attempt? = number ∧
      ((v.replace op').record marks).Account op.id task reply told [] op'.phase.attempt? := by
  cases h with
  | @runs o _ ho hid ht hr hf hl hnumber hnone =>
    obtain rfl := hv.eq ho hop hid
    refine ⟨rfl, ht, hnumber, .runs (mem_replace hop ha.id_eq.symm) ha.id_eq
      (ha.task_eq.trans ht) (ha.reply_eq.trans hr) (hf.act ha) (hl.act ha) rfl ?_⟩
    rw [endings_record, List.filterMap_eq_nil_iff.2 (ha.ending?_eq_none o.id), List.append_nil]
    exact hnone
  | ended hgone _ _ => exact absurd rfl (hgone op hop)

/-- The operation ends, and says what it reports. -/
theorem Account.ends (h : v.Account op.id task reply told said number) (hv : v.Numbered next)
    (hop : op ∈ v.operations) {attempt : Int} {ending : Ending} (he : op.Ends attempt ending) :
    said = [] ∧ op.phase.attempt? = number ∧
      ((v.remove op.id).record [.ended op.id ending]).Account op.id task reply told
        (op.report attempt ending) (some attempt) := by
  cases h with
  | @runs o _ ho hid ht hr hf hl hnumber hnone =>
    obtain rfl := hv.eq ho hop hid
    subst ht hr
    refine ⟨rfl, hnumber, ?_⟩
    have hreport : o.report attempt ending =
        ({ id := o.id, task := o.task, reply := o.reply } : Operation).report attempt ending := rfl
    rw [hreport]
    refine .ended (fun o' ho' => by simpa using (List.mem_filter.1 ho').2) ?_ ?_
    · rw [endings_record, show (v.remove o.id).endings o.id = v.endings o.id from rfl, hnone]
      simp [Mark.ending?]
    · rcases hf.ends he with hreply | ⟨hcall, htimeout⟩ | htold
      · exact .inl hreply
      · exact .inr (.inl ⟨hl hcall, htimeout⟩)
      · exact .inr (.inr htold)
  | ended hgone _ _ => exact absurd rfl (hgone op hop)

end View

namespace Ledger

open View (Account)

variable {l m : Ledger} {source : Source} {events said : List Event} {id : Nat} {task : Task}
  {reply : Reply} {told : Prop} {reports : List Event} {number : Option Int}

theorem Change.numbered (h : l.Change source events m) (hl : l.view.Numbered l.nextId) :
    m.view.Numbered m.nextId := by
  have hkeeps {next : Nat} (hnext : l.nextId = next)
      (hops : m.view.operations = l.view.operations) : m.view.Numbered next :=
    hl.of_ids hnext.le (by rw [hops])
  cases h with
  | @starts op op' marks _ _ _ _ => exact hl.replace op' marks
  | @goesOn op op' marks _ _ _ => exact hl.replace op' marks
  | @ends op attempt ending _ _ =>
    have hnext : ((l.strike op.id ending).emit (op.report attempt ending)).nextId = l.nextId :=
      noteEnded_nextId _
    rw [hnext, emit_view, strike_view]
    exact hl.of_ids le_rfl (List.filter_sublist.map _)
  | connecting => exact hkeeps rfl rfl
  | established => exact hkeeps rfl rfl
  | message => exact hkeeps rfl rfl
  | parked => exact hkeeps rfl rfl
  | @cut link ended ending _ _ _ _ =>
    have hnext : ((l.cut ended).emit (Link.report ending)).nextId = l.nextId := noteEnded_nextId _
    exact hkeeps hnext.symm (by rw [emit_view, cut_view]; rfl)
  | broken => exact hkeeps rfl rfl

/-- What an operation does of itself: it goes on with the attempt that it is at, or it begins one,
and its number is the last one given out. -/
theorem Change.account (h : l.Change source events m) (hl : l.view.Numbered l.nextId)
    (ha : l.view.Account id task reply told reports number) :
    let own := if source = .operation id then events else []
    m.view.Account id task reply told (reports ++ own) number ∧
        (source = .operation id → m.lastAttempt = l.lastAttempt) ∨
      source = .operation id ∧ number = none ∧ ∃ attempt,
        m.view.Account id task reply told (reports ++ own) (some attempt) ∧
          (task.publishes → attempt = m.lastAttempt) := by
  -- what another task does is nothing that this operation says
  have hother (hsource : source ≠ .operation id)
      (hm : m.view.Account id task reply told reports number) :
      m.view.Account id task reply told
          (reports ++ if source = .operation id then events else []) number ∧
        (source = .operation id → m.lastAttempt = l.lastAttempt) := by
    rw [if_neg hsource, List.append_nil]
    exact ⟨hm, fun hs => absurd hs hsource⟩
  cases h with
  | @starts op op' marks hop hp hact hattempt =>
    by_cases hid : op.id = id
    · subst hid
      obtain ⟨rfl, rfl, rfl, hrest⟩ := ha.act hl hop hact
      refine .inr ⟨rfl, by rw [hp]; rfl, _, ?_, fun hpub => Task.attempt_eq hpub _⟩
      rw [hattempt] at hrest
      simpa using hrest
    · exact .inl (hother (by simpa using hid)
        (ha.replace (hact.id_eq.trans_ne hid) (hact.ending?_eq_none id)))
  | @goesOn op op' marks hop hp hact =>
    by_cases hid : op.id = id
    · subst hid
      obtain ⟨rfl, rfl, rfl, hrest⟩ := ha.act hl hop hact
      rw [hact.attempt?_eq hp] at hrest
      exact .inl ⟨by simpa using hrest, fun _ => rfl⟩
    · exact .inl (hother (by simpa using hid)
        (ha.replace (hact.id_eq.trans_ne hid) (hact.ending?_eq_none id)))
  | @ends op attempt ending hop he =>
    have hlast : ((l.strike op.id ending).emit (op.report attempt ending)).lastAttempt =
        l.lastAttempt := noteEnded_lastAttempt _
    by_cases hid : op.id = id
    · subst hid
      rw [emit_view, strike_view]
      rcases he.attempt_cases with hattempt | ⟨rfl, hany⟩
      · obtain ⟨rfl, rfl, hrest⟩ := ha.ends hl hop he
        rw [hattempt]
        exact .inl ⟨by simpa using hrest.emit _, fun _ => hlast⟩
      · -- what was cancelled says nothing, whatever attempt it was at
        have hcancelled (n : Int) := ha.ends hl hop (hany n)
        simp only [Operation.report_cancelled] at hcancelled ⊢
        obtain ⟨rfl, -, -⟩ := hcancelled 0
        cases number with
        | some n => exact .inl ⟨by simpa using (hcancelled n).2.2, fun _ => hlast⟩
        | none =>
          refine .inr ⟨trivial, rfl, l.lastAttempt, ?_, fun _ => hlast.symm⟩
          simpa using (hcancelled l.lastAttempt).2.2
    · refine .inl (hother (by simpa using hid) ?_)
      rw [emit_view, strike_view]
      exact (ha.remove hid ending).emit _
  | connecting => exact .inl (hother nofun (ha.congr rfl rfl))
  | established => exact .inl (hother nofun (ha.congr rfl rfl))
  | message => exact .inl (hother nofun (ha.congr rfl rfl))
  | parked => exact .inl (hother nofun (ha.congr rfl rfl))
  | cut =>
    refine .inl (hother nofun ?_)
    rw [emit_view, cut_view]
    exact ha.congr rfl rfl
  | broken =>
    refine .inl ⟨?_, fun _ => rfl⟩
    rw [ite_self, List.append_nil]
    exact ha

theorem Works.numbered (h : l.Works source said m) (hl : l.view.Numbered l.nextId) :
    m.view.Numbered m.nextId := by
  induction h with
  | refl => exact hl
  | tail _ hchange ih => exact hchange.numbered ih

theorem Change.nextId_eq (h : l.Change source events m) : m.nextId = l.nextId := by
  cases h with
  | ends => exact noteEnded_nextId _
  | cut => exact noteEnded_nextId _
  | _ => rfl

theorem Change.unborn (h : l.Change source events m) (hl : ∀ op ∈ l.view.operations, op.id ≠ id) :
    m.view.endings id = l.view.endings id ∧ (source = .operation id → events = []) := by
  have hact {op op' : Operation} {marks : List Mark} (hop : op ∈ l.view.operations)
      (ha : op.Act op' marks) : ((l.view.replace op').record marks).endings id =
        l.view.endings id := by
    rw [View.endings_record, List.filterMap_eq_nil_iff.2 (ha.ending?_eq_none id), List.append_nil]
    rfl
  cases h with
  | starts hop _ ha _ => exact ⟨hact hop ha, fun _ => rfl⟩
  | goesOn hop _ ha => exact ⟨hact hop ha, fun _ => rfl⟩
  | @ends op attempt ending hop _ =>
    rw [emit_view, strike_view]
    refine ⟨?_, fun hs => absurd (Source.operation.inj hs) (hl op hop)⟩
    show (((l.view.remove op.id).record [.ended op.id ending])).endings id = _
    rw [View.endings_record]
    simp [Mark.ending?, hl op hop]
    rfl
  | connecting => exact ⟨rfl, nofun⟩
  | established => exact ⟨rfl, nofun⟩
  | message => exact ⟨rfl, nofun⟩
  | parked => exact ⟨rfl, nofun⟩
  | cut =>
    rw [emit_view, cut_view]
    exact ⟨rfl, nofun⟩
  | broken => exact ⟨rfl, fun _ => rfl⟩

theorem Works.nextId_eq (h : l.Works source said m) : m.nextId = l.nextId := by
  induction h with
  | refl => rfl
  | tail _ hchange ih => exact hchange.nextId_eq.trans ih

theorem Works.unborn (h : l.Works source said m) (hl : l.view.Numbered l.nextId)
    (hid : l.nextId ≤ id) :
    m.view.endings id = l.view.endings id ∧ (source = .operation id → said = []) := by
  induction h with
  | refl => exact ⟨rfl, fun _ => rfl⟩
  | @tail said events m n hworks hchange ih =>
    obtain ⟨hendings, hsaid⟩ := ih
    have hm := hworks.numbered hl
    have hunborn : ∀ op ∈ m.view.operations, op.id ≠ id := fun op hop =>
      ((hm.lt op hop).trans_le (hworks.nextId_eq.trans_le hid)).ne
    obtain ⟨hendings', hevents⟩ := hchange.unborn hunborn
    refine ⟨hendings'.trans hendings, fun hs => ?_⟩
    rw [hsaid hs, hevents hs, List.append_nil]

theorem Works.account (h : l.Works source said m) (hl : l.view.Numbered l.nextId)
    (ha : l.view.Account id task reply told reports number) :
    let own := if source = .operation id then said else []
    m.view.Account id task reply told (reports ++ own) number ∧
        (source = .operation id → m.lastAttempt = l.lastAttempt) ∨
      source = .operation id ∧ number = none ∧ ∃ attempt,
        m.view.Account id task reply told (reports ++ own) (some attempt) ∧
          (task.publishes → attempt = m.lastAttempt) := by
  induction h with
  | refl => exact .inl ⟨by simpa using ha, fun _ => rfl⟩
  | @tail said events m n hworks hchange ih =>
    have happend : (if source = .operation id then said ++ events else []) =
        (if source = .operation id then said else []) ++
          if source = .operation id then events else [] := by
      split_ifs <;> rfl
    dsimp only at ih ⊢
    rw [happend, ← List.append_assoc]
    rcases ih with ⟨haccount, hlast⟩ | ⟨hsource, hnone, attempt, haccount, hattempt⟩
    · rcases hchange.account (hworks.numbered hl) haccount with
        ⟨hnext, hlast'⟩ | ⟨hsource, hnone, attempt, hnext, hattempt⟩
      · exact .inl ⟨hnext, fun hs => (hlast' hs).trans (hlast hs)⟩
      · exact .inr ⟨hsource, hnone, attempt, hnext, hattempt⟩
    · rcases hchange.account (hworks.numbered hl) haccount with
        ⟨hnext, hlast'⟩ | ⟨-, hsome, -⟩
      · exact .inr ⟨hsource, hnone, attempt, hnext,
          fun hp => (hattempt hp).trans (hlast' hsource).symm⟩
      · cases hsome

end Ledger

def Transition.begins (m : Transition) (id : Nat) : Bool :=
  m.before.view.unstarted id && !m.after.view.unstarted id

/-- The number of the attempt that an operation makes: the last one that was given out when the
attempt began. -/
def numberOf (id : Nat) (course : List Transition) : Option Int :=
  (course.find? (·.begins id)).map (·.after.lastAttempt)

def started (course : List Transition) : List Nat :=
  (course.filter fun m => (m.before.starts? m.deed).isSome).map (·.before.nextId)

/-- Somebody has told the tasks to stop. -/
def Told (course : List Transition) : Prop := ∃ m ∈ course, m.deed = .beginClose

section Performs

open View (Account)

variable {t u : Transport} {d : Deed} {said : List Event} {id : Nat} {task : Task} {reply : Reply}
  {told : Prop} {reports : List Event} {number : Option Int}

inductive Treats (t : Transport) (d : Deed) (said : List Event) (u : Transport) : Prop
  | works {source : Source} : d.source = source → t.starts? d = none →
      t.ledger.Works source said u.ledger → Treats t d said u
  | starts {task : Task} {reply : Reply} (outgoing : List UInt8) :
      t.starts? d = some (task, reply) → said = [] →
      u.view = { t.view with outgoing }.start t.nextId task reply → u.nextId = t.nextId + 1 →
      Treats t d said u
  | cancels {view : View} : d = .beginClose → t.view.Cancelled view →
      view.operations.map Operation.id = t.view.operations.map Operation.id → said = [] →
      t.Becomes u view → Treats t d said u
  | spares {view : View} : t.Becomes u view → view.operations = t.view.operations →
      view.history = t.view.history → t.starts? d = none →
      (∀ id, d.source = .operation id → said = []) → Treats t d said u

theorem Performs.treats (h : t.Performs d said u) : t.Treats d said u := by
  cases h with
  | works hworks => exact .works rfl rfl hworks
  | rests _ _ hnone _ hu => exact .spares hu rfl rfl hnone fun _ _ => rfl
  | speaks hword hu =>
    refine .spares hu rfl rfl (starts?_of_word? hword) fun id hs => ?_
    cases (Deed.source_of_word? hword).symm.trans hs
  | takes hu => exact .spares hu rfl rfl rfl fun _ _ => rfl
  | starts outgoing hstarts _ hview hnext _ => exact .starts outgoing hstarts rfl hview hnext
  | connects _ hu => exact .spares hu rfl rfl rfl fun _ _ => rfl
  | arrives hu => exact .spares hu rfl rfl rfl fun _ _ => rfl
  | closes hc hids _ hu => exact .cancels rfl hc hids rfl hu
  | closed hu => exact .spares hu rfl rfl rfl fun _ _ => rfl

theorem Performs.numbered (h : t.Performs d said u) (ht : t.view.Numbered t.nextId) :
    u.view.Numbered u.nextId := by
  cases h.treats with
  | works _ _ hworks => exact hworks.numbered ht
  | starts _ _ _ hview hnext =>
    rw [hview, hnext]
    refine ⟨?_, ?_⟩
    · intro op hop
      rcases List.mem_append.1 hop with hold | hnew
      · exact (ht.lt op hold).trans (Nat.lt_succ_self _)
      · rw [List.mem_singleton.1 hnew]
        exact Nat.lt_succ_self _
    · simp only [View.start, List.map_append, List.map_singleton]
      refine List.Nodup.append ht.nodup (List.nodup_singleton _) ?_
      simp only [List.disjoint_singleton, List.mem_map, not_exists, not_and]
      exact fun op hop => (ht.lt op hop).ne
  | cancels _ _ hids _ hu =>
    rw [hu.nextId_eq, hu.view_eq]
    exact ht.of_ids le_rfl (by rw [hids])
  | spares hu hops _ _ _ =>
    rw [hu.nextId_eq, hu.view_eq]
    exact ht.of_ids le_rfl (by rw [hops])

/-- An operation that is told to stop has not said anything yet. -/
theorem View.Account.cancelled {v w : View} {next : Nat}
    (h : v.Account id task reply told reports number) (hv : v.Numbered next) (htold : told)
    (hc : v.Cancelled w)
    (hids : w.operations.map Operation.id = v.operations.map Operation.id) :
    w.Account id task reply told reports number := by
  have hendings : w.endings id = v.endings id := by
    rw [hc.others]
    rfl
  cases h with
  | @runs op _ hop hid htask hr hf hl hnumber hnone =>
    have hmem : op.id ∈ w.operations.map Operation.id := by
      rw [hids]
      exact List.mem_map_of_mem hop
    obtain ⟨op', hop', hid'⟩ := List.mem_map.1 hmem
    obtain ⟨o, ho, rfl | rfl⟩ := hc.operations op' hop'
    · obtain rfl := hv.eq ho hop hid'
      exact .runs hop' hid htask hr hf hl hnumber (hendings.trans hnone)
    · obtain rfl := hv.eq ho hop hid'
      exact .runs hop' hid htask hr ⟨fun _ => htold, hf.guarding, hf.givingUp⟩ hl hnumber
        (hendings.trans hnone)
  | ended hgone hone hways =>
    refine .ended ?_ (hendings.trans hone) hways
    intro op hop
    have hmem : op.id ∈ v.operations.map Operation.id := by
      rw [← hids]
      exact List.mem_map_of_mem hop
    obtain ⟨o, ho, hid⟩ := List.mem_map.1 hmem
    rw [← hid]
    exact hgone o ho

/-- Whatever happens to a transport keeps the account of each operation. -/
theorem Performs.account (h : t.Performs d said u) (ht : t.view.Numbered t.nextId)
    (hid : id < t.nextId) (hclose : d = .beginClose → told)
    (ha : t.view.Account id task reply told reports number) :
    let own := if d.source = .operation id then said else []
    u.view.Account id task reply told (reports ++ own) number ∨
      number = none ∧ ∃ attempt, u.view.Account id task reply told (reports ++ own) (some attempt) ∧
        (task.publishes → attempt = u.lastAttempt) := by
  have hsilent (hsaid : d.source = .operation id → said = []) :
      reports ++ (if d.source = .operation id then said else []) = reports := by
    split_ifs with hs
    · rw [hsaid hs, List.append_nil]
    · exact List.append_nil _
  dsimp only
  cases h.treats with
  | works hsource _ hworks =>
    subst hsource
    rcases hworks.account ht ha with ⟨haccount, -⟩ | ⟨-, hnone, hbegun⟩
    · exact .inl haccount
    · exact .inr ⟨hnone, hbegun⟩
  | starts _ _ hsaid hview _ =>
    refine .inl ?_
    rw [hsilent fun _ => hsaid, hview]
    cases ha with
    | runs hop hid htask hr hf hl hnumber hnone =>
      exact .runs (List.mem_append_left _ hop) hid htask hr hf hl hnumber hnone
    | ended hgone hone hways =>
      refine .ended ?_ hone hways
      intro op hop
      rcases List.mem_append.1 hop with hold | hnew
      · exact hgone op hold
      · rw [List.mem_singleton.1 hnew]
        exact hid.ne'
  | cancels hbegin hc hids hsaid hu =>
    rw [hsilent fun _ => hsaid, hu.view_eq]
    exact .inl (ha.cancelled ht (hclose hbegin) hc hids)
  | spares hu hops hhistory _ hsaid =>
    rw [hsilent (hsaid id), hu.view_eq]
    exact .inl (ha.congr hops hhistory)

/-- Nothing is done for an operation that is yet to come. -/
theorem Performs.unborn (h : t.Performs d said u) (ht : t.view.Numbered t.nextId)
    (hid : u.nextId ≤ id) : t.nextId ≤ id ∧ u.view.endings id = t.view.endings id ∧
      (d.source = .operation id → said = []) := by
  cases h.treats with
  | works hsource _ hworks =>
    subst hsource
    have hnext : u.nextId = t.nextId := hworks.nextId_eq
    have hle : t.nextId ≤ id := hnext.symm.trans_le hid
    exact ⟨hle, hworks.unborn ht hle⟩
  | starts _ _ hsaid hview hnext =>
    refine ⟨(Nat.le_succ _).trans (hnext.symm.trans_le hid), ?_, fun _ => hsaid⟩
    rw [hview]
    rfl
  | cancels _ hc _ hsaid hu =>
    refine ⟨hu.nextId_eq.symm.trans_le hid, ?_, fun _ => hsaid⟩
    rw [hu.view_eq, hc.others]
    rfl
  | spares hu _ hhistory _ hsaid =>
    refine ⟨hu.nextId_eq.symm.trans_le hid, ?_, hsaid id⟩
    rw [hu.view_eq, View.endings, hhistory, View.endings]

/-- Every task that is started takes the next number. -/
theorem Performs.nextId_eq (h : t.Performs d said u) :
    u.nextId = t.nextId + if (t.starts? d).isSome then 1 else 0 := by
  cases h.treats with
  | works _ hnone hworks =>
    have hnext : u.nextId = t.nextId := hworks.nextId_eq
    rw [hnone, hnext]
    rfl
  | starts _ hstarts _ _ hnext =>
    rw [hstarts, hnext]
    rfl
  | cancels hbegin _ _ _ hu =>
    rw [hbegin, hu.nextId_eq]
    rfl
  | spares hu _ _ hnone _ =>
    rw [hnone, hu.nextId_eq]
    rfl

theorem Performs.nextId_le (h : t.Performs d said u) : t.nextId ≤ u.nextId :=
  h.nextId_eq ▸ Nat.le_add_right _ _

end Performs

section Course

open View (Account)

theorem numberOf_concat (id : Nat) (course : List Transition) (m : Transition) :
    numberOf id (course ++ [m]) =
      (numberOf id course).or (if m.begins id then some m.after.lastAttempt else none) := by
  cases hb : m.begins id <;> simp [numberOf, hb]

structure OperationAccounts (course : List Transition) (t : Transport) : Prop where
  numbered : t.view.Numbered t.nextId
  born : started course = List.range t.nextId
  unborn : ∀ id, t.nextId ≤ id → t.view.endings id = [] ∧
    saidBy (.operation id) course = [] ∧ numberOf id course = none
  accounts : ∀ m ∈ course, ∀ task reply, m.before.starts? m.deed = some (task, reply) →
    m.before.nextId < t.nextId ∧ ∃ number,
      t.view.Account m.before.nextId task reply (Told course)
        (saidBy (.operation m.before.nextId) course) number ∧
      (task.publishes → numberOf m.before.nextId course = number)

theorem OperationAccounts.fresh (patience : Patience) (ready : List Job) (timers : List Timer) :
    OperationAccounts [] { patience, ready, timers } := by
  constructor
  · exact ⟨fun op hop => absurd hop List.not_mem_nil, List.nodup_nil⟩
  · rfl
  · intro id _
    exact ⟨rfl, rfl, rfl⟩
  · intro m hm
    exact absurd hm List.not_mem_nil

variable {t u : Transport} {d : Deed} {said : List Event} {course : List Transition}

theorem begins_of_unborn (ht : t.view.Numbered t.nextId) {id : Nat} (hid : t.nextId ≤ id)
    (d : Deed) (u : Transport) : (Transition.mk t d u).begins id = false := by
  have hnone : t.view.unstarted id = false := by
    rw [View.unstarted, List.any_eq_false]
    intro op hop
    simp [((ht.lt op hop).trans_le hid).ne]
  simp [Transition.begins, hnone]

theorem Performs.started {task : Task} {reply : Reply} (h : t.Performs d said u)
    (hd : t.starts? d = some (task, reply)) :
    said = [] ∧ u.nextId = t.nextId + 1 ∧
      ∃ outgoing, u.view = { t.view with outgoing }.start t.nextId task reply := by
  cases h.treats with
  | starts outgoing hstarts hsaid hview hnext =>
    obtain ⟨rfl, rfl⟩ := Prod.mk.inj (Option.some.inj (hstarts.symm.trans hd))
    exact ⟨hsaid, hnext, outgoing, hview⟩
  | works _ hnone _ => cases hnone.symm.trans hd
  | cancels hbegin _ _ _ _ =>
    rw [hbegin] at hd
    cases hd
  | spares _ _ _ hnone _ => cases hnone.symm.trans hd

theorem OperationAccounts.performs (h : OperationAccounts course t) (hp : t.Performs d said u) :
    OperationAccounts (course ++ [⟨t, d, u⟩]) u := by
  have hsaid (id : Nat) : saidBy (.operation id) (course ++ [⟨t, d, u⟩]) =
      saidBy (.operation id) course ++ if d.source = .operation id then said else [] := by
    rw [saidBy_append, saidBy_transition _ hp]
  have htold : Told course → Told (course ++ [⟨t, d, u⟩]) := by
    rintro ⟨m, hm, hclose⟩
    exact ⟨m, List.mem_append_left _ hm, hclose⟩
  refine ⟨hp.numbered h.numbered, ?_, ?_, ?_⟩
  · rw [started, List.filter_append, List.map_append, ← started, h.born, hp.nextId_eq]
    cases hd : t.starts? d <;> simp [hd, List.range_succ]
  · intro id hid
    obtain ⟨hlt, hendings, hnothing⟩ := hp.unborn h.numbered hid
    obtain ⟨hnone, hquiet, hnumber⟩ := h.unborn id hlt
    refine ⟨hendings.trans hnone, ?_, ?_⟩
    · rw [hsaid, hquiet]
      split_ifs with hs
      · exact hnothing hs
      · rfl
    · rw [numberOf_concat, hnumber, begins_of_unborn h.numbered hlt]
      rfl
  · intro m hm task reply hstarts
    rcases List.mem_append.1 hm with hold | hnew
    · obtain ⟨hlt, number, haccount, hnumber⟩ := h.accounts m hold task reply hstarts
      refine ⟨hlt.trans_le hp.nextId_le, ?_⟩
      have hbefore := haccount.unstarted_eq h.numbered
      have hclose : d = .beginClose → Told (course ++ [⟨t, d, u⟩]) :=
        fun hd => ⟨_, List.mem_append_right _ (List.mem_singleton_self _), hd⟩
      rw [hsaid]
      rcases hp.account h.numbered hlt hclose (haccount.mono htold) with
        hafter | ⟨rfl, attempt, hafter, hattempt⟩
      · have hstill := hafter.unstarted_eq (hp.numbered h.numbered)
        have hbegins : (Transition.mk t d u).begins m.before.nextId = false := by
          simp [Transition.begins, hbefore, hstill]
        refine ⟨number, hafter, fun hpub => ?_⟩
        rw [numberOf_concat, hbegins, hnumber hpub]
        simp
      · have hstill := hafter.unstarted_eq (hp.numbered h.numbered)
        have hbegins : (Transition.mk t d u).begins m.before.nextId = true := by
          simp [Transition.begins, hbefore, hstill]
        refine ⟨some attempt, hafter, fun hpub => ?_⟩
        rw [numberOf_concat, hbegins, hnumber hpub, hattempt hpub]
        rfl
    · obtain rfl := List.mem_singleton.1 hnew
      obtain ⟨rfl, hnext, outgoing, hview⟩ := hp.started hstarts
      obtain ⟨hnone, hquiet, hnumber⟩ := h.unborn t.nextId le_rfl
      refine ⟨hnext ▸ Nat.lt_succ_self _, none, ?_, fun _ => ?_⟩
      · rw [hsaid, hquiet, ite_self, hview]
        exact .runs (List.mem_append_right _ (List.mem_singleton_self _)) rfl rfl rfl
          (Operation.faithful_fresh _ _ _ _) nofun rfl hnone
      · rw [numberOf_concat, hnumber, begins_of_unborn h.numbered le_rfl]
        rfl

/-- When no operation is left, each one that was started has ended. -/
theorem OperationAccounts.ended (h : OperationAccounts course t) (hops : t.operations = [])
    {id : Nat} (hid : id < t.nextId) : ∃ ending, t.view.endings id = [ending] := by
  have hstarted : id ∈ started course := by rwa [h.born, List.mem_range]
  obtain ⟨m, hm, rfl⟩ := List.mem_map.1 hstarted
  obtain ⟨hm, hstarts⟩ := List.mem_filter.1 hm
  obtain ⟨⟨task, reply⟩, hstarts⟩ := Option.isSome_iff_exists.1 hstarts
  obtain ⟨-, number, haccount, -⟩ := h.accounts m hm task reply hstarts
  generalize saidBy (.operation m.before.nextId) course = said at haccount
  cases haccount with
  | runs hop =>
    have hmem : _ ∈ t.operations := hop
    rw [hops] at hmem
    cases hmem
  | ended _ hone _ => exact ⟨_, hone⟩

theorem Course.accounts {patience : Patience} {ready : List Job} {timers : List Timer}
    (h : Course { patience, ready, timers } course t) : OperationAccounts course t := by
  induction h with
  | nil => exact .fresh patience ready timers
  | @snoc course v d _ ih =>
    obtain ⟨said, hp⟩ := v.perform_performs d
    exact ih.performs hp

end Course

end Transport

end BrokerTrial

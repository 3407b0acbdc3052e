import BrokerTrial.Proofs.Attempt
import BrokerTrial.Proofs.Partition
import BrokerTrial.Proofs.Spurious
import BrokerTrial.Session.Rehearsal

/-! Pending writes are handed back to a session until none is left. A write that is handed back may
ask for another one, but then the cursor has moved on inside its payload: what is pending together
with the chunks behind the cursor (`Backlog.cost`) falls with each write that is handed back, and by
exactly one if no write is rejected. So draining ends whatever the transport answers, and if it
accepts every write, it ends with the payload written (`draining_ends`). -/

namespace BrokerTrial

def Request.isWrite : Request → Bool
  | .write => true
  | _ => false

namespace Session

theorem writesRequested_eq (effects : List Effect) :
    writesRequested effects = (Effect.requests effects).countP Request.isWrite := by
  rw [writesRequested, Effect.requests, List.countP_filterMap]
  refine List.countP_congr fun effect _ => ?_
  rcases effect with _ | r | _
  · rfl
  · cases r <;> rfl
  · rfl

def Step.Accepted (m : Step) : Prop :=
  ∀ p data, .publish p data ∈ m.requests → .publish p data ∈ m.accepted

def chunksBehind (plan : Plan) (s : Session) : Nat :=
  if s.stage.publishQos?.isSome then
    plan.chunker.chunks.length - 1 - s.position.toNat / plan.chunker.size
  else 0

section

variable {plan : Plan} {s s' : Standing} {accepts : Request → Bool} {requests : List Request}

theorem chunksBehind_of_publishQos {session : Session} {qos : Int} {k : Nat}
    (hq : session.stage.publishQos? = some qos) (hk : plan.chunker.Before session.position k) :
    chunksBehind plan session = plan.chunker.chunks.length - 1 - k := by
  rw [chunksBehind, if_pos (Option.isSome_of_eq_some hq), hk.number_eq]

theorem chunksBehind_eq_zero {session : Session} (hq : session.stage.publishQos? = none) :
    chunksBehind plan session = 0 := by
  rw [chunksBehind, hq]
  rfl

/-- A write that is asked for is paid for by a chunk that is no longer behind the cursor. Only a
rejected write gives more away than that. -/
theorem Does.pays_write (h : InFront plan s)
    (hd : Does plan s (.event .writeOpportunity accepts) s' requests) :
    requests.countP Request.isWrite + allowance (chunksBehind plan) s' ≤
        allowance (chunksBehind plan) s ∧
      ((Step.mk s (.event .writeOpportunity accepts) s' requests).Accepted →
        allowance (chunksBehind plan) s ≤
          requests.countP Request.isWrite + allowance (chunksBehind plan) s') := by
  cases hd with
  | raises hr =>
    obtain ⟨topic, he, -⟩ := hr.of_inFront h
    cases he
  | reacts hr =>
    cases hr with
    | idle _ => simp
    | lost hloss _ => cases hloss
    | subscribes ht hs _ _ =>
      have hnone : s.session.stage.publishQos? = none := by rw [hs]; rfl
      have hnow : chunksBehind plan s.session = 0 := chunksBehind_eq_zero hnone
      have hthen : chunksBehind plan { s.session with subscribePending := true } = 0 :=
        chunksBehind_eq_zero hnone
      rw [allowance_eq _ ht, allowance_withSession _ ht, hnow, hthen]
      exact ⟨le_rfl, fun _ => le_rfl⟩
    | subscribeRejected ht hs _ _ =>
      have hnow : chunksBehind plan s.session = 0 := chunksBehind_eq_zero (by rw [hs]; rfl)
      rw [allowance_eq _ ht, hnow, allowance_failed]
      exact ⟨le_rfl, fun _ => le_rfl⟩
    | @publishes qos chunk ht hq hc _ hmore =>
      obtain ⟨k, hk⟩ := h
      rcases hk.next hc with ⟨hend, -⟩ | ⟨hnext, -⟩
      · exact absurd hend hmore
      · have hlt := hnext.lt_length
        have hnow := chunksBehind_of_publishQos hq hk
        have hthen : chunksBehind plan
            { s.session with position := s.session.position + chunk.data.length } = _ :=
          chunksBehind_of_publishQos hq hnext
        rw [allowance_eq _ ht, allowance_withSession _ ht, hnow, hthen]
        simp only [List.countP_cons, Request.isWrite, List.countP_nil]
        exact ⟨by simp; omega, fun _ => by simp; omega⟩
    | @completes qos chunk stage ht hq hc _ hend hn =>
      obtain ⟨k, hk⟩ := h
      rcases hk.next hc with ⟨-, hlast, -⟩ | ⟨hnext, -⟩
      · have hnow := chunksBehind_of_publishQos hq hk
        have hthen : chunksBehind plan { s.session with position := 0, stage } = 0 :=
          chunksBehind_eq_zero (Stage.publishQos_of_written hq hn)
        rw [allowance_eq _ ht, allowance_withSession _ ht, hnow, hthen, ← hlast]
        simp [Request.isWrite]
      · exact absurd hend hnext.lt_total.ne
    | publishRejected ht hq hc ha =>
      refine ⟨by simp [Request.isWrite], fun haccepted => ?_⟩
      have hmem := haccepted _ _ (List.mem_cons_self ..)
      exact absurd (List.of_mem_filter hmem) (by simp [ha])

end

/-- A session and the writes that it has asked for and was not offered yet. -/
structure Backlog where
  standing : Standing
  pending : Nat

def offers (answers : Nat → Request → Bool) (n : Nat) : List Input :=
  (List.range n).map fun i => .event .writeOpportunity (answers i)

theorem offers_succ (answers : Nat → Request → Bool) (n : Nat) :
    offers answers (n + 1) = offers answers n ++ [.event .writeOpportunity (answers n)] := by
  rw [offers, List.range_succ, List.map_append]
  rfl

namespace Backlog

def offer (plan : Plan) (accepts : Request → Bool) (b : Backlog) : Backlog :=
  let reaction := handle plan accepts b.standing .writeOpportunity
  ⟨reaction.standing, b.pending - 1 + writesRequested reaction.effects⟩

/-- What is left when `n` writes were handed back, each with its own answers of the transport. -/
def offered (plan : Plan) (answers : Nat → Request → Bool) (b : Backlog) : Nat → Backlog
  | 0 => b
  | n + 1 => (b.offered plan answers n).offer plan (answers n)

/-- The writes until none is pending, if none is rejected. -/
def cost (plan : Plan) (b : Backlog) : Nat := b.pending + allowance (chunksBehind plan) b.standing

variable {plan : Plan} {answers : Nat → Request → Bool} {b : Backlog} {n : Nat}

theorem offered_succ (plan : Plan) (answers : Nat → Request → Bool) (b : Backlog) (n : Nat) :
    b.offered plan answers (n + 1) =
      (b.offer plan (answers 0)).offered plan (fun i => answers (i + 1)) n := by
  induction n with
  | zero => rfl
  | succ n ih => rw [offered, ih, offered]

theorem offered_standing (plan : Plan) (answers : Nat → Request → Bool) (b : Backlog) (n : Nat) :
    (b.offered plan answers n).standing = run plan b.standing (offers answers n) := by
  induction n with
  | zero => rfl
  | succ n ih =>
    rw [offers_succ, run_append, ← ih]
    rfl

theorem trace_succ (plan : Plan) (answers : Nat → Request → Bool) (b : Backlog) (n : Nat) :
    trace plan b.standing (offers answers (n + 1)) =
      trace plan b.standing (offers answers n) ++
        [stepOf plan (b.offered plan answers n).standing
          (.event .writeOpportunity (answers n))] := by
  rw [offers_succ, trace_append, offered_standing]
  rfl

theorem offered_inFront (answers : Nat → Request → Bool) (h : InFront plan b.standing) (n : Nat) :
    InFront plan (b.offered plan answers n).standing := by
  rw [offered_standing]
  exact run_holds (fun _ _ _ _ h hd => h.does hd) h _

theorem offer_error {accepts : Request → Bool} (h : InFront plan b.standing) :
    (handle plan accepts b.standing .writeOpportunity).error = none := by
  cases herror : (handle plan accepts b.standing .writeOpportunity).error with
  | none => rfl
  | some error =>
    obtain ⟨topic, he, -⟩ := (handle_error herror).1.of_inFront h
    cases he

theorem offer_eq (plan : Plan) (accepts : Request → Bool) (b : Backlog) :
    b.offer plan accepts =
      let m := stepOf plan b.standing (.event .writeOpportunity accepts)
      ⟨m.after, b.pending - 1 + m.requests.countP Request.isWrite⟩ := by
  rw [offer, writesRequested_eq]
  rfl

theorem offer_cost (accepts : Request → Bool) (h : InFront plan b.standing) (hp : b.pending ≠ 0) :
    (b.offer plan accepts).cost plan + 1 ≤ b.cost plan ∧
      ((stepOf plan b.standing (.event .writeOpportunity accepts)).Accepted →
        (b.offer plan accepts).cost plan + 1 = b.cost plan) := by
  have hdoes := stepOf_does plan b.standing (.event .writeOpportunity accepts)
  obtain ⟨hle, heq⟩ := hdoes.pays_write h
  rw [offer_eq, cost, cost]
  dsimp only
  refine ⟨by omega, fun haccepted => ?_⟩
  have hge := heq haccepted
  omega

/-- Each write that is handed back takes one off, or more if it is rejected. -/
theorem offered_cost (h : InFront plan b.standing)
    (hp : ∀ i < n, (b.offered plan answers i).pending ≠ 0) :
    (b.offered plan answers n).cost plan + n ≤ b.cost plan ∧
      ((∀ m ∈ trace plan b.standing (offers answers n), m.Accepted) →
        (b.offered plan answers n).cost plan + n = b.cost plan) := by
  induction n with
  | zero => exact ⟨le_rfl, fun _ => rfl⟩
  | succ n ih =>
    obtain ⟨hle, heq⟩ := ih fun i hi => hp i (by omega)
    obtain ⟨hstep, hexact⟩ :=
      offer_cost (answers n) (offered_inFront answers h n) (hp n n.lt_succ_self)
    rw [offered]
    refine ⟨by omega, fun haccepted => ?_⟩
    rw [trace_succ] at haccepted
    have hbefore := heq fun m hm => haccepted m (List.mem_append_left _ hm)
    have hlast := hexact (haccepted _ (List.mem_append_right _ (List.mem_singleton.2 rfl)))
    omega

theorem accepted_of_answers (h : ∀ i r, answers i r = true) (b : Backlog) (n : Nat) :
    ∀ m ∈ trace plan b.standing (offers answers n), m.Accepted := by
  induction n with
  | zero =>
    show ∀ m ∈ [], Step.Accepted m
    simp
  | succ n ih =>
    intro m hm
    rw [trace_succ] at hm
    rcases List.mem_append.1 hm with hbefore | hlast
    · exact ih m hbefore
    · obtain rfl := List.mem_singleton.1 hlast
      exact fun p data hmem => List.mem_filter.2 ⟨hmem, h n _⟩

/-- Whatever the transport answers, after some writes none is pending. -/
theorem exists_drained (answers : Nat → Request → Bool) (h : InFront plan b.standing) :
    ∃ n ≤ b.cost plan, (b.offered plan answers n).pending = 0 ∧
      ∀ i < n, (b.offered plan answers i).pending ≠ 0 := by
  have hex : ∃ n, (b.offered plan answers n).pending = 0 := by
    by_contra hnone
    push Not at hnone
    have hle := (offered_cost (n := b.cost plan + 1) h fun i _ => hnone i).1
    omega
  classical
  refine ⟨Nat.find hex, ?_, Nat.find_spec hex, fun i hi => Nat.find_min hex hi⟩
  have hle := (offered_cost (n := Nat.find hex) h fun i hi => Nat.find_min hex hi).1
  omega

end Backlog

def bytesWritten (course : List Step) : List UInt8 :=
  (course.flatMap Step.written).flatMap fun w => w.2

/-- How far a session that published at `s` has come with its payload, once it was handed `sent`:
there is more to write, and a write is pending for it, or all is written and it waits. -/
inductive Drained (plan : Plan) (s : Standing) (stage : Stage) : Backlog → List UInt8 → Prop
  | writing {position : Int} {k pending : Nat} {sent : List UInt8} :
      plan.chunker.Before position k →
      sent ++ plan.chunker.payload.drop position.toNat =
        plan.chunker.payload.drop s.session.position.toNat →
      0 < pending →
      Drained plan s stage ⟨s.withSession { s.session with position }, pending⟩ sent
  | written {pending : Nat} :
      Drained plan s stage ⟨s.withSession { s.session with position := 0, stage }, pending⟩
        (plan.chunker.payload.drop s.session.position.toNat)

theorem bytes_of_publish (p : Publication) (data : List UInt8) {rest : List Request}
    (h : rest.filterMap Request.written? = []) :
    ((.publish p data :: rest).filterMap Request.written?).flatMap (fun w => w.2) = data := by
  rw [List.filterMap_cons, h]
  exact List.append_nil data

namespace Drained

variable {plan : Plan} {s t t' : Standing} {stage : Stage} {pending : Nat} {sent : List UInt8}
  {qos : Int} {accepts : Request → Bool} {requests : List Request}

theorem does (h : Drained plan s stage ⟨t, pending⟩ sent) (ht : s.terminated = false)
    (hq : s.session.stage.publishQos? = some qos) (hn : s.session.stage.next? .advance = some stage)
    (hd : Does plan t (.event .writeOpportunity accepts) t' requests)
    (ha : (Step.mk t (.event .writeOpportunity accepts) t' requests).Accepted) :
    Drained plan s stage ⟨t', pending - 1 + requests.countP Request.isWrite⟩
      (sent ++ (requests.filterMap Request.written?).flatMap fun w => w.2) := by
  cases h with
  | written =>
    cases hd with
    | raises hr =>
      obtain ⟨topic, he, -⟩ := hr.of_inFront ⟨0, .start plan.chunker⟩
      cases he
    | reacts hr =>
      obtain ⟨rfl, rfl⟩ := hr.of_idle
        (.inr (.inr ⟨Stage.ne_subscribe_of_next hn, Stage.publishQos_of_written hq hn⟩))
      rw [List.filterMap_nil, List.flatMap_nil, List.append_nil]
      exact .written
  | @writing position k _ _ hk hsent hpending =>
    cases hd with
    | raises hr =>
      obtain ⟨topic, he, -⟩ := hr.of_inFront ⟨k, hk⟩
      cases he
    | reacts hr =>
      cases hr with
      | idle hidle => exact absurd hidle (not_idle_of_publishQos ht hq)
      | lost hloss _ => cases hloss
      | subscribes _ hs _ _ => exact absurd hs (Stage.ne_subscribe_of_publishQos hq)
      | subscribeRejected _ hs _ _ => exact absurd hs (Stage.ne_subscribe_of_publishQos hq)
      | @publishes _ chunk _ _ hc _ hmore =>
        have hcut : chunk.data ++ plan.chunker.payload.drop (position + chunk.data.length).toNat =
            plan.chunker.payload.drop position.toNat := Chunker.data_append_drop hc
        rcases hk.next hc with ⟨hend, -⟩ | ⟨hnext, -⟩
        · exact absurd hend hmore
        · refine .writing hnext ?_ (Nat.succ_pos _)
          rw [bytes_of_publish _ _ rfl, ← hsent, ← hcut, ← List.append_assoc]
          rfl
      | @completes _ chunk stage' _ _ hc _ hend hn' =>
        obtain rfl : stage' = stage := Option.some.inj (hn'.symm.trans hn)
        have hcut : chunk.data ++ plan.chunker.payload.drop (position + chunk.data.length).toNat =
            plan.chunker.payload.drop position.toNat := Chunker.data_append_drop hc
        have hlast : position + chunk.data.length = plan.chunker.payload.length := hend
        have hwhole : sent ++ chunk.data =
            plan.chunker.payload.drop s.session.position.toNat := by
          rw [← hsent, ← hcut, hlast, Int.toNat_natCast, List.drop_length, List.append_nil]
        rw [bytes_of_publish _ _ rfl, hwhole]
        exact .written
      | publishRejected _ _ _ hrejected =>
        have hmem := ha _ _ (List.mem_cons_self ..)
        exact absurd (List.of_mem_filter hmem) (by simp [hrejected])

theorem of_pending_eq_zero {b : Backlog} (h : Drained plan s stage b sent) (hb : b.pending = 0) :
    b.standing = s.withSession { s.session with position := 0, stage } ∧
      sent = plan.chunker.payload.drop s.session.position.toNat := by
  cases h with
  | writing _ _ hpending => exact absurd hb hpending.ne'
  | written => exact ⟨rfl, rfl⟩

/-- As long as every write is accepted, handing writes back goes on with the payload. -/
theorem offered {answers : Nat → Request → Bool} (h : Drained plan s stage ⟨s, pending⟩ [])
    (ht : s.terminated = false) (hq : s.session.stage.publishQos? = some qos)
    (hn : s.session.stage.next? .advance = some stage) (n : Nat)
    (ha : ∀ m ∈ trace plan s (offers answers n), m.Accepted) :
    Drained plan s stage (Backlog.offered plan answers ⟨s, pending⟩ n)
      (bytesWritten (trace plan s (offers answers n))) := by
  induction n with
  | zero => exact h
  | succ n ih =>
    have htrace := Backlog.trace_succ plan answers ⟨s, pending⟩ n
    dsimp only at htrace
    rw [htrace] at ha
    have hbefore := ih fun m hm => ha m (List.mem_append_left _ hm)
    have hlast := ha _ (List.mem_append_right _ (List.mem_singleton.2 rfl))
    rw [stepOf_eq] at hlast
    have hnext := hbefore.does ht hq hn (stepOf_does plan _ _) hlast
    rw [htrace, bytesWritten, List.flatMap_append, List.flatMap_append, List.flatMap_singleton,
      Backlog.offered, Backlog.offer_eq]
    exact hnext

end Drained

end Session

namespace Rehearsal

open Session

def backlog (r : Rehearsal) : Backlog := ⟨r.standing, r.pending⟩

def withBacklog (r : Rehearsal) (b : Backlog) : Rehearsal :=
  { r with standing := b.standing, pending := b.pending }

theorem drainUpTo_succ {r : Rehearsal} (hpending : r.pending ≠ 0)
    (herror : (Session.handle r.plan r.accepts r.standing .writeOpportunity).error = none)
    (fuel : Nat) :
    let others := drainUpTo fuel (r.withBacklog (r.backlog.offer r.plan r.accepts))
    drainUpTo (fuel + 1) r =
      { others with
        effects := (Session.handle r.plan r.accepts r.standing .writeOpportunity).effects ++
          others.effects
        delivered := others.delivered + 1 } := by
  have hfirst : ({ r with pending := r.pending - 1 }.handle .writeOpportunity).error = none :=
    herror
  rw [drainUpTo, if_neg hpending]
  dsimp only
  rw [hfirst]
  rfl

/-- What a rehearsal drains to, if the fuel lasts until no write is pending. -/
theorem drainUpTo_eq {r : Rehearsal} {fuel n : Nat} (h : InFront r.plan r.standing)
    (hfuel : n ≤ fuel)
    (hmore : ∀ i < n, (r.backlog.offered r.plan (fun _ => r.accepts) i).pending ≠ 0)
    (hend : (r.backlog.offered r.plan (fun _ => r.accepts) n).pending = 0) :
    (drainUpTo fuel r).error = none ∧ (drainUpTo fuel r).delivered = n ∧
      (drainUpTo fuel r).state =
        r.withBacklog (r.backlog.offered r.plan (fun _ => r.accepts) n) := by
  induction n generalizing r fuel with
  | zero =>
    have hpending : r.pending = 0 := hend
    have hstop : drainUpTo fuel r = { state := r } := by
      cases fuel with
      | zero => rfl
      | succ fuel => rw [drainUpTo, if_pos hpending]
    rw [hstop]
    exact ⟨rfl, rfl, rfl⟩
  | succ n ih =>
    obtain ⟨fuel, rfl⟩ : ∃ left, fuel = left + 1 := ⟨fuel - 1, by omega⟩
    have hpending : r.pending ≠ 0 := hmore 0 n.succ_pos
    -- behind the first write the rehearsal goes on with what is left then
    have hnext := Backlog.offered_succ r.plan (fun _ => r.accepts) r.backlog
    obtain ⟨herror, hdelivered, hstate⟩ :=
      ih (r := r.withBacklog (r.backlog.offer r.plan r.accepts))
        (Backlog.offered_inFront (b := r.backlog) (fun _ => r.accepts) h 1)
        (Nat.le_of_succ_le_succ hfuel)
        (fun i hi => hnext i ▸ hmore (i + 1) (by omega)) (hnext n ▸ hend)
    rw [drainUpTo_succ hpending (Backlog.offer_error (b := r.backlog) h), hnext n]
    exact ⟨herror, congrArg (· + 1) hdelivered, hstate⟩

/-- Each chunk behind the cursor has a byte at least, so a drain has fuel enough. -/
theorem cost_le_drainBound {r : Rehearsal} (h : InFront r.plan r.standing) :
    r.backlog.cost r.plan ≤ r.drainBound := by
  obtain ⟨k, hk⟩ := h
  have hlast : r.plan.chunker.chunks.length - 1 < r.plan.chunker.chunks.length := by
    have := hk.lt_length
    omega
  have hin := Chunker.lt_length_chunks_iff.1 hlast
  have hbehind : allowance (chunksBehind r.plan) r.standing ≤
      r.plan.chunker.chunks.length - 1 - k := by
    unfold allowance chunksBehind
    rw [hk.number_eq]
    split_ifs <;> omega
  have hbytes := Nat.le_mul_of_pos_right (r.plan.chunker.chunks.length - 1 - k)
    r.plan.chunker.size_pos
  rw [Nat.sub_mul] at hbytes
  have hcost : r.backlog.cost r.plan =
      r.pending + allowance (chunksBehind r.plan) r.standing := rfl
  rw [hcost, drainBound, hk.position_eq]
  omega

theorem drain_eq {r : Rehearsal} {n : Nat} (h : InFront r.plan r.standing)
    (hmore : ∀ i < n, (r.backlog.offered r.plan (fun _ => r.accepts) i).pending ≠ 0)
    (hend : (r.backlog.offered r.plan (fun _ => r.accepts) n).pending = 0) :
    r.drain.error = none ∧ r.drain.delivered = n ∧
      r.drain.state = r.withBacklog (r.backlog.offered r.plan (fun _ => r.accepts) n) := by
  have hcost := (Backlog.offered_cost (b := r.backlog) h hmore).1
  have hbound := cost_le_drainBound h
  exact drainUpTo_eq h (by omega) hmore hend

end Rehearsal

namespace Session

/-- Draining ends. From wherever a session has come to, with however many writes pending, handing
them back one by one comes to an end whatever the transport answers to each, and no write raises;
a rehearsal drains to just that end. If the session is publishing, at least one write is pending and
the transport accepts all that is written, then there is one write for each chunk from the cursor
on, and one for each pending write but the first; the rest of the payload is written byte for byte,
and the session waits for the acknowledgement with its cursor back at the start. -/
theorem draining_ends (plan : Plan) (inputs : List Input) (pending : Nat)
    (answers : Nat → Request → Bool) :
    let s := run plan {} inputs
    let left (n : Nat) := Backlog.offered plan answers ⟨s, pending⟩ n
    let course (n : Nat) := trace plan s (offers answers n)
    ∃ n, (left n).pending = 0 ∧ (∀ i < n, (left i).pending ≠ 0) ∧
      (∀ i, (handle plan (answers i) (left i).standing .writeOpportunity).error = none) ∧
      (∀ r : Rehearsal, r.plan = plan → r.backlog = ⟨s, pending⟩ → (∀ i, answers i = r.accepts) →
        r.drain.error = none ∧ r.drain.delivered = n ∧
          r.drain.state = r.withBacklog (left n)) ∧
      ∀ qos, s.terminated = false → s.session.stage.publishQos? = some qos → 0 < pending →
        (∀ m ∈ course n, m.Accepted) →
        (n : Int) = pending +
            (plan.chunker.total - s.session.position + plan.chunker.size - 1) / plan.chunker.size -
            1 ∧
          bytesWritten (course n) = plan.chunker.payload.drop s.session.position.toNat ∧
          ∃ stage, s.session.stage.next? .advance = some stage ∧ (left n).standing =
            { s with session := { s.session with position := 0, stage } } := by
  intro s left course
  have hfront : InFront plan s :=
    run_holds (fun _ _ _ _ h hd => h.does hd) (inFront_fresh plan) inputs
  obtain ⟨n, hn, hend, hmore⟩ :=
    Backlog.exists_drained (b := ⟨s, pending⟩) answers hfront
  refine ⟨n, hend, hmore, ?_, ?_, ?_⟩
  · exact fun i =>
      Backlog.offer_error (Backlog.offered_inFront (b := ⟨s, pending⟩) answers hfront i)
  · rintro r rfl hbacklog hanswers
    obtain rfl : answers = fun _ => r.accepts := funext hanswers
    have hat : InFront r.plan r.backlog.standing := hbacklog ▸ hfront
    obtain ⟨herror, hdelivered, hstate⟩ :=
      Rehearsal.drain_eq hat (hbacklog ▸ hmore) (hbacklog ▸ hend)
    rw [hbacklog] at hstate
    exact ⟨herror, hdelivered, hstate⟩
  · intro qos ht hq hpending haccepted
    obtain ⟨k, hk⟩ := hfront
    obtain ⟨stage, hstage⟩ : ∃ stage, s.session.stage.next? .advance = some stage := by
      revert hq
      cases s.session.stage <;> simp [Stage.publishQos?, Stage.next?]
    have hdrained : Drained plan s stage (left n) (bytesWritten (course n)) :=
      Drained.offered (.writing hk (List.nil_append _) hpending) ht hq hstage n haccepted
    have hcost := (Backlog.offered_cost (b := ⟨s, pending⟩) ⟨k, hk⟩ hmore).2 haccepted
    have hbefore : (Backlog.mk s pending).cost plan =
        pending + (plan.chunker.chunks.length - 1 - k) := by
      rw [Backlog.cost, allowance_eq _ ht, chunksBehind_of_publishQos hq hk]
    obtain ⟨hstanding, hbytes⟩ := hdrained.of_pending_eq_zero hend
    have hafter : (Backlog.offered plan answers ⟨s, pending⟩ n).cost plan = 0 := by
      rw [Backlog.cost, hend, hstanding, allowance_withSession _ ht,
        chunksBehind_eq_zero (Stage.publishQos_of_written hq hstage)]
    refine ⟨?_, hbytes, stage, hstage, hstanding⟩
    have hlt := hk.lt_length
    rw [hk.chunks_left]
    omega

/-- Before the first of two chunks, with three writes pending, four writes are handed back. -/
theorem four_drained :
    let s := run briefPlan {} (inTurn.take 2)
    let left (n : Nat) := Backlog.offered briefPlan (fun _ _ => true) ⟨s, 3⟩ n
    let course (n : Nat) := trace briefPlan s (offers (fun _ _ => true) n)
    s.terminated = false ∧ s.session.stage.publishQos? = some 0 ∧ (∀ m ∈ course 4, m.Accepted) ∧
      (left 4).pending = 0 ∧ bytesWritten (course 4) = [1, 2, 3] ∧
      (left 4).standing =
        { s with session := { s.session with position := 0, stage := .waitAck0 } } := by
  intro s left course
  obtain ⟨n, hend, -, -, -, hexact⟩ :=
    draining_ends briefPlan (inTurn.take 2) 3 fun _ _ => true
  have haccepted (n : Nat) : ∀ m ∈ course n, m.Accepted :=
    Backlog.accepted_of_answers (fun _ _ => rfl) ⟨s, 3⟩ n
  obtain ⟨hn, hbytes, stage, hstage, hstanding⟩ := hexact 0 rfl rfl (by decide) (haccepted n)
  obtain rfl : n = 4 := Int.ofNat_inj.1 hn
  obtain rfl : Stage.waitAck0 = stage := Option.some.inj hstage
  exact ⟨rfl, rfl, haccepted 4, hend, hbytes, hstanding⟩

end Session

end BrokerTrial

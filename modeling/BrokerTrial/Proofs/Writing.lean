import BrokerTrial.Proofs.Cost

/-! What a session writes. The chunks that the transport accepts at one quality of service are the
attempts of the session one behind the other (`Wrote`): each of them is a beginning of the payload,
and there are no more than the limit allows. So a copy of the payload is among them exactly when the
session has left the stage in which it publishes by something else than an acknowledgement
(`Wrote.copied_iff`). -/

namespace BrokerTrial

def Request.chunk? (qos : Int) : Request → Option Chunk
  | .publish p data => if p.qos = qos then some ⟨data, p.final⟩ else none
  | _ => none

theorem Stage.eq_of_publishQos {first second : Stage} {qos : Int}
    (h : first.publishQos? = some qos) (h' : second.publishQos? = some qos) : first = second := by
  cases first <;> cases h <;> cases second <;> first | rfl | cases h'

namespace Session

def Input.acknowledges : Input → Bool
  | .event .acknowledged _ => true
  | _ => false

namespace Step

def accepted (m : Step) : List Request :=
  match m.input with
  | .event _ accepts => m.requests.filter accepts
  | .interrupt => []

def chunks (qos : Int) (m : Step) : List Chunk := m.accepted.filterMap (Request.chunk? qos)

/-- The session leaves the stage, and not because of an acknowledgement. -/
structure Earns (stage : Stage) (m : Step) : Prop where
  before_eq : m.before.session.stage = stage
  after_ne : m.after.session.stage ≠ stage
  input_ne : m.input.acknowledges = false

theorem chunks_eq_nil {m : Step} {qos : Int} (h : ∀ r ∈ m.requests, r.chunk? qos = none) :
    m.chunks qos = [] := by
  unfold chunks accepted
  cases m.input with
  | interrupt => rfl
  | event e accepts => exact List.filterMap_eq_nil_iff.2 fun r hr => h r (List.mem_of_mem_filter hr)

theorem chunks_of_publish {s s' : Standing} {e : Event} {accepts : Request → Bool}
    {p : Publication} {data : List UInt8} {rest : List Request}
    (ha : accepts (.publish p data) = true) (hrest : ∀ r ∈ rest, r.chunk? p.qos = none) :
    (Step.mk s (.event e accepts) s' (.publish p data :: rest)).chunks p.qos =
      [⟨data, p.final⟩] := by
  have hnone : (rest.filter accepts).filterMap (Request.chunk? p.qos) = [] :=
    List.filterMap_eq_nil_iff.2 fun r hr => hrest r (List.mem_of_mem_filter hr)
  unfold chunks accepted
  dsimp only
  rw [List.filter_cons_of_pos ha, List.filterMap_cons, hnone, Request.chunk?, if_pos rfl]

theorem chunks_of_rejected {s s' : Standing} {e : Event} {accepts : Request → Bool}
    {p : Publication} {data : List UInt8} {rest : List Request} {qos : Int}
    (ha : accepts (.publish p data) = false) (hrest : ∀ r ∈ rest, r.chunk? qos = none) :
    (Step.mk s (.event e accepts) s' (.publish p data :: rest)).chunks qos = [] := by
  unfold chunks accepted
  dsimp only
  rw [List.filter_cons_of_neg (by simp [ha])]
  exact List.filterMap_eq_nil_iff.2 fun r hr => hrest r (List.mem_of_mem_filter hr)

end Step

/-- The session left the stage at least once by something else than an acknowledgement. -/
def Earned (stage : Stage) (course : List Step) : Prop := ∃ m ∈ course, m.Earns stage

def chunksAt (qos : Int) (course : List Step) : List Chunk := course.flatMap (Step.chunks qos)

theorem earned_concat {stage : Stage} {course : List Step} {m : Step} :
    Earned stage (course ++ [m]) ↔ Earned stage course ∨ m.Earns stage := by
  simp only [Earned, List.mem_append, List.mem_singleton, or_and_right, exists_or, exists_eq_left]

@[simp] theorem chunksAt_append (qos : Int) (first rest : List Step) :
    chunksAt qos (first ++ rest) = chunksAt qos first ++ chunksAt qos rest := List.flatMap_append

@[simp] theorem chunksAt_singleton (qos : Int) (m : Step) : chunksAt qos [m] = m.chunks qos :=
  List.flatMap_singleton _ _

/-- The attempts at the publish of a stage, in their order. -/
structure Wrote (plan : Plan) (stage : Stage) (qos : Int) (course : List Step) (s : Session)
    (attempts : List (List Chunk)) : Prop where
  joined : chunksAt qos course = attempts.flatten
  parts : ∀ a ∈ attempts, a <+: plan.chunker.chunks
  /-- The last attempt is the one that is going on. -/
  current : s.stage = stage → ∃ k past, plan.chunker.Before s.position k ∧
    attempts = past ++ [plan.chunker.chunks.take k]
  earned : Earned stage course ↔ plan.chunker.chunks ∈ attempts
  limited : attempts.length + attemptsLeft plan qos s ≤ attemptsLeft plan qos {}
  unstarted : s.stage = .subscribe → s.position = 0

namespace Wrote

variable {plan : Plan} {stage : Stage} {qos : Int} {course : List Step} {s s' : Session}
  {attempts : List (List Chunk)} {m : Step} {chunk : Chunk}

theorem fresh (hq : stage.publishQos? = some qos) : Wrote plan stage qos [] {} [] := by
  refine ⟨rfl, by simp, ?_, by simp [Earned], by simp, fun _ => rfl⟩
  rintro rfl
  cases hq

theorem keeps (h : Wrote plan stage qos course s attempts) (hnone : m.chunks qos = [])
    (hearns : ¬ m.Earns stage)
    (hsame : s'.stage = stage ∨ s'.stage = .subscribe →
      s'.stage = s.stage ∧ s'.position = s.position)
    (hleft : attemptsLeft plan qos s' ≤ attemptsLeft plan qos s) :
    Wrote plan stage qos (course ++ [m]) s' attempts := by
  refine ⟨?_, h.parts, ?_, ?_, ?_, ?_⟩
  · rw [chunksAt_append, chunksAt_singleton, hnone, List.append_nil]
    exact h.joined
  · intro hs'
    obtain ⟨hstage, hposition⟩ := hsame (.inl hs')
    rw [hposition]
    exact h.current (hstage.symm.trans hs')
  · rw [earned_concat, ← h.earned]
    exact or_iff_left hearns
  · exact (Nat.add_le_add_left hleft _).trans h.limited
  · intro hs'
    obtain ⟨hstage, hposition⟩ := hsame (.inr hs')
    rw [hposition]
    exact h.unstarted (hstage.symm.trans hs')

theorem rests (h : Wrote plan stage qos course s attempts) (hnone : m.chunks qos = [])
    (hbefore : m.before.session = s) (hafter : m.after.session = s')
    (hstage : s'.stage = s.stage) (hposition : s'.position = s.position)
    (hleft : attemptsLeft plan qos s' ≤ attemptsLeft plan qos s) :
    ∃ attempts, Wrote plan stage qos (course ++ [m]) s' attempts := by
  refine ⟨attempts, h.keeps hnone ?_ (fun _ => ⟨hstage, hposition⟩) hleft⟩
  intro hearns
  have hne := hearns.after_ne
  rw [hafter, hstage, ← hbefore] at hne
  exact hne hearns.before_eq

theorem enters (h : Wrote plan stage qos course s attempts) (hq : stage.publishQos? = some qos)
    (hnone : m.chunks qos = []) (hearns : ¬ m.Earns stage) (hsub : s'.stage ≠ .subscribe)
    (hstart : s'.stage = stage → s'.position = 0)
    (hleft : attemptsLeft plan qos s' + (if s'.stage.publishQos? = some qos then 1 else 0) ≤
      attemptsLeft plan qos s) :
    ∃ attempts, Wrote plan stage qos (course ++ [m]) s' attempts := by
  by_cases hs' : s'.stage = stage
  · refine ⟨attempts ++ [[]], ?_, ?_, ?_, ?_, ?_, fun h' => absurd h' hsub⟩
    · rw [chunksAt_append, chunksAt_singleton, hnone, List.flatten_append, ← h.joined]
      rfl
    · intro a ha
      rcases List.mem_append.1 ha with hold | hnew
      · exact h.parts a hold
      · rw [List.mem_singleton.1 hnew]
        exact List.nil_prefix
    · intro _
      refine ⟨0, attempts, ?_, rfl⟩
      rw [hstart hs']
      exact .start plan.chunker
    · have hne : plan.chunker.chunks ≠ [] :=
        List.ne_nil_of_length_pos plan.chunker.length_chunks_pos
      rw [earned_concat, h.earned, or_iff_left hearns]
      simp [hne]
    · rw [hs', hq, if_pos rfl] at hleft
      have hlimited := h.limited
      rw [List.length_append, List.length_singleton]
      omega
  · refine ⟨attempts, h.keeps hnone hearns ?_ ((Nat.le_add_right _ _).trans hleft)⟩
    rintro (h' | h')
    · exact absurd h' hs'
    · exact absurd h' hsub

theorem continues (h : Wrote plan stage qos course s attempts)
    (hs : s.stage = stage) (hs' : s'.stage = stage) (hsub : stage ≠ .subscribe)
    (hc : plan.chunker.chunkAt s.position = .ok chunk)
    (hmore : s.position + chunk.data.length ≠ plan.chunker.total)
    (hposition : s'.position = s.position + chunk.data.length) (hchunk : m.chunks qos = [chunk])
    (hearns : ¬ m.Earns stage) (hleft : attemptsLeft plan qos s' ≤ attemptsLeft plan qos s) :
    ∃ attempts, Wrote plan stage qos (course ++ [m]) s' attempts := by
  obtain ⟨k, past, hk, rfl⟩ := h.current hs
  have htake := hk.take_succ hc
  rcases hk.next hc with ⟨hend, -⟩ | ⟨hnext, -⟩
  · exact absurd hend hmore
  refine ⟨past ++ [plan.chunker.chunks.take (k + 1)], ?_, ?_, ?_, ?_, ?_,
    fun h' => absurd (hs'.symm.trans h') hsub⟩
  · rw [chunksAt_append, chunksAt_singleton, hchunk, h.joined]
    simp only [List.flatten_append, List.flatten_singleton, List.append_assoc, htake]
  · intro a ha
    rcases List.mem_append.1 ha with hold | hnew
    · exact h.parts a (List.mem_append_left _ hold)
    · rw [List.mem_singleton.1 hnew]
      exact List.take_prefix _ _
  · intro _
    refine ⟨k + 1, past, ?_, rfl⟩
    rw [hposition]
    exact hnext
  · -- neither the chunks so far nor those with the new one are all chunks
    have hpart {n : Nat} (hn : n < plan.chunker.chunks.length) :
        plan.chunker.chunks ≠ plan.chunker.chunks.take n := by
      intro heq
      have hlen := congrArg List.length heq
      rw [List.length_take] at hlen
      omega
    rw [earned_concat, h.earned, or_iff_left hearns]
    simp [hpart hk.lt_length, hpart hnext.lt_length]
  · have hlimited := h.limited
    simp only [List.length_append, List.length_singleton] at hlimited ⊢
    omega

theorem completes (h : Wrote plan stage qos course s attempts)
    (hs : s.stage = stage) (hearns : m.Earns stage)
    (hs' : s'.stage ≠ stage) (hsub : s'.stage ≠ .subscribe)
    (hc : plan.chunker.chunkAt s.position = .ok chunk)
    (hend : s.position + chunk.data.length = plan.chunker.total) (hchunk : m.chunks qos = [chunk])
    (hleft : attemptsLeft plan qos s' ≤ attemptsLeft plan qos s) :
    ∃ attempts, Wrote plan stage qos (course ++ [m]) s' attempts := by
  obtain ⟨k, past, hk, rfl⟩ := h.current hs
  have htake := hk.take_succ hc
  rcases hk.next hc with ⟨-, hlast, -⟩ | ⟨hnext, -⟩
  · rw [hlast, List.take_length] at htake
    refine ⟨past ++ [plan.chunker.chunks], ?_, ?_, fun h' => absurd h' hs', ?_, ?_,
      fun h' => absurd h' hsub⟩
    · rw [chunksAt_append, chunksAt_singleton, hchunk, h.joined]
      simp only [List.flatten_append, List.flatten_singleton, List.append_assoc, ← htake]
    · intro a ha
      rcases List.mem_append.1 ha with hold | hnew
      · exact h.parts a (List.mem_append_left _ hold)
      · rw [List.mem_singleton.1 hnew]
    · rw [earned_concat]
      simp [hearns]
    · have hlimited := h.limited
      simp only [List.length_append, List.length_singleton] at hlimited ⊢
      omega
  · exact absurd hend (ne_of_lt hnext.lt_total)

end Wrote

theorem attemptsLeft_mono (plan : Plan) (qos : Int) {old new : Session}
    (hstage : new.stage = old.stage) (hresends : old.resends ≤ new.resends) :
    attemptsLeft plan qos new ≤ attemptsLeft plan qos old := by
  unfold attemptsLeft
  rw [hstage]
  split_ifs
  · exact le_rfl
  · cases old.stage <;> dsimp only <;> omega
  · exact le_rfl

/-- Whatever happens, what is written is made up of attempts. -/
theorem Wrote.does {plan : Plan} {stage : Stage} {qos : Int} {course : List Step}
    {s s' : Standing} {attempts : List (List Chunk)} {i : Input} {requests : List Request}
    (hq : stage.publishQos? = some qos)
    (h : Wrote plan stage qos course s.session attempts) (hd : Does plan s i s' requests) :
    ∃ attempts, Wrote plan stage qos (course ++ [⟨s, i, s', requests⟩]) s'.session attempts := by
  have hsub : stage ≠ .subscribe := Stage.ne_subscribe_of_publishQos hq
  cases hd with
  | raises _ => exact h.rests (Step.chunks_eq_nil nofun) rfl rfl rfl rfl le_rfl
  | interrupted => exact h.rests (Step.chunks_eq_nil nofun) rfl rfl rfl rfl le_rfl
  | reacts hr =>
    cases hr with
    | idle _ => exact h.rests (Step.chunks_eq_nil nofun) rfl rfl rfl rfl le_rfl
    | established =>
      exact h.rests (Step.chunks_eq_nil (by simp [Request.chunk?])) rfl rfl rfl rfl le_rfl
    | lost _ _ =>
      exact h.rests (Step.chunks_eq_nil (by simp [Request.chunk?])) rfl rfl rfl rfl le_rfl
    | subscribes _ _ _ _ =>
      exact h.rests (Step.chunks_eq_nil (by simp [Request.chunk?])) rfl rfl rfl rfl le_rfl
    | subscribeRejected _ _ _ _ =>
      exact h.rests (Step.chunks_eq_nil (by simp [Request.chunk?])) rfl rfl rfl rfl le_rfl
    | confirmed _ hs _ =>
      refine h.enters hq (Step.chunks_eq_nil (by simp [Request.chunk?])) ?_ nofun ?_ ?_
      · intro hearns
        exact hsub (hearns.before_eq.symm.trans hs)
      · intro _
        exact h.unstarted hs
      · exact attemptsLeft_advance plan qos (by rw [hs]; rfl) nofun nofun
    | publishes ht hq' hc ha hmore =>
      rename_i q chunk
      -- the publish of another stage has another quality of service
      by_cases hs : s.session.stage = stage
      · obtain rfl := Option.some.inj (hq'.symm.trans (hs ▸ hq))
        exact h.continues hs hs hsub hc hmore rfl
          (Step.chunks_of_publish ha (by simp [Request.chunk?]))
          (fun hearns => hearns.after_ne hs) le_rfl
      · have hqos : q ≠ qos := fun hqos => hs (Stage.eq_of_publishQos (hqos ▸ hq') hq)
        refine ⟨attempts, h.keeps (Step.chunks_eq_nil (by simp [Request.chunk?, hqos]))
          (fun hearns => hs hearns.before_eq) ?_ le_rfl⟩
        rintro (hs' | hs')
        · exact absurd hs' hs
        · exact absurd hs' (Stage.ne_subscribe_of_publishQos hq')
    | completes ht hq' hc ha hend hn =>
      rename_i q chunk next
      have hwaits := Stage.publishQos_of_written hq' hn
      have hsub' := Stage.ne_subscribe_of_next hn
      have hleft := attemptsLeft_written plan qos hq' hn
      by_cases hs : s.session.stage = stage
      · obtain rfl := Option.some.inj (hq'.symm.trans (hs ▸ hq))
        have hne : next ≠ stage := by
          rintro rfl
          cases hwaits.symm.trans hq
        exact h.completes hs ⟨hs, hne, rfl⟩ hne hsub' hc hend
          (Step.chunks_of_publish ha (by simp [Request.chunk?]))
          ((Nat.le_add_right _ _).trans hleft)
      · have hqos : q ≠ qos := fun hqos => hs (Stage.eq_of_publishQos (hqos ▸ hq') hq)
        exact h.enters hq (Step.chunks_eq_nil (by simp [Request.chunk?, hqos]))
          (fun hearns => hs hearns.before_eq) hsub' (fun _ => rfl) hleft
    | publishRejected _ _ _ ha =>
      exact h.rests (Step.chunks_of_rejected ha (by simp [Request.chunk?])) rfl rfl rfl rfl le_rfl
    | acknowledged _ hn hq' =>
      refine h.enters hq (Step.chunks_eq_nil (by simp [Request.chunk?])) ?_
        (Stage.ne_subscribe_of_next hn) (fun _ => rfl) ?_
      · intro hearns
        exact absurd hearns.input_ne nofun
      · exact attemptsLeft_advance plan qos hn (fun _ => rfl) (by rintro rfl; cases hq')
    | skipped _ hn _ hq' =>
      refine h.enters hq (Step.chunks_eq_nil nofun) ?_ (Stage.ne_subscribe_of_next hn) ?_ ?_
      · intro hearns
        exact absurd hearns.input_ne nofun
      · rintro rfl
        cases hq'.symm.trans hq
      · exact attemptsLeft_advance plan qos hn (by rintro rfl; cases hq') (fun _ => rfl)
    | finished _ hs =>
      refine h.enters hq (Step.chunks_eq_nil (by simp [Request.chunk?])) ?_ nofun ?_ ?_
      · intro hearns
        exact absurd hearns.input_ne nofun
      · rintro rfl
        cases hq
      · exact attemptsLeft_advance plan qos (by rw [hs]; rfl) nofun nofun
    | resends _ hs ha =>
      refine h.enters hq (Step.chunks_eq_nil (by simp [Request.chunk?])) ?_ nofun
        (fun _ => rfl) (attemptsLeft_resend plan qos hs ha rfl rfl)
      rintro ⟨hbefore, -, -⟩
      rw [← hbefore, hs] at hq
      cases hq
    | givesUp _ _ _ =>
      refine h.rests (Step.chunks_eq_nil (by simp [Request.chunk?])) rfl rfl rfl rfl ?_
      exact attemptsLeft_mono plan qos rfl (Int.le_add_one le_rfl)

/-- What every course has written is made up of attempts. -/
theorem wrote_trace (plan : Plan) (stage : Stage) (qos : Int) (hq : stage.publishQos? = some qos)
    (inputs : List Input) : ∃ attempts,
      Wrote plan stage qos (trace plan {} inputs) (run plan {} inputs).session attempts := by
  refine course_induction plan {}
    (P := fun course t => ∃ attempts, Wrote plan stage qos course t.session attempts)
    ⟨[], .fresh hq⟩ ?_ inputs
  rintro course t i t' requests ⟨attempts, h⟩ hd
  exact h.does hq hd

section

variable {plan : Plan} {stage : Stage} {qos : Int} {course : List Step} {s : Session}
  {attempts : List (List Chunk)}

/-- A copy of the payload was accepted exactly if the stage was left by writing it. -/
theorem Wrote.copied_iff (h : Wrote plan stage qos course s attempts) :
    plan.chunker.chunks <:+: chunksAt qos course ↔ Earned stage course := by
  rw [h.joined, h.earned]
  refine ⟨fun hcopy => ?_, List.infix_of_mem_flatten⟩
  obtain ⟨last, hlast, hfinal⟩ := plan.chunker.exists_final
  obtain ⟨a, ha, hmem⟩ := List.mem_flatten.1 (hcopy.subset hlast)
  rwa [← Chunker.eq_chunks_of_final (h.parts a ha) ⟨last, hmem, hfinal⟩]

/-- An attempt comes to the end of the payload once at most. -/
theorem Wrote.countP_final_le (h : Wrote plan stage qos course s attempts) :
    (chunksAt qos course).countP Chunk.final ≤ attempts.length := by
  have hone : ∀ n ∈ attempts.map (List.countP Chunk.final), n ≤ 1 := by
    intro n hn
    obtain ⟨a, ha, rfl⟩ := List.mem_map.1 hn
    rw [← plan.chunker.chunks_countP_final]
    exact (h.parts a ha).sublist.countP_le
  have hsum := List.sum_le_card_nsmul _ 1 hone
  rw [List.length_map, smul_eq_mul, mul_one] at hsum
  rw [h.joined, List.countP_flatten]
  exact hsum

/-- No more attempts are begun than a session starts with. -/
theorem Wrote.length_le (h : Wrote plan stage qos course s attempts) :
    attempts.length ≤ attemptsLeft plan qos {} :=
  (Nat.le_add_right _ _).trans h.limited

end

end Session

end BrokerTrial

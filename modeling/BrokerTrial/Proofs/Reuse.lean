import BrokerTrial.Proofs.Chunking
import BrokerTrial.Proofs.Opening
import BrokerTrial.Proofs.Reassembly

/-! Sending a payload on a transport that was used before. What was accepted and not published stays
collected when the transport is closed. So the chunks of the next payload are accepted one by one
and published as that payload if and only if nothing was left (`reused_iff`). -/

namespace BrokerTrial

namespace Transport

variable {start t u v : Transport} {course first rest : List Transition} {m : Transition}
  {w : Write}
  {ws behind : List Write} {c : Chunker} {topic : Value} {qos : Int}

def publishes (course : List Transition) : List Task :=
  course.flatMap fun m => published m.before m.after

/-- The writes that send a payload while there is a connection: its chunks in their order, each with
the length of the whole. -/
structure Sends (c : Chunker) (topic : Value) (qos : Int) (ws : List Write) : Prop where
  map_eq : ws.map (fun w => (w.publication, w.chunk)) =
    c.chunks.map fun chunk => (⟨topic, qos, c.total, chunk.final⟩, chunk.data)
  connected : ∀ w ∈ ws, w.connected = true

/-- A transport is closed, asked for a connection and connected again, and no publish is written
meanwhile. -/
structure Renewed (t : Transport) (pause : List Transition) (u : Transport) : Prop where
  course : Course t pause u
  deeds : ∃ closing connection script opening, pause.map Transition.deed =
    .beginClose :: closing ++ .finishClose :: .connect connection script :: opening
  silent : writes pause = []
  connected : u.connected = true

section Course

theorem Course.at (h : Course t (first ++ m :: rest) u) :
    Course t first m.before ∧ m.after = m.before.perform m.deed ∧ Course m.after rest u := by
  obtain ⟨v, hfirst, hrest⟩ := h.split (m :: rest)
  obtain ⟨rfl, hafter, hrest⟩ := hrest.of_cons
  exact ⟨hfirst, hafter, hrest⟩

theorem Transition.of_write? (h : m.write? = some w) : ∃ reply,
    m.deed = .publish w.publication w.chunk reply ∧ w.connected = m.before.connected ∧
      w.accepted = (m.before.sendPublish w.publication w.chunk reply).2 := by
  obtain ⟨before, deed, after⟩ := m
  cases deed with
  | publish p chunk reply =>
    obtain rfl := Option.some.inj h
    exact ⟨reply, rfl, rfl, rfl⟩
  | _ => cases h

theorem exists_transition (h : writes course = ws ++ w :: behind) :
    ∃ first m rest, course = first ++ m :: rest ∧ writes first = ws ∧ m.write? = some w ∧
      writes rest = behind := by
  obtain ⟨front, back, rfl, hfront, hback⟩ := List.filterMap_eq_append_iff.1 h
  obtain ⟨quiet, m, rest, rfl, hquiet, hm, hrest⟩ := List.filterMap_eq_cons_iff.1 hback
  refine ⟨front ++ quiet, m, rest, (List.append_assoc ..).symm, ?_, hm, hrest⟩
  have hnone : quiet.filterMap Transition.write? = [] := List.filterMap_eq_nil_iff.2 hquiet
  rw [writes, List.filterMap_append, hfront, hnone, List.append_nil]

/-- As long as no write ends a collection, all that is accepted is collected. -/
theorem Course.outgoing_eq (h : Course t course u) (hends : ∀ w ∈ writes course, w.ends = false) :
    u.outgoing = t.outgoing ++ accepted (writes course) := by
  induction h with
  | nil => exact (List.append_nil _).symm
  | @snoc course v d _ ih =>
    rw [writes_concat] at hends ⊢
    have hv := ih fun w hw => hends w (List.mem_append_left _ hw)
    cases hwrite : (Transition.mk v d (v.perform d)).write? with
    | none => rw [(perform_rests hwrite).1, hv, Option.toList_none, List.append_nil]
    | some w =>
      obtain ⟨reply, hd, hconnected, haccepted⟩ := Transition.of_write? hwrite
      obtain rfl : d = .publish w.publication w.chunk reply := hd
      have hw : w.ends = false := hends w (by simp [hwrite])
      have hout := (v.sendPublish_sends w.publication w.chunk reply).outgoing_eq
      have hself : (⟨w.publication, w.chunk, v.view.connected,
          (v.sendPublish w.publication w.chunk reply).2⟩ : Write) = w := by
        rw [← haccepted, show v.view.connected = v.connected from rfl, ← hconnected]
      dsimp only at hout
      rw [hself, hw] at hout
      rw [Option.toList_some, accepted_concat, ← List.append_assoc, ← hv]
      exact hout

theorem publishes_concat (course : List Transition) (m : Transition) :
    publishes (course ++ [m]) = publishes course ++ published m.before m.after := by
  simp [publishes]

/-- A transition publishes if it is the write of a last chunk that is accepted. -/
theorem published_of_write? (hm : m.after = m.before.perform m.deed) (h : m.write? = some w) :
    published m.before m.after =
      if w.accepted && w.publication.final then
        [.publish w.publication.topic w.publication.qos (m.before.outgoing ++ w.chunk)]
      else [] := by
  obtain ⟨reply, hd, -, haccepted⟩ := Transition.of_write? h
  rw [hm, hd, haccepted]
  exact m.before.published_sendPublish w.publication w.chunk reply

theorem Course.publishes_eq_nil (h : Course t course u)
    (hfinal : ∀ w ∈ writes course, w.publication.final = false) : publishes course = [] := by
  induction h with
  | nil => rfl
  | @snoc course v d _ ih =>
    rw [writes_concat] at hfinal
    rw [publishes_concat, ih fun w hw => hfinal w (List.mem_append_left _ hw), List.nil_append]
    cases hwrite : (Transition.mk v d (v.perform d)).write? with
    | none => exact (perform_rests hwrite).2
    | some w =>
      have hw : w.publication.final = false := hfinal w (by simp [hwrite])
      rw [published_of_write? rfl hwrite, hw, Bool.and_false]
      rfl

end Course

namespace Sends

theorem data (h : Sends c topic qos ws) : ws.flatMap Write.chunk = c.payload := by
  have hdata := congrArg (List.flatMap Prod.snd) h.map_eq
  rwa [List.flatMap_map, List.flatMap_map, c.chunks_data] at hdata

theorem length_eq (h : Sends c topic qos ws) : ws.length = c.chunks.length := by
  simpa using congrArg List.length h.map_eq

theorem publication_eq (h : Sends c topic qos (ws ++ w :: behind)) :
    ∃ chunk, c.chunks[ws.length]? = some chunk ∧
      w.publication = ⟨topic, qos, c.total, chunk.final⟩ := by
  have hat := congrArg (·[ws.length]?) h.map_eq
  simp only [List.getElem?_map, List.getElem?_append_right le_rfl, Nat.sub_self,
    List.getElem?_cons_zero, Option.map_some] at hat
  obtain ⟨chunk, hchunk, hpair⟩ := Option.map_eq_some_iff.1 hat.symm
  exact ⟨chunk, hchunk, (congrArg Prod.fst hpair).symm⟩

theorem total_eq (h : Sends c topic qos (ws ++ w :: behind)) : w.publication.length = c.total := by
  obtain ⟨chunk, -, hw⟩ := h.publication_eq
  rw [hw]

theorem final_iff (h : Sends c topic qos (ws ++ w :: behind)) :
    w.publication.final = true ↔ behind = [] := by
  obtain ⟨chunk, hchunk, hw⟩ := h.publication_eq
  obtain ⟨hlt, rfl⟩ := List.getElem?_eq_some_iff.1 hchunk
  have hlength := h.length_eq
  rw [List.length_append, List.length_cons] at hlength
  rw [hw, Chunker.final_getElem_iff hlt, ← List.length_eq_zero_iff]
  omega

theorem exists_last (h : Sends c topic qos ws) : ∃ front last, ws = front ++ [last] := by
  have hne : ws ≠ [] := List.ne_nil_of_length_pos (h.length_eq ▸ c.length_chunks_pos)
  exact ⟨_, _, (List.dropLast_append_getLast hne).symm⟩

theorem final_eq_false (h : Sends c topic qos (ws ++ w :: behind)) {x : Write} (hx : x ∈ ws) :
    x.publication.final = false := by
  obtain ⟨front, back, rfl⟩ := List.append_of_mem hx
  rw [List.append_assoc] at h
  refine Bool.eq_false_of_not_eq_true fun hf => ?_
  simpa using h.final_iff.1 hf

end Sends

theorem accepted_eq (h : ∀ w ∈ ws, w.accepted = true) : accepted ws = ws.flatMap Write.chunk :=
  List.flatMap_congr fun w hw => if_pos (h w hw)

section Sending

variable {sending : List Transition}

/-- The transition of a write in front of which all others were accepted. -/
theorem Course.at_write (h : Course u sending v) (hsends : Sends c topic qos (writes sending))
    (hw : writes sending = ws ++ w :: behind) (hws : ∀ x ∈ ws, x.accepted = true) :
    ∃ first m rest, sending = first ++ m :: rest ∧ writes first = ws ∧ m.write? = some w ∧
      writes rest = behind ∧ Course u first m.before ∧ m.after = m.before.perform m.deed ∧
      Course m.after rest v ∧ m.before.outgoing = u.outgoing ++ ws.flatMap Write.chunk := by
  obtain ⟨first, m, rest, rfl, hfirst, hm, hrest⟩ := exists_transition hw
  obtain ⟨hbefore, hafter, hbehind⟩ := h.at
  refine ⟨first, m, rest, rfl, hfirst, hm, hrest, hbefore, hafter, hbehind, ?_⟩
  rw [hw] at hsends
  have hout := hbefore.outgoing_eq fun x hx => by
    rw [hfirst] at hx
    simp [Write.ends, hsends.final_eq_false hx, hws x hx]
  rw [hout, hfirst, accepted_eq hws]

/-- Behind accepted ones, a chunk is accepted if it fits behind what was left before; the last one
has to fit exactly. -/
theorem Course.accepted_iff (h : Course u sending v) (hsends : Sends c topic qos (writes sending))
    (hw : writes sending = ws ++ w :: behind) (hws : ∀ x ∈ ws, x.accepted = true) :
    let n := u.outgoing.length + (ws.flatMap Write.chunk).length + w.chunk.length
    w.accepted = true ↔ n ≤ c.total ∧ (behind = [] → n = c.total) := by
  intro n
  obtain ⟨first, m, rest, -, -, hm, -, -, -, -, hout⟩ := h.at_write hsends hw hws
  obtain ⟨reply, -, hconnected, haccepted⟩ := Transition.of_write? hm
  have hmem : w ∈ writes sending := by simp [hw]
  have hup : m.before.connected = true := hconnected.symm.trans (hsends.connected w hmem)
  have hn : (m.before.outgoing.length + w.chunk.length : Int) = n := by
    rw [hout, List.length_append]
    rfl
  rw [hw] at hsends
  rw [haccepted, sendPublish_accepted_iff hup, hn, hsends.total_eq, hsends.final_iff,
    Nat.cast_le, Nat.cast_inj]

theorem Course.accepts_all (h : Course u sending v) (hsends : Sends c topic qos (writes sending))
    (hempty : u.outgoing = []) : ∀ w ∈ writes sending, w.accepted = true := by
  have hfront : ∀ ws behind, writes sending = ws ++ behind → ∀ w ∈ ws, w.accepted = true := by
    intro ws
    induction ws using List.reverseRecOn with
    | nil => exact fun _ _ _ hw => absurd hw List.not_mem_nil
    | append_singleton ws w ih =>
      intro behind hws x hx
      rw [List.append_assoc] at hws
      have hold := ih _ hws
      rcases List.mem_append.1 hx with hx | hx
      · exact hold x hx
      · obtain rfl := List.mem_singleton.1 hx
        have hdata := congrArg List.length hsends.data
        rw [hws] at hdata
        simp only [List.flatMap_append, List.flatMap_cons, List.length_append] at hdata
        refine (h.accepted_iff hsends hws hold).2 ⟨?_, ?_⟩
        · rw [hempty, Chunker.total]
          simp only [List.length_nil]
          omega
        · rintro rfl
          rw [hempty, Chunker.total]
          simp only [List.length_nil, List.flatMap_nil] at hdata ⊢
          omega
  exact hfront _ [] (List.append_nil _).symm

/-- If every chunk is accepted, nothing was collected before: the last one reaches the length of the
payload. -/
theorem Course.outgoing_eq_nil (h : Course u sending v)
    (hsends : Sends c topic qos (writes sending))
    (haccepted : ∀ w ∈ writes sending, w.accepted = true) : u.outgoing = [] := by
  obtain ⟨ws, w, hw⟩ := hsends.exists_last
  have hws : ∀ x ∈ ws, x.accepted = true := fun x hx => haccepted x (by simp [hw, hx])
  have hlast := ((h.accepted_iff hsends hw hws).1 (haccepted w (by simp [hw]))).2 rfl
  have hdata := congrArg List.length hsends.data
  rw [hw, List.flatMap_append, List.flatMap_singleton, List.length_append] at hdata
  rw [Chunker.total] at hlast
  rw [← List.length_eq_zero_iff]
  omega

/-- If every chunk is accepted, one payload is published, together with what was collected
before. -/
theorem Course.publishes_eq (h : Course u sending v) (hsends : Sends c topic qos (writes sending))
    (haccepted : ∀ w ∈ writes sending, w.accepted = true) :
    publishes sending = [.publish topic qos (u.outgoing ++ c.payload)] := by
  obtain ⟨ws, w, hw⟩ := hsends.exists_last
  have hws : ∀ x ∈ ws, x.accepted = true := fun x hx => haccepted x (by simp [hw, hx])
  have hok : w.accepted = true := haccepted w (by simp [hw])
  obtain ⟨first, m, rest, rfl, hfirst, hm, hrest, hbefore, hafter, hbehind, hout⟩ :=
    h.at_write hsends hw hws
  rw [hw] at hsends
  have hdata := hsends.data
  rw [List.flatMap_append, List.flatMap_singleton] at hdata
  have hfront : publishes first = [] := hbefore.publishes_eq_nil fun x hx =>
    hsends.final_eq_false (hfirst ▸ hx)
  have hback : publishes rest = [] := hbehind.publishes_eq_nil fun x hx => by
    rw [hrest] at hx
    cases hx
  obtain ⟨_, -, hpublication⟩ := hsends.publication_eq
  have hlast : published m.before m.after = [.publish topic qos (u.outgoing ++ c.payload)] := by
    rw [published_of_write? hafter hm, hok, hsends.final_iff.2 rfl, hout, List.append_assoc, hdata,
      hpublication]
    rfl
  calc publishes (first ++ m :: rest)
    _ = publishes first ++ published m.before m.after ++ publishes rest := by
      simp [publishes]
    _ = [.publish topic qos (u.outgoing ++ c.payload)] := by rw [hfront, hback, hlast]; rfl

/-- The chunks of a payload are accepted one by one and published as that payload, if and only if
nothing was collected before. -/
theorem Course.sent_iff (h : Course u sending v) (hsends : Sends c topic qos (writes sending)) :
    (∀ w ∈ writes sending, w.accepted = true) ∧ publishes sending = [.publish topic qos c.payload] ↔
      u.outgoing = [] := by
  refine ⟨fun hsent => h.outgoing_eq_nil hsends hsent.1, fun hempty => ?_⟩
  have haccepted := h.accepts_all hsends hempty
  refine ⟨haccepted, ?_⟩
  rw [h.publishes_eq hsends haccepted, hempty, List.nil_append]

/-- Whatever happened to a transport that was closed and is connected again, the chunks of a payload
are accepted one by one and published as that payload, if and only if no chunk was left that was
accepted and not published. -/
theorem reused_iff (hused : Course start course t) (hempty : start.outgoing = [])
    {pause : List Transition} (hrenewed : Renewed t pause u) (hsending : Course u sending v)
    (hsends : Sends c topic qos (writes sending)) :
    (∀ w ∈ writes sending, w.accepted = true) ∧ publishes sending = [.publish topic qos c.payload] ↔
      pending (writes course) = [] := by
  have hkept := hrenewed.course.outgoing_eq fun w hw => by
    rw [hrenewed.silent] at hw
    cases hw
  rw [hrenewed.silent, show accepted [] = [] from rfl, List.append_nil] at hkept
  rw [hsending.sent_iff hsends, hkept, (Collects.of_course hempty hused).outgoing_eq]

def halfWritten : List Deed :=
  [.connect (willing (.str "over")) {}, .job .link,
    .publish { topic := .str "a", qos := 0, length := 2, final := false } [1] {}]

def wholeWritten : List Deed :=
  halfWritten ++ [.publish { topic := .str "a", qos := 0, length := 2, final := true } [2] {}]

def reconnecting : List Deed :=
  [.beginClose, .job .link, .job .taskEnded, .finishClose,
    .connect (willing (.str "over")) {}, .job .link]

def threeBytes : Chunker := ⟨[5, 6, 7], 2, Nat.two_pos, List.cons_ne_nil _ _⟩

theorem chunks_threeBytes : threeBytes.chunks = [⟨[5, 6], false⟩, ⟨[7], true⟩] := by
  simp [threeBytes, Chunker.chunks, Chunker.chunksOf, Chunker.cut]

def partOfThree (final : Bool) : Publication := { topic := .str "b", qos := 1, length := 3, final }

def sendingThree : List Deed :=
  [.publish (partOfThree false) [5, 6] {}, .job (.operation 0),
    .publish (partOfThree true) [7] {}]

theorem sends_threeBytes (first last : Bool)
    (h : ws = [⟨partOfThree false, [5, 6], true, first⟩, ⟨partOfThree true, [7], true, last⟩]) :
    Sends threeBytes (.str "b") 1 ws := by
  refine ⟨?_, ?_⟩
  · rw [chunks_threeBytes, h]
    rfl
  · simp [h]

def reconnected (deeds : List Deed) : Transport :=
  reconnecting.foldl perform (deeds.foldl perform {})

theorem renewed_reconnected (deeds : List Deed) (hup : (reconnected deeds).connected = true) :
    let t := deeds.foldl perform {}
    Renewed t (transitions t reconnecting) (reconnected deeds) where
  course := course_transitions _ _
  deeds := ⟨[.job .link, .job .taskEnded], _, _, [.job .link], rfl⟩
  silent := rfl
  connected := hup

/-- Behind a payload that was completed, another one is published as a whole. -/
theorem reused_after_whole :
    let t := wholeWritten.foldl perform {}
    let sending := transitions (reconnected wholeWritten) sendingThree
    Renewed t (transitions t reconnecting) (reconnected wholeWritten) ∧
      Sends threeBytes (.str "b") 1 (writes sending) ∧
      pending (writes (transitions {} wholeWritten)) = [] ∧
      (∀ w ∈ writes sending, w.accepted = true) ∧
      publishes sending = [.publish (.str "b") 1 [5, 6, 7]] := by
  have hrenewed := renewed_reconnected wholeWritten rfl
  have hsends : Sends threeBytes (.str "b") 1
      (writes (transitions (reconnected wholeWritten) sendingThree)) :=
    sends_threeBytes true true rfl
  have hiff := reused_iff (course_transitions {} wholeWritten) rfl hrenewed
    (course_transitions _ sendingThree) hsends
  exact ⟨hrenewed, hsends, rfl, hiff.2 rfl⟩

/-- A chunk that was left makes the same chunks too long: the last one is rejected, and nothing is
published. -/
theorem leftover_rejected :
    let t := halfWritten.foldl perform {}
    let sending := transitions (reconnected halfWritten) sendingThree
    Renewed t (transitions t reconnecting) (reconnected halfWritten) ∧
      Sends threeBytes (.str "b") 1 (writes sending) ∧
      (writes sending).map Write.accepted = [true, false] ∧ publishes sending = [] := by
  have hsends : Sends threeBytes (.str "b") 1
      (writes (transitions (reconnected halfWritten) sendingThree)) :=
    sends_threeBytes true false rfl
  exact ⟨renewed_reconnected halfWritten rfl, hsends, rfl, rfl⟩

end Sending

end Transport

end BrokerTrial

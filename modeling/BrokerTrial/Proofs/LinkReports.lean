import BrokerTrial.Proofs.Usage

/-! What a link reports. What it is offered fixes its reports (`Link.reports`): that the connection
is there, each message in its turn, and how the connection ended. However its work is interleaved
with anything else, what it has said is an initial part of its reports (`Reported.said_prefix`), and
it is all of them when the link has ended without being told to (`Reported.complete`). -/

namespace BrokerTrial

namespace Link

def streamReports : List Inbound → List Event
  | [] => []
  | .message topic payload :: rest =>
    .messageReceived topic.text payload.bytes? :: streamReports rest
  | .ends :: _ => report .returned
  | .fails f :: _ => report (.failed f)

/-- What there is to tell of a connection, from the reply to the connect call and from what the
stream offers. -/
def reports (enter : Reply) (offered : List Inbound) : List Event :=
  match enter.fault with
  | none => .connectionEstablished :: streamReports offered
  | some f => report (.failed f)

theorem reports_refused {enter : Reply} {f : Fault} (h : enter.fault = some f)
    (offered : List Inbound) : reports enter offered = report (.failed f) := by
  rw [reports, h]

theorem reports_entered {enter : Reply} (h : enter.fault = none) (offered : List Inbound) :
    reports enter offered = .connectionEstablished :: streamReports offered := by
  rw [reports, h]

theorem ahead_joined {l : Link} (h : l.phase ≠ .ended) (item : Inbound) :
    (l.joined item).ahead = l.ahead ++ [item] := by
  unfold ahead joined
  cases hp : l.phase <;> simp_all

@[simp] theorem told_phase (l : Link) : l.told.phase = l.phase := by
  unfold told; split_ifs <;> rfl

@[simp] theorem told_enter (l : Link) : l.told.enter = l.enter := by
  unfold told; split_ifs <;> rfl

@[simp] theorem told_ahead (l : Link) : l.told.ahead = l.ahead := by
  unfold told; split_ifs <;> rfl

theorem told_of_ended {l : Link} (h : l.phase = .ended) : l.told = l := if_pos h

end Link

def Event.Alive (events : List Event) : Prop := ∀ e ∈ events, e.loss? = none

namespace Transport

open Link (reports streamReports)

/-- How far a link has come with its reports. -/
inductive Reported (enter : Reply) (offered : List Inbound) (v : View) : List Event → Prop
  | opening {l : Link} : v.link = some l → l.phase.opening → l.enter = enter →
      l.ahead = offered → Reported enter offered v []
  | up {l : Link} {said : List Event} : v.link = some l → l.phase.up → Event.Alive said →
      (∀ more, reports enter (offered ++ more) = said ++ streamReports (l.ahead ++ more)) →
      Reported enter offered v said
  /-- The link has ended by itself. -/
  | closed {l : Link} {said : List Event} : v.link = some l → l.phase = .ended →
      l.cancelled = false → v.connected = false → (∀ more, reports enter (offered ++ more) = said) →
      Reported enter offered v said
  /-- The link has ended because it was told to. -/
  | stopped {l : Link} {said : List Event} : v.link = some l → l.phase = .ended →
      l.cancelled = true → Event.Alive said → (∀ more, said <+: reports enter (offered ++ more)) →
      Reported enter offered v said
  | gone {said : List Event} : v.link = none → (Event.Alive said ∨ v.connected = false) →
      (∀ more, said <+: reports enter (offered ++ more)) → Reported enter offered v said

namespace Reported

variable {enter : Reply} {offered : List Inbound} {v w : View} {said events : List Event} {l : Link}

theorem said_prefix (h : Reported enter offered v said) (more : List Inbound) :
    said <+: reports enter (offered ++ more) := by
  cases h with
  | opening => exact List.nil_prefix
  | up _ _ _ hrest =>
    rw [hrest more]
    exact List.prefix_append _ _
  | closed _ _ _ _ hall =>
    rw [hall more]
  | stopped _ _ _ _ hfirst => exact hfirst more
  | gone _ _ hfirst => exact hfirst more

theorem congr (h : Reported enter offered v said) (hlink : w.link = v.link)
    (hconnected : w.connected = v.connected) : Reported enter offered w said := by
  cases h with
  | opening hl ho he ha => exact .opening (hlink.trans hl) ho he ha
  | up hl hup halive hrest => exact .up (hlink.trans hl) hup halive hrest
  | closed hl hp hc hn hall => exact .closed (hlink.trans hl) hp hc (hconnected.trans hn) hall
  | stopped hl hp hc halive hfirst => exact .stopped (hlink.trans hl) hp hc halive hfirst
  | gone hl halive hfirst =>
    exact .gone (hlink.trans hl) (halive.imp_right hconnected.trans) hfirst

theorem of_opening (h : Reported enter offered v said) (hl : v.link = some l)
    (ho : l.phase.opening) : said = [] ∧ l.enter = enter ∧ l.ahead = offered := by
  cases h with
  | opening hl' _ he ha =>
    obtain rfl := Option.some.inj (hl.symm.trans hl')
    exact ⟨rfl, he, ha⟩
  | up hl' hup _ _ =>
    obtain rfl := Option.some.inj (hl.symm.trans hl')
    exact absurd ho (LinkPhase.not_opening_of_up hup)
  | closed hl' hp _ _ _ =>
    obtain rfl := Option.some.inj (hl.symm.trans hl')
    exact absurd ho (LinkPhase.not_opening_of_ended hp)
  | stopped hl' hp _ _ _ =>
    obtain rfl := Option.some.inj (hl.symm.trans hl')
    exact absurd ho (LinkPhase.not_opening_of_ended hp)
  | gone hl' _ _ => cases hl.symm.trans hl'

theorem of_up (h : Reported enter offered v said) (hl : v.link = some l) (hup : l.phase.up) :
    Event.Alive said ∧
      ∀ more, reports enter (offered ++ more) = said ++ streamReports (l.ahead ++ more) := by
  cases h with
  | opening hl' ho _ _ =>
    obtain rfl := Option.some.inj (hl.symm.trans hl')
    exact absurd ho (LinkPhase.not_opening_of_up hup)
  | up hl' _ halive hrest =>
    obtain rfl := Option.some.inj (hl.symm.trans hl')
    exact ⟨halive, hrest⟩
  | closed hl' hp _ _ _ =>
    obtain rfl := Option.some.inj (hl.symm.trans hl')
    exact absurd hp (LinkPhase.ne_ended_of_up hup)
  | stopped hl' hp _ _ _ =>
    obtain rfl := Option.some.inj (hl.symm.trans hl')
    exact absurd hp (LinkPhase.ne_ended_of_up hup)
  | gone hl' _ _ => cases hl.symm.trans hl'

theorem alive (h : Reported enter offered v said) (hl : v.link = some l)
    (hp : l.phase ≠ .ended ∨ l.cancelled = true) : Event.Alive said := by
  cases h with
  | opening => exact fun e he => absurd he List.not_mem_nil
  | up _ _ halive _ => exact halive
  | closed hl' hended hc _ _ =>
    obtain rfl := Option.some.inj (hl.symm.trans hl')
    rcases hp with hp | hp
    · exact absurd hended hp
    · cases hp.symm.trans hc
  | stopped _ _ _ halive _ => exact halive
  | gone hl' _ _ => cases hl.symm.trans hl'

theorem established (h : Reported enter offered v said) (hl : v.link = some l)
    (ho : l.phase.opening) (hf : l.enter.fault = none) {up : Link} (hup : up.phase.up)
    (hahead : up.ahead = l.ahead)
    (hw : w.link = some up) : Reported enter offered w (said ++ [.connectionEstablished]) := by
  obtain ⟨rfl, rfl, rfl⟩ := h.of_opening hl ho
  refine .up hw hup (by simp [Event.Alive, Event.loss?]) fun more => ?_
  rw [Link.reports_entered hf, hahead]
  rfl

theorem message (h : Reported enter offered v said) (hl : v.link = some l) (hup : l.phase.up)
    {next : Link} {topic : Value} {payload : MessagePayload}
    (hahead : l.ahead = .message topic payload :: next.ahead) (hnext : next.phase.up)
    (hw : w.link = some next) :
    Reported enter offered w (said ++ [.messageReceived topic.text payload.bytes?]) := by
  obtain ⟨halive, hrest⟩ := h.of_up hl hup
  refine .up hw hnext ?_ fun more => ?_
  · intro e he
    rcases List.mem_append.1 he with hold | hnew
    · exact halive e hold
    · rw [List.mem_singleton.1 hnew]
      rfl
  · rw [hrest more, hahead]
    simp [streamReports]

theorem parked (h : Reported enter offered v said) (hl : v.link = some l) (hup : l.phase.up)
    {next : Link} (hnext : next.phase.up) (hahead : next.ahead = l.ahead)
    (hw : w.link = some next) : Reported enter offered w said := by
  obtain ⟨halive, hrest⟩ := h.of_up hl hup
  refine .up hw hnext halive fun more => ?_
  rw [hrest more, hahead]

/-- The link ends, and has told all of its reports unless it was told to stop. -/
theorem ends (h : Reported enter offered v said) (hl : v.link = some l) {ending : Ending}
    (he : l.Ends ending) {ended : Link} (hp : ended.phase = .ended)
    (hc : ended.cancelled = l.cancelled) (hw : w.link = some ended) (hn : w.connected = false) :
    Reported enter offered w (said ++ Link.report ending) := by
  cases he with
  | cancelled hcancelled hne =>
    rw [Link.report, List.append_nil]
    exact .stopped hw hp (hc.trans hcancelled) (h.alive hl (.inl hne)) h.said_prefix
  | refused ho hl' hf =>
    obtain ⟨rfl, rfl, rfl⟩ := h.of_opening hl ho
    exact .closed hw hp (hc.trans hl') hn fun more => Link.reports_refused hf _
  | closed hup hahead =>
    obtain ⟨-, hrest⟩ := h.of_up hl hup.phase
    refine .closed hw hp (hc.trans hup.cancelled) hn fun more => ?_
    rw [hrest more, hahead]
    rfl
  | failed hup hahead =>
    obtain ⟨-, hrest⟩ := h.of_up hl hup.phase
    refine .closed hw hp (hc.trans hup.cancelled) hn fun more => ?_
    rw [hrest more, hahead]
    rfl

theorem told (h : Reported enter offered v said) (hlink : w.link = v.link.map Link.told)
    (hconnected : w.connected = v.connected) : Reported enter offered w said := by
  cases h with
  | @opening l hl ho he ha =>
    rw [hl] at hlink
    exact .opening hlink (by simpa using ho) (by simpa using he) (by simpa using ha)
  | @up l _ hl hup halive hrest =>
    rw [hl] at hlink
    exact .up hlink (by simpa using hup) halive (by simpa using hrest)
  | @closed l _ hl hp hc hn hall =>
    rw [hl, Option.map_some, Link.told_of_ended hp] at hlink
    exact .closed hlink hp hc (hconnected.trans hn) hall
  | @stopped l _ hl hp hc halive hfirst =>
    rw [hl, Option.map_some, Link.told_of_ended hp] at hlink
    exact .stopped hlink hp hc halive hfirst
  | gone hl halive hfirst =>
    rw [hl] at hlink
    exact .gone hlink (halive.imp_right hconnected.trans) hfirst

/-- The stream offers more, whether or not the link is there to hear of it. -/
theorem offer (h : Reported enter offered v said) (item : Inbound)
    (hlink : w.link = v.link.map (Link.joined · item)) (hconnected : w.connected = v.connected) :
    Reported enter (offered ++ [item]) w said := by
  have hmore (more : List Inbound) : offered ++ [item] ++ more = offered ++ item :: more := by
    rw [List.append_assoc, List.singleton_append]
  cases h with
  | @opening l hl ho he ha =>
    rw [hl] at hlink
    have hne : l.phase ≠ .ended := fun hp => LinkPhase.not_opening_of_ended hp ho
    exact .opening hlink ho he (by rw [Link.ahead_joined hne, ha])
  | @up l _ hl hup halive hrest =>
    rw [hl] at hlink
    refine .up hlink hup halive fun more => ?_
    rw [Link.ahead_joined (LinkPhase.ne_ended_of_up hup), hmore, hrest, List.append_assoc]
    rfl
  | @closed l _ hl hp hc hn hall =>
    rw [hl] at hlink
    exact .closed hlink hp hc (hconnected.trans hn) fun more => (hmore more).symm ▸ hall _
  | @stopped l _ hl hp hc halive hfirst =>
    rw [hl] at hlink
    exact .stopped hlink hp hc halive fun more => (hmore more).symm ▸ hfirst _
  | gone hl halive hfirst =>
    rw [hl] at hlink
    exact .gone hlink (halive.imp_right hconnected.trans) fun more => (hmore more).symm ▸ hfirst _

theorem dismissed (h : Reported enter offered v said) (hlink : w.link = none)
    (hconnected : w.connected = v.connected) : Reported enter offered w said := by
  refine .gone hlink ?_ h.said_prefix
  cases h with
  | opening => exact .inl fun e he => absurd he List.not_mem_nil
  | up _ _ halive _ => exact .inl halive
  | closed _ _ _ hn _ => exact .inr (hconnected.trans hn)
  | stopped _ _ _ halive _ => exact .inl halive
  | gone _ halive _ => exact halive.imp_right hconnected.trans

end Reported

section Performs

variable {enter : Reply} {offered : List Inbound} {said events : List Event} {source : Source}
  {l m : Ledger} {t u : Transport} {d : Deed} {course : List Transition}

theorem Ledger.Change.reported (h : l.Change source events m)
    (hreported : Reported enter offered l.view said) :
    Reported enter offered m.view (said ++ if source = .link then events else []) := by
  have hother {id : Nat} (hlink : m.view.link = l.view.link)
      (hconnected : m.view.connected = l.view.connected) :
      Reported enter offered m.view
        (said ++ if Source.operation id = .link then events else []) := by
    rw [if_neg nofun, List.append_nil]
    exact hreported.congr hlink hconnected
  cases h with
  | starts => exact hother rfl rfl
  | goesOn => exact hother rfl rfl
  | ends =>
    refine hother ?_ ?_
    · rw [emit_view, strike_view]
      rfl
    · rw [emit_view, strike_view]
      rfl
  | @connecting link hl hp hc =>
    obtain ⟨rfl, rfl, rfl⟩ := hreported.of_opening hl (by rw [hp]; rfl)
    refine .opening rfl rfl rfl ?_
    simp [Link.ahead, hp]
  | established hl ho hc hf hup hahead => exact hreported.established hl ho hf hup.phase hahead rfl
  | message hl hup hahead hnext => exact hreported.message hl hup.phase hahead hnext.phase rfl
  | parked hl hup hnext hahead =>
    rw [if_pos rfl, List.append_nil]
    exact hreported.parked hl hup.phase hnext.phase hahead rfl
  | cut hl he hp hc =>
    refine hreported.ends hl he hp hc ?_ ?_
    · rw [emit_view, cut_view]
      rfl
    · rw [emit_view, cut_view]
      rfl
  | broken =>
    rw [ite_self, List.append_nil]
    exact hreported

theorem Ledger.Works.reported (h : l.Works source events m)
    (hreported : Reported enter offered l.view said) :
    Reported enter offered m.view (said ++ if source = .link then events else []) := by
  induction h with
  | refl => simpa using hreported
  | tail _ hchange ih =>
    have hnext := hchange.reported ih
    rw [List.append_assoc] at hnext
    split_ifs at hnext ⊢ <;> exact hnext

/-- Whatever happens to a transport that has requested its one connection. -/
theorem Performs.reported (h : t.Performs d events u)
    (honce : ∀ c script, d = .connect c script → t.link ≠ none)
    (hreported : Reported enter offered t.view said) :
    Reported enter (offered ++ d.offers) u.view
      (said ++ if d.source = .link then events else []) := by
  have hkeeps {view : View} (hoffers : d.offers = []) (hsaid : d.source = .link → events = [])
      (hu : t.Becomes u view) (hview : Reported enter offered view said) :
      Reported enter (offered ++ d.offers) u.view
        (said ++ if d.source = .link then events else []) := by
    have hnone : (if d.source = .link then events else []) = [] := by
      split_ifs with hs
      · exact hsaid hs
      · rfl
    rw [hoffers, hnone, List.append_nil, List.append_nil, hu.view_eq]
    exact hview
  have hquiet : d.source = .link → ([] : List Event) = [] := fun _ => rfl
  cases h with
  | works hworks =>
    have hnext := hworks.reported hreported
    rwa [← List.append_nil offered] at hnext
  | rests _ _ _ hoffers hu => exact hkeeps hoffers hquiet hu (hreported.congr rfl rfl)
  | speaks hword hu =>
    refine hkeeps ?_ ?_ hu (hreported.congr rfl rfl)
    · cases d <;> first | rfl | cases hword
    · intro hs
      cases (Deed.source_of_word? hword).symm.trans hs
  | takes hu => exact hkeeps rfl hquiet hu (hreported.congr rfl rfl)
  | starts _ hstarts _ hview _ _ =>
    have hoffers : d.offers = [] := by cases d <;> first | rfl | cases hstarts
    rw [hoffers, ite_self, List.append_nil, List.append_nil, hview]
    exact hreported.congr rfl rfl
  | connects hnone hu => exact absurd hnone (honce _ _ rfl)
  | arrives hu =>
    rw [ite_self, List.append_nil, hu.view_eq]
    exact hreported.offer _ rfl rfl
  | closes hc _ hlink hu =>
    refine hkeeps rfl hquiet hu (hreported.told hlink ?_)
    rw [hc.others]
  | closed hu => exact hkeeps rfl hquiet hu (hreported.dismissed rfl rfl)

def offersOf (course : List Transition) : List Inbound := course.flatMap (·.deed.offers)

/-- No connection is requested that the transport would take. -/
def Transition.keepsLink (m : Transition) : Prop :=
  ∀ c script, m.deed = .connect c script → m.before.link ≠ none

theorem Course.reported (h : Course t course u) (honce : ∀ m ∈ course, m.keepsLink)
    (hreported : Reported enter offered t.view said) :
    Reported enter (offered ++ offersOf course) u.view (said ++ saidBy .link course) := by
  induction h with
  | nil => simpa [offersOf, saidBy] using hreported
  | @snoc course v d _ ih =>
    obtain ⟨events, hp⟩ := v.perform_performs d
    have hbefore := ih fun m hm => honce m (List.mem_append_left _ hm)
    have hkeeps := honce _ (List.mem_append_right _ (List.mem_singleton_self _))
    have hnext := hp.reported hkeeps hbefore
    rw [List.append_assoc, List.append_assoc] at hnext
    rwa [offersOf, List.flatMap_append, ← offersOf, List.flatMap_singleton, saidBy_append,
      saidBy_transition _ hp]

theorem reported_of_connect {c : Connection} {script : Script}
    (h : (t.connect c script).2 = .accepted) :
    Reported script.enter (script.stream.map (·.content)) (t.connect c script).1.view [] := by
  obtain ⟨-, hview⟩ := (Trial.connect_view t c script).1 h
  rw [hview]
  exact .opening rfl rfl rfl (List.append_nil _)

end Performs

end Transport

end BrokerTrial

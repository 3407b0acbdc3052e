import BrokerTrial.Proofs.Usage
import Mathlib.Data.List.DropRight

/-! Opening a connection. A request is answered on the spot, and `Transport.Connects` lists the
answers. Whatever happens in between, a transport has a link if and only if a connection was
accepted since it was closed last (`openings_eq`). So a request is accepted if there is none and
the connection can be made into a client; all other requests change nothing but the log
(`connect_atomic`). -/

namespace BrokerTrial

def Value.IsPath (v : Value) : Prop :=
  (∃ s, v = .str s ∧ '\x00' ∉ s.toList) ∨ ∃ bs, v = .bytes bs ∧ 0 ∉ bs

theorem Value.isPath_iff {v : Value} : v.IsPath ↔ Tls.pathMisuse? v = none := by
  unfold IsPath Tls.pathMisuse?
  cases v <;> simp

namespace Connection

variable {c : Connection} {script : Script} {fault : Option String}

def Speaks (c : Connection) : Prop := c.protocol ∈ Protocol.all.map Protocol.text

def Wills (c : Connection) : Prop := ∃ s, c.will.message = .str s

/-- A file of authorities is to be read that is no path. -/
def Misdirected (c : Connection) : Prop :=
  c.useTls = true ∧ c.caFile.truth = true ∧ ¬ c.caFile.IsPath

/-- If a file of authorities is to be read, it can be. -/
def Secured (c : Connection) (fault : Option String) : Prop :=
  c.useTls = true → c.caFile.truth = true → c.caFile.IsPath ∧ fault = none

theorem Misdirected.not_secured (h : c.Misdirected) : ¬ c.Secured fault :=
  fun hsecured => h.2.2 (hsecured h.1 h.2.1).1

theorem setUp_cases (c : Connection) (fault : Option String) :
    (∃ tls, Tls.setUp c fault = .ok tls ∧ c.Secured fault ∧ ¬ c.Misdirected) ∨
      (∃ message, Tls.setUp c fault = .error (.unusable message) ∧ ¬ c.Secured fault ∧
        ¬ c.Misdirected) ∨
      ∃ m, Tls.setUp c fault = .error (.notPath m) ∧ ¬ c.Secured fault ∧ c.Misdirected := by
  unfold Tls.setUp Secured Misdirected
  rw [Value.isPath_iff]
  cases c.useTls <;> cases c.caFile.truth <;> cases Tls.pathMisuse? c.caFile <;> cases fault <;>
    simp

theorem speaks_iff : c.Speaks ↔ ∃ protocol, Protocol.ofText? c.protocol = some protocol := by
  unfold Speaks Protocol.ofText?
  rw [← Option.isSome_iff_exists, List.find?_isSome]
  simp

theorem willPayload_cases (c : Connection) :
    (∃ payload, Transport.willPayload c = .ok payload ∧ c.Wills) ∨
      ∃ m, Transport.willPayload c = .error m ∧ ¬ c.Wills := by
  unfold Transport.willPayload Wills
  cases c.will.message <;> simp

structure Usable (c : Connection) (script : Script) : Prop where
  speaks : c.Speaks
  secured : c.Secured script.authorities
  wills : c.Wills
  constructs : script.construction = none

/-- On the way to a client something comes up that is not expected. -/
def Blunders (c : Connection) (fault : Option String) : Prop :=
  c.Speaks ∧ (c.Misdirected ∨ c.Secured fault ∧ ¬ c.Wills)

theorem Usable.not_blunders (h : c.Usable script) : ¬ c.Blunders script.authorities :=
  fun hb => hb.2.elim (fun hm => hm.not_secured h.secured) fun hw => hw.2 h.wills

end Connection

namespace Transport

variable {start t u : Transport} {course : List Transition} {c : Connection} {script : Script}

inductive Connects (t : Transport) (c : Connection) (script : Script) : Transport → Answer → Prop
  | again (entry : Log.Entry) : t.link ≠ none → Connects t c script (t.log entry) .rejected
  | unusable (entry : Log.Entry) : t.link = none → ¬ c.Usable script →
      ¬ c.Blunders script.authorities → Connects t c script (t.log entry) .rejected
  | blunders (m : Value.Misuse) : t.link = none → c.Blunders script.authorities →
      Connects t c script t (.raised (.misuse m))
  /-- The client fails to be constructed in a way that is not expected. -/
  | breaks {f : Fault} : script.construction = some f → rejectsConstruction f = false →
      Connects t c script t (.raised (.fault f))
  | opens (client : Built) : t.link = none → c.Usable script →
      Connects t c script ({ t.mark (.built client) with link := some script.link }.enqueue .link)
        .accepted

theorem connect_connects (t : Transport) (c : Connection) (script : Script) :
    t.Connects c script (t.connect c script).1 (t.connect c script).2 := by
  unfold connect
  split_ifs with hlink
  · exact .again _ (Option.isSome_iff_ne_none.1 hlink)
  have hnone : t.link = none := Option.not_isSome_iff_eq_none.1 hlink
  cases hprotocol : Protocol.ofText? c.protocol with
  | none =>
    have hspeaks : ¬ c.Speaks := by
      rw [Connection.speaks_iff, hprotocol]
      exact nofun
    exact .unusable _ hnone (fun h => hspeaks h.speaks) fun h => hspeaks h.1
  | some protocol =>
    have hspeaks : c.Speaks := Connection.speaks_iff.2 ⟨protocol, hprotocol⟩
    obtain ⟨tls, htls, hsecured, hdirected⟩ | ⟨message, htls, hsecured, hdirected⟩ |
      ⟨m, htls, -, hdirected⟩ := c.setUp_cases script.authorities
    · dsimp only
      rw [htls]
      obtain ⟨payload, hpayload, hwills⟩ | ⟨m, hpayload, hwills⟩ := c.willPayload_cases
      · have hno : ¬ c.Blunders script.authorities := fun h =>
          h.2.elim hdirected fun h => h.2 hwills
        dsimp only
        rw [hpayload]
        cases hconstruction : script.construction with
        | none => exact .opens _ hnone ⟨hspeaks, hsecured, hwills, hconstruction⟩
        | some f =>
          dsimp only
          split_ifs with hf
          · have husable : ¬ c.Usable script := fun h => by
              cases hconstruction.symm.trans h.constructs
            exact .unusable _ hnone husable hno
          · exact .breaks hconstruction (Bool.eq_false_of_not_eq_true hf)
      · dsimp only
        rw [hpayload]
        exact .blunders m hnone ⟨hspeaks, .inr ⟨hsecured, hwills⟩⟩
    · dsimp only
      rw [htls]
      refine .unusable _ hnone (fun h => hsecured h.secured) fun h => ?_
      exact h.2.elim hdirected fun h => hsecured h.1
    · dsimp only
      rw [htls]
      exact .blunders m hnone ⟨hspeaks, .inl hdirected⟩

def Transition.opens (m : Transition) : Bool :=
  match m.deed with
  | .connect c script => decide ((m.before.connect c script).2 = .accepted)
  | _ => false

def Transition.shuts (m : Transition) : Bool :=
  match m.deed with
  | .finishClose => true
  | _ => false

/-- How many connections were accepted since the transport was closed last. -/
def openings (course : List Transition) : Nat :=
  (course.rtakeWhile fun m => !m.shuts).countP Transition.opens

theorem openings_concat (course : List Transition) (m : Transition) :
    openings (course ++ [m]) =
      if m.shuts then 0 else openings course + if m.opens then 1 else 0 := by
  unfold openings
  rw [List.rtakeWhile_concat]
  cases m.shuts <;> simp

theorem View.Change.isSome_link {v w : View} (h : v.Change w) : w.link.isSome = v.link.isSome := by
  cases h with
  | act | ends | message => rfl
  | connecting hlink | established hlink | parked hlink | failed _ hlink | closed hlink
  | stopped hlink => rw [hlink]; rfl

theorem View.Changes.isSome_link {v w : View} (h : v.Changes w) :
    w.link.isSome = v.link.isSome := by
  induction h with
  | refl => rfl
  | tail _ hchange ih => exact hchange.isSome_link.trans ih

/-- Only a request for a connection puts a link in, and only closing takes it out. -/
theorem Performs.isSome_link {d : Deed} {said : List Event} (h : t.Performs d said u)
    (hconnect : ∀ c script, d ≠ .connect c script) (hclose : d ≠ .finishClose) :
    u.link.isSome = t.link.isSome := by
  have hkeeps {view : View} (hu : u.view = view) (hview : view.link.isSome = t.link.isSome) :
      u.link.isSome = t.link.isSome := (congrArg (·.link.isSome) hu).trans hview
  cases h with
  | works hworks => exact hworks.view_changes.isSome_link
  | rests _ _ _ _ hu => exact hkeeps hu.view_eq rfl
  | speaks _ hu => exact hkeeps hu.view_eq rfl
  | takes hu => exact hkeeps hu.view_eq rfl
  | starts _ _ _ hview => exact hkeeps hview rfl
  | connects => exact absurd rfl (hconnect _ _)
  | arrives hu => exact hkeeps hu.view_eq Option.isSome_map
  | closes _ _ hlink hu => exact hkeeps hu.view_eq (by rw [hlink, Option.isSome_map])
  | closed => exact absurd rfl hclose

theorem Connects.link_eq {answer : Answer} (h : t.Connects c script u answer) :
    (answer = .accepted → t.link = none ∧ u.link = some script.link) ∧
      (answer ≠ .accepted → u.link = t.link) := by
  cases h with
  | opens _ hnone _ => exact ⟨fun _ => ⟨hnone, rfl⟩, fun h => absurd rfl h⟩
  | _ => exact ⟨nofun, fun _ => rfl⟩

def links (t : Transport) : Nat := if t.link.isSome then 1 else 0

theorem links_eq_zero_iff : t.links = 0 ↔ t.link = none := by
  unfold links
  cases t.link <;> simp

theorem links_perform (t : Transport) (d : Deed) :
    let m : Transition := ⟨t, d, t.perform d⟩
    (t.perform d).links = if m.shuts then 0 else t.links + if m.opens then 1 else 0 := by
  intro m
  by_cases hconnect : ∃ c script, d = .connect c script
  · obtain ⟨c, script, rfl⟩ := hconnect
    have hopens : m.opens = decide ((t.connect c script).2 = .accepted) := rfl
    have hshuts : m.shuts = false := rfl
    have hlinks : (t.perform (.connect c script)).links = (t.connect c script).1.links := rfl
    obtain ⟨haccepted, hother⟩ := (t.connect_connects c script).link_eq
    rw [hopens, hshuts, hlinks]
    by_cases hanswer : (t.connect c script).2 = .accepted
    · obtain ⟨hnone, hsome⟩ := haccepted hanswer
      simp [links, hanswer, hnone, hsome]
    · simp [links, hanswer, hother hanswer]
  · by_cases hclose : d = .finishClose
    · subst hclose
      rfl
    · obtain ⟨said, hp⟩ := t.perform_performs d
      have hlink := hp.isSome_link (fun c script hd => hconnect ⟨c, script, hd⟩) hclose
      have hopens : m.opens = false := by
        cases d <;> first | rfl | exact absurd ⟨_, _, rfl⟩ hconnect
      have hshuts : m.shuts = false := by
        cases d <;> first | rfl | exact absurd rfl hclose
      rw [hopens, hshuts, links, hlink]
      rfl

/-- There is a link as long as an accepted connection is not closed. -/
theorem openings_eq (h : Course start course t) (hstart : start.link = none) :
    openings course = t.links := by
  induction h with
  | nil => exact (links_eq_zero_iff.2 hstart).symm
  | snoc d _ ih => rw [openings_concat, ih, links_perform]

/-- The answer goes by whether there is a link, and by the connection. -/
theorem connect_answer_congr (h : u.link = t.link) (c : Connection) (script : Script) :
    (u.connect c script).2 = (t.connect c script).2 := by
  unfold connect
  rw [h]
  repeat' split
  all_goals rfl

/-- A request that is not accepted changes nothing but the log. -/
theorem Connects.unchanged {answer : Answer} (h : t.Connects c script u answer)
    (hanswer : answer ≠ .accepted) : { u with marks := t.marks } = t := by
  cases h with
  | opens => exact absurd rfl hanswer
  | _ => rfl

theorem Connects.accepted_iff {answer : Answer} (h : t.Connects c script u answer) :
    answer = .accepted ↔ t.link = none ∧ c.Usable script := by
  cases h with
  | again _ hlink => exact iff_of_false nofun fun h => hlink h.1
  | unusable _ _ husable _ => exact iff_of_false nofun fun h => husable h.2
  | blunders _ _ hb => exact iff_of_false nofun fun h => h.2.not_blunders hb
  | breaks hf _ =>
    exact iff_of_false nofun fun h => by cases hf.symm.trans h.2.constructs
  | opens _ hnone husable => exact iff_of_true rfl ⟨hnone, husable⟩

theorem Connects.raised_iff {answer : Answer} (h : t.Connects c script u answer)
    (hclient : ∀ f, script.construction = some f → rejectsConstruction f = true) :
    (∃ e, answer = .raised e) ↔ t.link = none ∧ c.Blunders script.authorities := by
  cases h with
  | again _ hlink => exact iff_of_false nofun fun h => hlink h.1
  | unusable _ _ _ hb => exact iff_of_false nofun fun h => hb h.2
  | blunders m hnone hb => exact iff_of_true ⟨_, rfl⟩ ⟨hnone, hb⟩
  | breaks hf hrejects => cases (hclient _ hf).symm.trans hrejects
  | opens _ _ husable => exact iff_of_false nofun fun h => husable.not_blunders h.2

/-- Whatever happened before, a request for a connection is accepted if and only if none was
accepted since the transport was closed last and a client can be made of it; then one link is
started. It raises if and only if there is no connection and the file of authorities is no path or
the last will no text, as far as these are looked at. A request that is not accepted changes nothing
but the log, so the next one is answered as if it had not been.

A text here is a sequence of Unicode scalar values, each of which has an encoding. A last will with
a lone surrogate has none, and raises as well; no `Connection` holds one, so `Blunders` leaves it
out. -/
theorem connect_atomic (h : Course start course t) (hstart : start.link = none) (c : Connection)
    (script : Script)
    (hclient : ∀ f, script.construction = some f → rejectsConstruction f = true) :
    let u := (t.connect c script).1
    let answer := (t.connect c script).2
    ((∃ e, answer = .raised e) ↔ openings course = 0 ∧ c.Blunders script.authorities) ∧
      (answer = .accepted ↔ openings course = 0 ∧ c.Usable script) ∧
      (answer = .accepted →
        { u with marks := t.marks } = { t with link := some script.link }.enqueue .link) ∧
      (answer ≠ .accepted → { u with marks := t.marks } = t ∧
        ∀ c' script', (u.connect c' script').2 = (t.connect c' script').2) := by
  intro u answer
  have hconnects : t.Connects c script u answer := t.connect_connects c script
  rw [openings_eq h hstart, links_eq_zero_iff]
  refine ⟨hconnects.raised_iff hclient, hconnects.accepted_iff, ?_, fun hanswer => ?_⟩
  · intro hanswer
    generalize u = u, answer = answer at hconnects hanswer ⊢
    cases hconnects with
    | opens => rfl
    | _ => cases hanswer
  · exact ⟨hconnects.unchanged hanswer,
      connect_answer_congr (hconnects.link_eq.2 hanswer)⟩

def willing (message : Value) : Connection where
  host := .str "localhost"
  port := 1883
  clientId := .str "probe"
  keepAlive := 60
  cleanStart := true
  will := { topic := .str "bye", message, qos := 0, retain := false }
  username := .null
  password := .null
  protocol := "3.1.1"
  useTls := false
  allowSelfSigned := false
  caFile := .null

/-- A connection is accepted, and one more is not; it is closed, and a request raises. -/
def reopened : List Deed :=
  [.connect (willing (.str "over")) {}, .job .link, .connect (willing (.str "over")) {},
    .finishClose, .connect (willing (.int 42)) {}]

/-- A client cannot be constructed, and the next request is accepted all the same. -/
theorem reopened_after_refusal :
    let c := willing (.str "over")
    let script : Script := { construction := some ⟨.value, some "bad port"⟩ }
    let t := reopened.foldl perform {}
    let u := (t.connect c script).1
    openings (transitions {} reopened) = 0 ∧ (t.connect c script).2 ≠ .accepted ∧
      (∀ e, (t.connect c script).2 ≠ .raised e) ∧ { u with marks := t.marks } = t ∧
      (u.connect c {}).2 = .accepted := by
  intro c script t u
  have hclient : ∀ f, script.construction = some f → rejectsConstruction f = true := by
    rintro f ⟨⟩
    rfl
  have hcourse := course_transitions {} reopened
  obtain ⟨hraised, haccepted, -, hother⟩ := connect_atomic hcourse rfl c script hclient
  have hwills : c.Wills := ⟨"over", rfl⟩
  have hrefused : (t.connect c script).2 ≠ .accepted := fun h => by
    cases (haccepted.1 h).2.constructs
  have hcalm : ∀ e, (t.connect c script).2 ≠ .raised e := fun e h => by
    obtain ⟨-, -, hdirected | hwill⟩ := hraised.1 ⟨e, h⟩
    · cases hdirected.1
    · exact hwill.2 hwills
  obtain ⟨hunchanged, hnext⟩ := hother hrefused
  have hspeaks : "3.1.1" ∈ Protocol.all.map Protocol.text := by decide
  have husable : c.Usable {} := ⟨hspeaks, nofun, hwills, rfl⟩
  have hagain := (connect_atomic hcourse rfl c {} nofun).2.1.2 ⟨rfl, husable⟩
  exact ⟨rfl, hrefused, hcalm, hunchanged, (hnext c {}).trans hagain⟩

/-- A last will that is a number comes out of a configuration, and a request with it raises; so does
one with a file of authorities that is a number. -/
theorem numeric_will_raises :
    let mqtt (key : String) (v : Value) : Value :=
      .mapping [(.str "mqtt", .mapping [(.str key, v)])]
    (∃ c, Connection.ofConfig (mqtt "will" (.mapping [(.str "message", .int 42)])) false = .ok c ∧
      (connect {} c {}).2 = .raised (.misuse (.noMember .int "encode"))) ∧
    ∃ c, Connection.ofConfig (mqtt "ca_file" (.int 42)) true = .ok c ∧
      (connect {} c {}).2 = .raised (.misuse .notPath) := by
  intro mqtt
  exact ⟨⟨_, rfl, rfl⟩, ⟨_, rfl, rfl⟩⟩

end Transport

end BrokerTrial
